import Remediator.Outbox.Rows

set_option autoImplicit false

/-! # The steps of the outbox

What a step can do to the rows and to the dispatches in progress, said once: a step of a dispatch
changes its own row at most (`Moves`), a claim adds a dispatch, a re-queue opens a failed row
again, and everything else only adds rows (`Effect`). With it the facts that hold in every run,
whatever the leases do (`WellFormed`).
-/

namespace Remediator.Outbox

/-! ## What a step can do -/

section Lists

variable {s : State} {ℓ : Loop} {d x : Dispatch} {k : Nat}

theorem mem_of_dispatchOf (h : s.dispatchOf ℓ = some d) : d ∈ s.dispatches ∧ d.loop = ℓ := by
  refine ⟨List.mem_of_find?_eq_some h, ?_⟩
  simpa using List.find?_some h

theorem ne_of_dispatchOf (h : s.dispatchOf ℓ = none) (hx : x ∈ s.dispatches) : x.loop ≠ ℓ := by
  have hnone := List.find?_eq_none.mp h x hx
  simpa using hnone

theorem mem_of_firstDue {ks : List Nat} (h : firstDue s ks = some k) : k ∈ ks := by
  induction ks generalizing k with
  | nil => cases h
  | cons j js ih =>
      simp only [firstDue] at h
      split at h
      · cases h
        exact List.mem_cons_self
      · next i hi =>
          split at h
          · cases h
            exact List.mem_cons_of_mem _ (ih hi)
          · cases h
            exact List.mem_cons_self

theorem claimable_of_nextDue (h : nextDue s = some k) : claimable s k = true :=
  (List.mem_filter.mp (mem_of_firstDue h)).2

theorem pending_of_claimable {e : Entry} (h : claimable s k = true) (he : s.rows[k]? = some e) :
    e.row.status = .pending := by
  simp only [claimable, he, Bool.and_eq_true, decide_eq_true_eq] at h
  exact h.1.1.1

end Lists

section Inversion

variable {cfg : Settings} {s s' : State} {ℓ : Loop} {a : Act}

/-- The claimed row and its new dispatch. -/
theorem claimStep_cases (h : claimStep cfg s ℓ = some s') :
    ∃ k e, s.dispatchOf ℓ = none ∧ nextDue s = some k ∧ s.rows[k]? = some e ∧
      e.row.status = .pending ∧
      s' = (s.setEntry k
          { e with row := claimRow cfg s.now ℓ.worker e.row, claims := e.claims + 1 }).progress
        ⟨ℓ, k, e.claims + 1, .claimed⟩ := by
  unfold claimStep at h
  split at h
  · cases h
  · next hfree =>
      obtain ⟨k, hk, h⟩ := Option.bind_eq_some_iff.mp h
      obtain ⟨e, he, h⟩ := Option.bind_eq_some_iff.mp h
      refine ⟨k, e, ?_, hk, he, pending_of_claimable (claimable_of_nextDue hk) he, ?_⟩
      · simpa using hfree
      · exact (Option.some.inj h).symm

/-- A dispatch in progress takes its step on the row as it is. -/
theorem loopStep_cases (h : loopStep cfg s ℓ a = some s') :
    ∃ d e, d ∈ s.dispatches ∧ d.loop = ℓ ∧ s.rows[d.row]? = some e ∧
      dispatchStep cfg s d e a = some s' := by
  obtain ⟨d, hd, h⟩ := Option.bind_eq_some_iff.mp h
  obtain ⟨e, he, h⟩ := Option.bind_eq_some_iff.mp h
  obtain ⟨hmem, hloop⟩ := mem_of_dispatchOf hd
  split at h
  · cases h
  · exact ⟨d, e, hmem, hloop, he, h⟩

theorem requeueStep_cases {k : Nat} (h : requeueStep s k = some s') :
    ∃ e, s.rows[k]? = some e ∧ ((e.row.status ≠ .failed ∧ s' = s) ∨
      (e.row.status = .failed ∧ s' = requeueApproval (s.setEntry k
        { e with row := requeueRow s.now e.row, starts := 0, requeues := e.requeues + 1 }) k e)) := by
  obtain ⟨e, he, h⟩ := Option.bind_eq_some_iff.mp h
  refine ⟨e, he, ?_⟩
  split at h
  · cases h
  · split at h
    · next hne =>
        cases h
        exact .inl ⟨hne, rfl⟩
    · next hfailed =>
        cases h
        exact .inr ⟨not_not.mp hfailed, rfl⟩

end Inversion

/-! ## One row at a time

A step changes one entry at most, and it may add rows at the end of the table. -/

/-- A row that nobody has claimed yet, of an approval request that exists. -/
structure Fresh (requests : Nat) (x : Entry) : Prop where
  claims : x.claims = 0
  starts : x.starts = 0
  status : x.row.status = .pending
  attempts : x.row.attemptsCount = 0
  claimedBy : x.row.claimedBy = none
  keys : ∀ id, x.row.approvalRequestId = some id → id < requests

/-- The entry of the row `k` becomes `e`, and new rows may follow the table. -/
structure Touch (s : State) (k : Nat) (e : Entry) (s' : State) : Prop where
  rows : ∃ extra, s'.rows = s.rows.set k e ++ extra ∧ ∀ x ∈ extra, Fresh s'.requests.length x
  requests : s.requests.length ≤ s'.requests.length
  events : ∀ v ∈ s.events, v ∈ s'.events

section Touches

variable {s s' s'' : State} {k j : Nat} {e e' x : Entry}

theorem Touch.self (h : Touch s k e' s') (hk : s.rows[k]? = some e) : s'.rows[k]? = some e' := by
  obtain ⟨extra, hrows, -⟩ := h.rows
  obtain ⟨hlt, -⟩ := List.getElem?_eq_some_iff.mp hk
  rw [hrows, List.getElem?_append_left (by simpa using hlt), List.getElem?_set_self hlt]

theorem Touch.other (h : Touch s k e' s') (hj : s.rows[j]? = some x) (hne : j ≠ k) :
    s'.rows[j]? = some x := by
  obtain ⟨extra, hrows, -⟩ := h.rows
  obtain ⟨hlt, -⟩ := List.getElem?_eq_some_iff.mp hj
  rw [hrows, List.getElem?_append_left (by simpa using hlt), List.getElem?_set_ne hne.symm, hj]

/-- Where an entry of the new table comes from. -/
theorem Touch.cases (h : Touch s k e' s') (hj : s'.rows[j]? = some x) :
    (j = k ∧ x = e') ∨ (j ≠ k ∧ s.rows[j]? = some x) ∨
      (s.rows.length ≤ j ∧ Fresh s'.requests.length x) := by
  obtain ⟨extra, hrows, hfresh⟩ := h.rows
  rw [hrows] at hj
  by_cases hlt : j < s.rows.length
  · rw [List.getElem?_append_left (by simpa using hlt)] at hj
    by_cases hjk : j = k
    · subst hjk
      rw [List.getElem?_set_self hlt] at hj
      exact .inl ⟨rfl, (Option.some.inj hj).symm⟩
    · rw [List.getElem?_set_ne (Ne.symm hjk)] at hj
      exact .inr (.inl ⟨hjk, hj⟩)
  · rw [List.getElem?_append_right (by simpa using hlt)] at hj
    exact .inr (.inr ⟨Nat.le_of_not_lt hlt, hfresh x (List.mem_of_getElem? hj)⟩)

theorem Touch.setEntry (s : State) (k : Nat) (e : Entry) : Touch s k e (s.setEntry k e) where
  rows := ⟨[], by simp [State.setEntry], by simp⟩
  requests := Nat.le_refl _
  events := fun _ hv => hv

/-- Requests may be written and events added on top of it. -/
theorem Touch.mono (h : Touch s k e s') (hrows : s''.rows = s'.rows)
    (hrequests : s''.requests.length = s'.requests.length)
    (hevents : ∀ v ∈ s'.events, v ∈ s''.events) : Touch s k e s'' where
  rows := by
    rw [hrows, hrequests]
    exact h.rows
  requests := by
    rw [hrequests]
    exact h.requests
  events := fun v hv => hevents v (h.events v hv)

theorem mayCreate_lt {request : Option Nat} {id : Nat} (h : mayCreate s request = true)
    (hid : request = some id) : id < s.requests.length := by
  subst hid
  exact of_decide_eq_true h

theorem Touch.enqueue {kind : Kind} {request : Option Nat} (h : Touch s k e s')
    (hmay : mayCreate s' request = true) : Touch s k e (s'.enqueue kind request) where
  rows := by
    obtain ⟨extra, hrows, hfresh⟩ := h.rows
    unfold State.enqueue
    rw [hrows, List.append_assoc]
    refine ⟨_, rfl, ?_⟩
    intro x hx
    rcases List.mem_append.mp hx with hx | hx
    · exact hfresh x hx
    · rw [List.mem_singleton.mp hx]
      exact ⟨rfl, rfl, rfl, rfl, rfl, fun _ hid => mayCreate_lt hmay hid⟩
  requests := h.requests
  events := h.events

/-- An entry may also stay as it is. -/
theorem Touch.refl (hk : s.rows[k]? = some e) (hrows : s'.rows = s.rows)
    (hrequests : s'.requests = s.requests) (hevents : s'.events = s.events) :
    Touch s k e s' where
  rows := by
    obtain ⟨hlt, rfl⟩ := List.getElem?_eq_some_iff.mp hk
    exact ⟨[], by rw [hrows, List.append_nil, List.set_getElem_self], by simp⟩
  requests := by
    exact Nat.le_of_eq (by rw [hrequests])
  events := by
    rw [hevents]
    exact fun _ hv => hv

/-- `_on_terminal_failure` adds rows and events only. -/
theorem onTerminalFailure_touch {error : String} (h : Touch s k e' s') :
    Touch s k e' (onTerminalFailure s' j e error) := by
  unfold onTerminalFailure
  split
  · exact h
  · next id _ =>
      split
      · exact h
      · next r hr =>
          have hid : id < s'.requests.length := (List.getElem?_eq_some_iff.mp hr).1
          have hev : Touch s k e' (recordFailure s' j e error id r) :=
            h.mono rfl (List.length_set ..) (fun _ hv => List.mem_append_left _ hv)
          split
          · have hcase : Touch s k e' (deliveryFailedCase (recordFailure s' j e error id r) r) := by
              unfold deliveryFailedCase
              split
              · exact hev.mono rfl rfl (fun _ hv => hv)
              · exact hev
            unfold enqueueSlackStatusUpdate
            split
            · refine hcase.enqueue (decide_eq_true ?_)
              unfold deliveryFailedCase
              split <;> simpa [recordFailure] using hid
            · exact hcase
          · exact hev

theorem requeueApproval_touch (h : Touch s k e' s') :
    Touch s k e' (requeueApproval s' j e) := by
  unfold requeueApproval
  split
  · exact h
  · split
    · exact h
    · exact h.mono rfl (List.length_set ..) (fun _ hv => List.mem_append_left _ hv)

end Touches

section Dispatches

variable {s : State} {k : Nat} {e : Entry}

@[simp] theorem onTerminalFailure_dispatches (error : String) :
    (onTerminalFailure s k e error).dispatches = s.dispatches := by
  unfold onTerminalFailure
  split
  · rfl
  · split
    · rfl
    · unfold enqueueSlackStatusUpdate deliveryFailedCase State.enqueue recordFailure
      split
      · split <;> split <;> rfl
      · rfl

@[simp] theorem requeueApproval_dispatches : (requeueApproval s k e).dispatches = s.dispatches := by
  unfold requeueApproval
  split
  · rfl
  · split <;> rfl

end Dispatches

/-! ## The columns a dispatch writes -/

section Columns

variable (cfg : Settings) (now jitter : Nat) (error : String) (permanent : Bool)
  (retryAfter : Option Nat) (row : Row)

@[simp] theorem failRow_kind :
    (failRow cfg now jitter error permanent retryAfter row).kind = row.kind := by
  unfold failRow
  dsimp only
  split <;> rfl

@[simp] theorem failRow_approvalRequestId :
    (failRow cfg now jitter error permanent retryAfter row).approvalRequestId =
      row.approvalRequestId := by
  unfold failRow
  dsimp only
  split <;> rfl

@[simp] theorem failRow_attemptsCount :
    (failRow cfg now jitter error permanent retryAfter row).attemptsCount =
      row.attemptsCount := by
  unfold failRow
  dsimp only
  split <;> rfl

@[simp] theorem failRow_claimedBy :
    (failRow cfg now jitter error permanent retryAfter row).claimedBy = none := by
  unfold failRow
  dsimp only
  split <;> rfl

theorem failRow_status :
    (failRow cfg now jitter error permanent retryAfter row).status =
      if terminal cfg permanent row then .failed else row.status := by
  unfold failRow terminal
  dsimp only
  split <;> rfl

/-- A row that was loaded as claimed and `PENDING` is released as `SENT`. -/
theorem merge_sentRow {worker : Nat} {skipped : Option String} {loaded : Row}
    (hstatus : loaded.status = .pending) (howner : loaded.claimedBy = some worker) :
    (Row.merge loaded (sentRow now skipped loaded) row).status = .sent ∧
      (Row.merge loaded (sentRow now skipped loaded) row).claimedBy = none ∧
      (Row.merge loaded (sentRow now skipped loaded) row).attemptsCount = row.attemptsCount := by
  refine ⟨?_, ?_, ?_⟩
  · simp [Row.merge, sentRow, pick, hstatus]
  · simp [Row.merge, sentRow, pick, howner]
  · simp [Row.merge, sentRow, pick]

end Columns

/-! ## A step of a dispatch -/

/-- What a step of the dispatch `d` makes of the dispatch and of the entry of its row. -/
inductive Moves (cfg : Settings) (now : Nat) (d : Dispatch) (e : Entry) :
    Act → Option Dispatch → Entry → Prop
  | abandoned (ℓ : Loop) (hstage : d.stage = .claimed)
      (howner : e.row.claimedBy ≠ some d.loop.worker) : Moves cfg now d e (.start ℓ) none e
  | started (ℓ : Loop) (hstage : d.stage = .claimed)
      (howner : e.row.claimedBy = some d.loop.worker) :
      Moves cfg now d e (.start ℓ) (some { d with stage := .handling e.row true })
        { e with starts := e.starts + 1 }
  | committed (ℓ : Loop) (loaded : Row) (locked : Bool) (hstage : d.stage = .handling loaded locked) :
      Moves cfg now d e (.commit ℓ) (some { d with stage := .handling loaded false }) e
  | sent (ℓ : Loop) (skipped : Option String) (loaded : Row) (locked : Bool)
      (hstage : d.stage = .handling loaded locked) :
      Moves cfg now d e (.succeed ℓ skipped) none
        { e with row := Row.merge loaded (sentRow now skipped loaded) e.row }
  | failed (ℓ : Loop) (error : String) (permanent : Bool) (retryAfter : Option Nat) (loaded : Row)
      (locked : Bool) (hstage : d.stage = .handling loaded locked) :
      Moves cfg now d e (.fail ℓ error permanent retryAfter)
        (some { d with stage := .failing error permanent retryAfter }) e
  | settled (ℓ : Loop) (jitter : Nat) (error : String) (permanent : Bool) (retryAfter : Option Nat)
      (hstage : d.stage = .failing error permanent retryAfter) :
      Moves cfg now d e (.settle ℓ jitter) none
        { e with row := failRow cfg now jitter error permanent retryAfter e.row }
  | died (ℓ : Loop) : Moves cfg now d e (.die ℓ) none e

/-- The dispatches after a step of `d`. -/
def Replaces (s : State) (d : Dispatch) (d' : Option Dispatch) (s' : State) : Prop :=
  s'.dispatches = d'.toList ++ s.dispatches.filter (fun x => decide (x.loop ≠ d.loop))

theorem Replaces.mem {s s' : State} {d x : Dispatch} {d' : Option Dispatch}
    (h : Replaces s d d' s') :
    x ∈ s'.dispatches ↔ d' = some x ∨ (x ∈ s.dispatches ∧ x.loop ≠ d.loop) := by
  rw [h]
  simp [Option.mem_toList]

theorem replaces_progress {s : State} {d d' : Dispatch} (hloop : d'.loop = d.loop) :
    Replaces s d (some d') (s.progress d') := by
  simp [Replaces, State.progress, hloop]

/-- The terminal failure of a row as it was is told by an event on its approval request. -/
def Tells (s' : State) (k : Nat) (e : Entry) (error : String) (id : Nat) (name : String) : Prop :=
  ⟨id, name, k, e.requeues, some error⟩ ∈ s'.events

/-- Everything that a terminal failure of the row leaves behind, for a row with an approval
request: what the request, its case and its Slack message are told, kind by kind. -/
def FailureRecorded (s s' : State) (k : Nat) (e : Entry) (error : String) : Prop :=
  ∀ id r, e.row.approvalRequestId = some id → s.requests[id]? = some r →
    match e.row.kind with
    | .slackApprovalRequest =>
        s'.requests[id]? = some { r with notificationStatus := .failed } ∧
          Tells s' k e error id "slack_notification_failed"
    | .githubApplyLabel =>
        if r.labelAppliedAt.isSome then
          s'.requests[id]? = some r ∧ Tells s' k e error id "approval_comment_failed"
        else
          s'.requests[id]? = some { r with deliveryStatus := .failed } ∧
            Tells s' k e error id "label_delivery_failed" ∧
            (s.cases[r.caseId]? = some .awaitingRemediationApproval →
              s'.cases[r.caseId]? = some .approvalDeliveryFailed) ∧
            (r.slackMessageTs.isSome → ∃ (j : Nat) (x : Entry), s.rows.length ≤ j ∧
              s'.rows[j]? = some x ∧ x.row.kind = .slackStatusUpdate ∧
              x.row.approvalRequestId = some id ∧ x.row.status = .pending)
    | .githubRejectionComment => Tells s' k e error id "rejection_comment_failed"
    | .slackStatusUpdate | .slackRemediationUpdate => Tells s' k e error id "slack_update_failed"
    | .slackEphemeralResponse => Tells s' k e error id "slack_response_failed"
    | .githubNotFeasible | .recordOnly | .unknown => True

section Recording

variable {s s₀ : State} {k : Nat} {e : Entry} {error : String} {id : Nat} {r : Request}

theorem recordFailure_request (hr : s.requests[id]? = some r) :
    (recordFailure s k e error id r).requests[id]? = some (failRequest e.row.kind r) :=
  List.getElem?_set_self (List.getElem?_eq_some_iff.mp hr).1

theorem recordFailure_tells {name : String}
    (hname : failureEvent e.row.kind r.labelAppliedAt.isSome = some name) :
    Tells (recordFailure s k e error id r) k e error id name := by
  refine List.mem_append_right _ ?_
  rw [hname]
  exact List.mem_singleton.mpr rfl

/-- A failed label delivery takes the case out of its approval. -/
theorem deliveryFailedCase_cases (hcase : s.cases[r.caseId]? = some .awaitingRemediationApproval) :
    (deliveryFailedCase s r).cases[r.caseId]? = some .approvalDeliveryFailed := by
  unfold deliveryFailedCase
  rw [if_pos hcase]
  exact List.getElem?_set_self (List.getElem?_eq_some_iff.mp hcase).1

@[simp] theorem deliveryFailedCase_rest :
    (deliveryFailedCase s r).requests = s.requests ∧ (deliveryFailedCase s r).events = s.events ∧
      (deliveryFailedCase s r).rows = s.rows := by
  unfold deliveryFailedCase
  split <;> exact ⟨rfl, rfl, rfl⟩

theorem enqueueSlackStatusUpdate_rest :
    (enqueueSlackStatusUpdate s id r).requests = s.requests ∧
      (enqueueSlackStatusUpdate s id r).events = s.events ∧
      (enqueueSlackStatusUpdate s id r).cases = s.cases := by
  unfold enqueueSlackStatusUpdate
  split <;> exact ⟨rfl, rfl, rfl⟩

/-- The Slack message of the request is to be updated. -/
theorem enqueueSlackStatusUpdate_rows (hts : r.slackMessageTs.isSome = true) :
    ∃ x : Entry, (enqueueSlackStatusUpdate s id r).rows[s.rows.length]? = some x ∧
      x.row.kind = .slackStatusUpdate ∧ x.row.approvalRequestId = some id ∧
      x.row.status = .pending := by
  unfold enqueueSlackStatusUpdate
  rw [if_pos hts]
  exact ⟨_, List.getElem?_concat_length, rfl, rfl, rfl⟩

/-- **`_on_terminal_failure` records everything it should.** -/
theorem onTerminalFailure_records (hrequests : s.requests = s₀.requests)
    (hcases : s.cases = s₀.cases) (hrows : s.rows.length = s₀.rows.length) :
    FailureRecorded s₀ (onTerminalFailure s k e error) k e error := by
  intro id r hid hr
  rw [← hrequests] at hr
  have hrequest : (recordFailure s k e error id r).requests[id]? =
      some (failRequest e.row.kind r) := recordFailure_request hr
  have htells : ∀ name, failureEvent e.row.kind r.labelAppliedAt.isSome = some name →
      Tells (recordFailure s k e error id r) k e error id name := fun _ => recordFailure_tells
  unfold onTerminalFailure
  simp only [hid, hr]
  cases hkind : e.row.kind with
  | githubApplyLabel =>
      rw [hkind] at hrequest htells
      cases happlied : r.labelAppliedAt with
      | some t =>
          rw [happlied] at htells
          simp only [failRequest, happlied, Option.isSome_some, if_true] at hrequest
          exact ⟨hrequest, htells _ rfl⟩
      | none =>
          rw [happlied] at htells
          simp only [failRequest, happlied, Option.isSome_none, Bool.false_eq_true, if_false]
            at hrequest
          rw [if_pos ⟨rfl, rfl⟩]
          obtain ⟨hreq, hev, hcs⟩ := @enqueueSlackStatusUpdate_rest
            (deliveryFailedCase (recordFailure s k e error id r) r) id r
          obtain ⟨hreq', hev', hrw'⟩ := @deliveryFailedCase_rest
            (recordFailure s k e error id r) r
          refine ⟨?_, ?_, fun hcase => ?_, fun hts => ?_⟩
          · rw [hreq, hreq', hrequest]
          · unfold Tells
            rw [hev, hev']
            exact htells _ rfl
          · rw [hcs]
            refine deliveryFailedCase_cases ?_
            rw [← hcases] at hcase
            exact hcase
          · obtain ⟨x, hx, hrest⟩ := @enqueueSlackStatusUpdate_rows
              (deliveryFailedCase (recordFailure s k e error id r) r) id r hts
            rw [hrw'] at hx
            exact ⟨s.rows.length, x, Nat.le_of_eq hrows.symm, hx, hrest⟩
  | slackApprovalRequest =>
      rw [hkind] at hrequest htells
      exact ⟨hrequest, htells _ rfl⟩
  | githubRejectionComment =>
      rw [hkind] at htells
      exact htells _ rfl
  | slackStatusUpdate =>
      rw [hkind] at htells
      exact htells _ rfl
  | slackRemediationUpdate =>
      rw [hkind] at htells
      exact htells _ rfl
  | slackEphemeralResponse =>
      rw [hkind] at htells
      exact htells _ rfl
  | githubNotFeasible | recordOnly | unknown => trivial

end Recording

/-- A row becomes `FAILED` only when its failure is recorded with it. -/
def Records (s : State) (d : Dispatch) (e e' : Entry) (s' : State) : Prop :=
  e'.row.status = .failed →
    e.row.status = .failed ∨ ∃ error, FailureRecorded s s' d.row e error

theorem records_of_row_eq {s s' : State} {d : Dispatch} {e e' : Entry} (h : e'.row = e.row) :
    Records s d e e' s' :=
  fun hfailed => .inl (h ▸ hfailed)

theorem settleDispatch_touch {cfg : Settings} {s : State} {d : Dispatch} {e : Entry}
    {error : String} {permanent : Bool} {retryAfter : Option Nat} {jitter : Nat} :
    Touch s d.row { e with row := failRow cfg s.now jitter error permanent retryAfter e.row }
      (settleDispatch cfg s d e error permanent retryAfter jitter) := by
  have hset : ∀ e', Touch s d.row e' ((s.finish d.loop).setEntry d.row e') := fun e' =>
    (Touch.setEntry s d.row e').mono rfl rfl (fun _ hv => hv)
  unfold settleDispatch
  dsimp only
  split
  · exact onTerminalFailure_touch (hset _)
  · exact hset _

theorem settleDispatch_dispatches {cfg : Settings} {s : State} {d : Dispatch} {e : Entry}
    {error : String} {permanent : Bool} {retryAfter : Option Nat} {jitter : Nat} :
    (settleDispatch cfg s d e error permanent retryAfter jitter).dispatches =
      (s.finish d.loop).dispatches := by
  unfold settleDispatch
  dsimp only
  split
  · rw [onTerminalFailure_dispatches]
    rfl
  · rfl

theorem settleDispatch_records {cfg : Settings} {s : State} {d : Dispatch} {e : Entry}
    {error : String} {permanent : Bool} {retryAfter : Option Nat} {jitter : Nat} :
    Records s d e { e with row := failRow cfg s.now jitter error permanent retryAfter e.row }
      (settleDispatch cfg s d e error permanent retryAfter jitter) := by
  intro hfailed
  dsimp only at hfailed
  rw [failRow_status] at hfailed
  split at hfailed
  · next hterminal =>
      refine .inr ⟨error, ?_⟩
      unfold settleDispatch
      rw [if_pos hterminal]
      exact onTerminalFailure_records rfl rfl List.length_set
  · exact .inl hfailed

theorem dispatchStep_moves {cfg : Settings} {s s' : State} {d : Dispatch} {e : Entry} {a : Act}
    (he : s.rows[d.row]? = some e) (h : dispatchStep cfg s d e a = some s') :
    ∃ d' e', Moves cfg s.now d e a d' e' ∧ Touch s d.row e' s' ∧ Replaces s d d' s' ∧
      Records s d e e' s' := by
  cases a with
  | start ℓ =>
      simp only [dispatchStep] at h
      split at h
      · next hstage =>
          cases h
          unfold startDispatch
          split
          · next howner =>
              exact ⟨none, e, .abandoned ℓ hstage howner, .refl he rfl rfl rfl, rfl,
                records_of_row_eq rfl⟩
          · next howner =>
              refine ⟨_, _, .started ℓ hstage (not_not.mp howner), ?_, replaces_progress rfl,
                records_of_row_eq rfl⟩
              exact (Touch.setEntry s d.row _).mono rfl rfl (fun _ hv => hv)
      · cases h
  | commit ℓ =>
      simp only [dispatchStep] at h
      split at h
      · next loaded locked hstage =>
          split at h
          · cases h
            exact ⟨_, e, .committed ℓ loaded locked hstage, .refl he rfl rfl rfl,
              replaces_progress rfl, records_of_row_eq rfl⟩
          · cases h
      · cases h
  | succeed ℓ skipped =>
      simp only [dispatchStep] at h
      split at h
      · next loaded locked hstage =>
          cases h
          refine ⟨none, _, .sent ℓ skipped loaded locked hstage, ?_, rfl, ?_⟩
          · exact (Touch.setEntry s d.row _).mono rfl rfl (fun _ hv => hv)
          · intro hfailed
            rcases pick_eq_or loaded.status .sent e.row.status with h | h
            · exact .inl (h.symm.trans hfailed)
            · cases h.1.symm.trans hfailed
      · cases h
  | fail ℓ error permanent retryAfter =>
      simp only [dispatchStep] at h
      split at h
      · next loaded locked hstage =>
          cases h
          exact ⟨_, e, .failed ℓ error permanent retryAfter loaded locked hstage,
            .refl he rfl rfl rfl, replaces_progress rfl, records_of_row_eq rfl⟩
      · cases h
  | settle ℓ jitter =>
      simp only [dispatchStep] at h
      split at h
      · next error permanent retryAfter hstage =>
          cases h
          exact ⟨none, _, .settled ℓ jitter error permanent retryAfter hstage,
            settleDispatch_touch, settleDispatch_dispatches, settleDispatch_records⟩
      · cases h
  | die ℓ =>
      cases h
      exact ⟨none, e, .died ℓ, .refl he rfl rfl rfl, rfl, records_of_row_eq rfl⟩
  | create _ _ | claim _ | requeue _ | other _ _ | tick _ => cases h

/-! ## A step of the outbox -/

/-- The rows stay as they are, but for new rows at the end. -/
structure Grows (s s' : State) : Prop where
  keeps : ∀ (j : Nat) (x : Entry), s.rows[j]? = some x → s'.rows[j]? = some x
  news : ∀ (j : Nat) (x : Entry), s'.rows[j]? = some x →
    s.rows[j]? = some x ∨ (s.rows.length ≤ j ∧ Fresh s'.requests.length x)
  requests : s.requests.length ≤ s'.requests.length
  events : ∀ v ∈ s.events, v ∈ s'.events
  dispatches : s'.dispatches = s.dispatches

theorem grows_of_rows_eq {s s' : State} (hrows : s'.rows = s.rows)
    (hrequests : s.requests.length ≤ s'.requests.length) (hevents : s'.events = s.events)
    (hdispatches : s'.dispatches = s.dispatches) : Grows s s' where
  keeps := fun _ _ hx => hrows ▸ hx
  news := fun _ _ hx => .inl (hrows ▸ hx)
  requests := hrequests
  events := fun _ hv => hevents ▸ hv
  dispatches := hdispatches

theorem grows_enqueue {s : State} {kind : Kind} {request : Option Nat}
    (hmay : mayCreate s request = true) : Grows s (s.enqueue kind request) where
  keeps := by
    intro j x hx
    obtain ⟨hlt, -⟩ := List.getElem?_eq_some_iff.mp hx
    exact (List.getElem?_append_left hlt).trans hx
  news := by
    intro j x hx
    by_cases hlt : j < s.rows.length
    · exact .inl ((List.getElem?_append_left hlt).symm.trans hx)
    · refine .inr ⟨Nat.le_of_not_lt hlt, ?_⟩
      simp only [State.enqueue] at hx
      rw [List.getElem?_append_right (Nat.le_of_not_lt hlt)] at hx
      rw [List.mem_singleton.mp (List.mem_of_getElem? hx)]
      exact ⟨rfl, rfl, rfl, rfl, rfl, fun _ hid => mayCreate_lt hmay hid⟩
  requests := Nat.le_refl _
  events := fun _ hv => hv
  dispatches := rfl

/-- Everything a step can do to the table and to the dispatches in progress. -/
inductive Effect (cfg : Settings) (s : State) : Act → State → Prop
  | dispatch {a : Act} {s' : State} {d : Dispatch} {d' : Option Dispatch} {e e' : Entry}
      (hd : d ∈ s.dispatches) (ha : a.loop = some d.loop) (he : s.rows[d.row]? = some e)
      (hmoves : Moves cfg s.now d e a d' e') (htouch : Touch s d.row e' s')
      (hreplaces : Replaces s d d' s') (hrecords : Records s d e e' s') : Effect cfg s a s'
  | claim {ℓ : Loop} {s' : State} {k : Nat} {e : Entry} (hfree : s.dispatchOf ℓ = none)
      (hdue : nextDue s = some k) (he : s.rows[k]? = some e) (hpending : e.row.status = .pending)
      (htouch : Touch s k
        { e with row := claimRow cfg s.now ℓ.worker e.row, claims := e.claims + 1 } s')
      (hadds : s'.dispatches = ⟨ℓ, k, e.claims + 1, .claimed⟩ :: s.dispatches) :
      Effect cfg s (.claim ℓ) s'
  | requeue {k : Nat} {s' : State} {e : Entry} (he : s.rows[k]? = some e)
      (hfailed : e.row.status = .failed)
      (htouch : Touch s k
        { e with row := requeueRow s.now e.row, starts := 0, requeues := e.requeues + 1 } s')
      (hmem : s'.dispatches = s.dispatches) : Effect cfg s (.requeue k) s'
  | grows {a : Act} {s' : State} (ha : a.loop = none) (hgrows : Grows s s') : Effect cfg s a s'

theorem step_effect {cfg : Settings} {s s' : State} {a : Act} (h : step cfg s a = some s') :
    Effect cfg s a s' := by
  have hloop : ∀ ℓ, a.loop = some ℓ → loopStep cfg s ℓ a = some s' → Effect cfg s a s' := by
    intro ℓ ha hs
    obtain ⟨d, e, hd, rfl, he, hs⟩ := loopStep_cases hs
    obtain ⟨d', e', hmoves, htouch, hreplaces, hrecords⟩ := dispatchStep_moves he hs
    exact .dispatch hd ha he hmoves htouch hreplaces hrecords
  cases a with
  | create kind request =>
      simp only [step] at h
      split at h
      · next hmay =>
          cases h
          exact .grows rfl (grows_enqueue hmay)
      · cases h
  | claim ℓ =>
      obtain ⟨k, e, hfree, hdue, he, hpending, rfl⟩ := claimStep_cases h
      refine .claim hfree hdue he hpending
        ((Touch.setEntry s k _).mono rfl rfl (fun _ hv => hv)) ?_
      have hall : s.dispatches.filter (fun x => decide (x.loop ≠ ℓ)) = s.dispatches :=
        List.filter_eq_self.mpr (fun x hx => decide_eq_true (ne_of_dispatchOf hfree hx))
      exact congrArg (List.cons _) hall
  | requeue k =>
      obtain ⟨e, he, ⟨-, rfl⟩ | ⟨hfailed, rfl⟩⟩ := requeueStep_cases h
      · exact .grows rfl (grows_of_rows_eq rfl (Nat.le_refl _) rfl rfl)
      · exact .requeue he hfailed (requeueApproval_touch (Touch.setEntry s k _)) (by
          rw [requeueApproval_dispatches]
          rfl)
  | other requests cases =>
      simp only [step] at h
      split at h
      · next hlen =>
          cases h
          exact .grows rfl (grows_of_rows_eq rfl hlen rfl rfl)
      · cases h
  | tick seconds =>
      cases h
      exact .grows rfl (grows_of_rows_eq rfl (Nat.le_refl _) rfl rfl)
  | start ℓ => exact hloop ℓ rfl h
  | commit ℓ => exact hloop ℓ rfl h
  | succeed ℓ skipped => exact hloop ℓ rfl h
  | fail ℓ error permanent retryAfter => exact hloop ℓ rfl h
  | settle ℓ jitter => exact hloop ℓ rfl h
  | die ℓ => exact hloop ℓ rfl h

/-- The handler runs on a row that was `PENDING` and claimed by the dispatching process. -/
def Dispatch.Loaded (d : Dispatch) : Prop :=
  ∀ loaded locked, d.stage = .handling loaded locked →
    loaded.status = .pending ∧ loaded.claimedBy = some d.loop.worker

section Moving

variable {cfg : Settings} {now : Nat} {d x : Dispatch} {d' : Option Dispatch} {e e' : Entry} {a : Act}

/-- A dispatch keeps its loop, its row and its claim. -/
theorem Moves.identity (h : Moves cfg now d e a d' e') (hx : d' = some x) :
    x.loop = d.loop ∧ x.row = d.row ∧ x.claim = d.claim := by
  cases h <;> cases hx <;> exact ⟨rfl, rfl, rfl⟩

/-- What a dispatch never writes. -/
theorem Moves.entry (h : Moves cfg now d e a d' e') :
    e'.claims = e.claims ∧ e'.requeues = e.requeues ∧ e'.row.kind = e.row.kind ∧
      e'.row.approvalRequestId = e.row.approvalRequestId ∧
      e'.row.attemptsCount = e.row.attemptsCount := by
  cases h with
  | sent => exact ⟨rfl, rfl, rfl, rfl, by simp [Row.merge, sentRow, pick]⟩
  | settled => exact ⟨rfl, rfl, failRow_kind .., failRow_approvalRequestId .., by simp⟩
  | _ => exact ⟨rfl, rfl, rfl, rfl, rfl⟩

theorem Moves.loaded (h : Moves cfg now d e a d' e') (hd : d.Loaded)
    (hreleased : e.row.status ≠ .pending → e.row.claimedBy = none) (hx : d' = some x) :
    x.Loaded := by
  intro loaded locked hstage
  cases h with
  | started ℓ _ howner =>
      cases hx
      cases hstage
      refine ⟨?_, howner⟩
      by_contra hne
      rw [hreleased hne] at howner
      cases howner
  | committed ℓ row held hrow =>
      cases hx
      cases hstage
      exact hd _ _ hrow
  | failed =>
      cases hx
      cases hstage
  | _ => cases hx

theorem Moves.released (h : Moves cfg now d e a d' e') (hd : d.Loaded)
    (hreleased : e.row.status ≠ .pending → e.row.claimedBy = none) :
    e'.row.status ≠ .pending → e'.row.claimedBy = none := by
  cases h with
  | sent ℓ skipped loaded locked hstage =>
      obtain ⟨hstatus, howner⟩ := hd _ _ hstage
      exact fun _ => (merge_sentRow _ _ hstatus howner).2.1
  | settled => exact fun _ => failRow_claimedBy ..
  | _ => exact hreleased

end Moving

/-! ## What holds in every run -/

structure WellFormed (s : State) : Prop where
  refs : ∀ d ∈ s.dispatches, ∃ e, s.rows[d.row]? = some e ∧ d.claim ≤ e.claims
  loaded : ∀ d ∈ s.dispatches, d.Loaded
  loops : ∀ d ∈ s.dispatches, ∀ x ∈ s.dispatches, d.loop = x.loop → d = x
  claims : ∀ d ∈ s.dispatches, ∀ x ∈ s.dispatches, d.row = x.row → d.claim = x.claim → d = x
  released : ∀ (k : Nat) (e : Entry), s.rows[k]? = some e → e.row.status ≠ .pending →
    e.row.claimedBy = none
  keys : ∀ (k : Nat) (e : Entry) (id : Nat), s.rows[k]? = some e →
    e.row.approvalRequestId = some id → id < s.requests.length

theorem wellFormed_init : WellFormed {} where
  refs := by simp
  loaded := by simp
  loops := by simp
  claims := by simp
  released := by simp
  keys := by simp

theorem dispatchOf_of_mem {s : State} {d : Dispatch} (hwf : WellFormed s)
    (hd : d ∈ s.dispatches) : s.dispatchOf d.loop = some d := by
  cases hfound : s.dispatchOf d.loop with
  | none => exact absurd rfl (ne_of_dispatchOf hfound hd)
  | some x =>
      obtain ⟨hx, hloop⟩ := mem_of_dispatchOf hfound
      rw [hwf.loops x hx d hd hloop]

/-- A dispatch other than the one that moved. -/
theorem Replaces.cases {s s' : State} {d x : Dispatch} {d' : Option Dispatch}
    (h : Replaces s d d' s') (hx : x ∈ s'.dispatches) :
    d' = some x ∨ (x ∈ s.dispatches ∧ x ≠ d) := by
  rcases h.mem.mp hx with hx | ⟨hx, hne⟩
  · exact .inl hx
  · exact .inr ⟨hx, fun heq => hne (heq ▸ rfl)⟩

/-- The dispatches of a step of a dispatch come from those before it, one by one. -/
theorem origin_of_replaces {cfg : Settings} {now : Nat} {s s' : State} {d x : Dispatch}
    {d' : Option Dispatch} {e e' : Entry} {a : Act} (hd : d ∈ s.dispatches)
    (hmoves : Moves cfg now d e a d' e') (hreplaces : Replaces s d d' s')
    (hx : x ∈ s'.dispatches) :
    ∃ y ∈ s.dispatches, x.loop = y.loop ∧ x.row = y.row ∧ x.claim = y.claim ∧
      (y = d → d' = some x) ∧ (y ≠ d → x = y) := by
  rcases hreplaces.cases hx with hx | ⟨hx, hne⟩
  · obtain ⟨hloop, hrow, hclaim⟩ := hmoves.identity hx
    exact ⟨d, hd, hloop, hrow, hclaim, fun _ => hx, fun h => absurd rfl h⟩
  · exact ⟨x, hx, rfl, rfl, rfl, fun h => absurd h hne, fun _ => rfl⟩

theorem wellFormed_dispatch {cfg : Settings} {s s' : State} {d : Dispatch} {d' : Option Dispatch}
    {e e' : Entry} {a : Act} (hwf : WellFormed s) (hd : d ∈ s.dispatches)
    (he : s.rows[d.row]? = some e) (hmoves : Moves cfg s.now d e a d' e')
    (htouch : Touch s d.row e' s') (hreplaces : Replaces s d d' s') : WellFormed s' where
  refs := by
    intro x hx
    obtain ⟨y, hy, -, hrow, hclaim, -, -⟩ := origin_of_replaces hd hmoves hreplaces hx
    obtain ⟨f, hf, hle⟩ := hwf.refs y hy
    rw [hrow, hclaim]
    by_cases hk : y.row = d.row
    · rw [hk] at hf ⊢
      rw [he] at hf
      cases hf
      exact ⟨e', htouch.self he, hmoves.entry.1 ▸ hle⟩
    · exact ⟨f, htouch.other hf hk, hle⟩
  loaded := by
    intro x hx
    rcases hreplaces.cases hx with hx | ⟨hx, -⟩
    · exact hmoves.loaded (hwf.loaded d hd) (hwf.released _ _ he) hx
    · exact hwf.loaded x hx
  loops := by
    intro x hx x' hx' hloop
    obtain ⟨y, hy, hyl, -, -, hy₁, hy₂⟩ := origin_of_replaces hd hmoves hreplaces hx
    obtain ⟨y', hy', hyl', -, -, hy₁', hy₂'⟩ := origin_of_replaces hd hmoves hreplaces hx'
    have heq : y = y' := hwf.loops y hy y' hy' (by rw [← hyl, ← hyl', hloop])
    subst heq
    by_cases hyd : y = d
    · exact Option.some.inj ((hy₁ hyd).symm.trans (hy₁' hyd))
    · rw [hy₂ hyd, hy₂' hyd]
  claims := by
    intro x hx x' hx' hrow hclaim
    obtain ⟨y, hy, -, hyr, hyc, hy₁, hy₂⟩ := origin_of_replaces hd hmoves hreplaces hx
    obtain ⟨y', hy', -, hyr', hyc', hy₁', hy₂'⟩ := origin_of_replaces hd hmoves hreplaces hx'
    have heq : y = y' :=
      hwf.claims y hy y' hy' (by rw [← hyr, ← hyr', hrow]) (by rw [← hyc, ← hyc', hclaim])
    subst heq
    by_cases hyd : y = d
    · exact Option.some.inj ((hy₁ hyd).symm.trans (hy₁' hyd))
    · rw [hy₂ hyd, hy₂' hyd]
  released := by
    intro k f hf
    rcases htouch.cases hf with ⟨-, rfl⟩ | ⟨-, hf⟩ | ⟨-, hfresh⟩
    · exact hmoves.released (hwf.loaded d hd) (hwf.released _ _ he)
    · exact hwf.released k f hf
    · exact fun _ => hfresh.claimedBy
  keys := by
    intro k f id hf hid
    rcases htouch.cases hf with ⟨-, rfl⟩ | ⟨-, hf⟩ | ⟨-, hfresh⟩
    · rw [hmoves.entry.2.2.2.1] at hid
      exact Nat.lt_of_lt_of_le (hwf.keys _ e id he hid) htouch.requests
    · exact Nat.lt_of_lt_of_le (hwf.keys k f id hf hid) htouch.requests
    · exact hfresh.keys id hid

theorem wellFormed_claim {cfg : Settings} {s s' : State} {ℓ : Loop} {k : Nat} {e : Entry}
    (hwf : WellFormed s) (hfree : s.dispatchOf ℓ = none) (he : s.rows[k]? = some e)
    (hpending : e.row.status = .pending)
    (htouch : Touch s k
      { e with row := claimRow cfg s.now ℓ.worker e.row, claims := e.claims + 1 } s')
    (hadds : s'.dispatches = ⟨ℓ, k, e.claims + 1, .claimed⟩ :: s.dispatches) :
    WellFormed s' where
  refs := by
    intro x hx
    rw [hadds] at hx
    rcases List.mem_cons.mp hx with rfl | hx
    · exact ⟨_, htouch.self he, Nat.le_refl _⟩
    · obtain ⟨f, hf, hle⟩ := hwf.refs x hx
      by_cases hk : x.row = k
      · rw [hk] at hf ⊢
        rw [he] at hf
        cases hf
        exact ⟨_, htouch.self he, Nat.le_succ_of_le hle⟩
      · exact ⟨f, htouch.other hf hk, hle⟩
  loaded := by
    intro x hx
    rw [hadds] at hx
    rcases List.mem_cons.mp hx with rfl | hx
    · intro _ _ hstage
      cases hstage
    · exact hwf.loaded x hx
  loops := by
    intro x hx y hy hloop
    rw [hadds] at hx hy
    rcases List.mem_cons.mp hx with rfl | hx <;> rcases List.mem_cons.mp hy with rfl | hy
    · rfl
    · exact absurd hloop.symm (ne_of_dispatchOf hfree hy)
    · exact absurd hloop (ne_of_dispatchOf hfree hx)
    · exact hwf.loops x hx y hy hloop
  claims := by
    -- the number of a new claim exceeds those of all earlier claims of the row
    have hnew : ∀ x ∈ s.dispatches, x.row = k → x.claim ≠ e.claims + 1 := by
      intro x hx hk hclaim
      obtain ⟨f, hf, hle⟩ := hwf.refs x hx
      rw [hk, he] at hf
      cases hf
      omega
    intro x hx y hy hrow hclaim
    rw [hadds] at hx hy
    rcases List.mem_cons.mp hx with rfl | hx <;> rcases List.mem_cons.mp hy with rfl | hy
    · rfl
    · exact absurd hclaim.symm (hnew y hy hrow.symm)
    · exact absurd hclaim (hnew x hx hrow)
    · exact hwf.claims x hx y hy hrow hclaim
  released := by
    intro j f hf
    rcases htouch.cases hf with ⟨-, rfl⟩ | ⟨-, hf⟩ | ⟨-, hfresh⟩
    · exact fun hne => absurd hpending hne
    · exact hwf.released j f hf
    · exact fun _ => hfresh.claimedBy
  keys := by
    intro j f id hf hid
    rcases htouch.cases hf with ⟨-, rfl⟩ | ⟨-, hf⟩ | ⟨-, hfresh⟩
    · exact Nat.lt_of_lt_of_le (hwf.keys _ e id he hid) htouch.requests
    · exact Nat.lt_of_lt_of_le (hwf.keys j f id hf hid) htouch.requests
    · exact hfresh.keys id hid

theorem wellFormed_requeue {s s' : State} {k : Nat} {e : Entry} (hwf : WellFormed s)
    (he : s.rows[k]? = some e)
    (htouch : Touch s k
      { e with row := requeueRow s.now e.row, starts := 0, requeues := e.requeues + 1 } s')
    (hmem : s'.dispatches = s.dispatches) : WellFormed s' where
  refs := by
    intro x hx
    rw [hmem] at hx
    obtain ⟨f, hf, hle⟩ := hwf.refs x hx
    by_cases hk : x.row = k
    · rw [hk] at hf ⊢
      rw [he] at hf
      cases hf
      exact ⟨_, htouch.self he, hle⟩
    · exact ⟨f, htouch.other hf hk, hle⟩
  loaded := by
    rw [hmem]
    exact hwf.loaded
  loops := by
    rw [hmem]
    exact hwf.loops
  claims := by
    rw [hmem]
    exact hwf.claims
  released := by
    intro j f hf
    rcases htouch.cases hf with ⟨-, rfl⟩ | ⟨-, hf⟩ | ⟨-, hfresh⟩
    · exact fun _ => rfl
    · exact hwf.released j f hf
    · exact fun _ => hfresh.claimedBy
  keys := by
    intro j f id hf hid
    rcases htouch.cases hf with ⟨-, rfl⟩ | ⟨-, hf⟩ | ⟨-, hfresh⟩
    · exact Nat.lt_of_lt_of_le (hwf.keys _ e id he hid) htouch.requests
    · exact Nat.lt_of_lt_of_le (hwf.keys j f id hf hid) htouch.requests
    · exact hfresh.keys id hid

theorem wellFormed_grows {s s' : State} (hwf : WellFormed s) (hgrows : Grows s s') :
    WellFormed s' where
  refs := by
    intro x hx
    rw [hgrows.dispatches] at hx
    obtain ⟨f, hf, hle⟩ := hwf.refs x hx
    exact ⟨f, hgrows.keeps _ _ hf, hle⟩
  loaded := by
    rw [hgrows.dispatches]
    exact hwf.loaded
  loops := by
    rw [hgrows.dispatches]
    exact hwf.loops
  claims := by
    rw [hgrows.dispatches]
    exact hwf.claims
  released := by
    intro j f hf
    rcases hgrows.news j f hf with hf | ⟨-, hfresh⟩
    · exact hwf.released j f hf
    · exact fun _ => hfresh.claimedBy
  keys := by
    intro j f id hf hid
    rcases hgrows.news j f hf with hf | ⟨-, hfresh⟩
    · exact Nat.lt_of_lt_of_le (hwf.keys j f id hf hid) hgrows.requests
    · exact hfresh.keys id hid

/-- **Every step keeps the outbox well formed.** -/
theorem wellFormed_step {cfg : Settings} {s s' : State} {a : Act} (hwf : WellFormed s)
    (h : step cfg s a = some s') : WellFormed s' := by
  cases step_effect h with
  | dispatch hd _ he hmoves htouch hreplaces _ =>
      exact wellFormed_dispatch hwf hd he hmoves htouch hreplaces
  | claim hfree _ he hpending htouch hadds =>
      exact wellFormed_claim hwf hfree he hpending htouch hadds
  | requeue he _ htouch hmem => exact wellFormed_requeue hwf he htouch hmem
  | grows _ hgrows => exact wellFormed_grows hwf hgrows

end Remediator.Outbox
