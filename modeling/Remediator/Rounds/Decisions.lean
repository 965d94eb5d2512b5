import Remediator.Rounds.Deeds
import Remediator.Rounds.Ledger

set_option autoImplicit false

/-! # Decisions are made once

The rounds, the outbox and the case, seen as a ledger: every operation of every job is a step
of the ledger, or none at all. The ledger is sound from the start, so it is sound in every
interleaving, and a decision that was made is never made again.
-/

namespace Remediator

open Interleave

/-! ## The ledger of a store -/

/-- The rounds that the rows of the kind are for. -/
def rowsOf (kind : OutboxKind) (outbox : List OutboxRow) : List Nat :=
  outbox.filterMap (fun row => if row.kind = kind then row.approvalRequestId else none)

def Store.ledger (s : Store) : Ledger where
  decisions := s.approvals.map (·.decision)
  attempts := s.approvals.map (·.attemptId)
  labels := rowsOf .githubApplyLabel s.outbox
  comments := rowsOf .githubRejectionComment s.outbox
  rejected := decide (s.case.state = .remediationRejected)

theorem decision_get {s : Store} {id : Nat} {r : ApprovalRequest} (h : s.approvals[id]? = some r) :
    s.ledger.decisions[id]? = some r.decision := by
  unfold Store.ledger
  rw [List.getElem?_map, h]
  rfl

theorem rowsOf_append (kind : OutboxKind) (rows rows' : List OutboxRow) :
    rowsOf kind (rows ++ rows') = rowsOf kind rows ++ rowsOf kind rows' :=
  List.filterMap_append

theorem rowsOf_eq_nil {kind : OutboxKind} {rows : List OutboxRow}
    (h : ∀ row ∈ rows, row.kind ≠ kind) : rowsOf kind rows = [] := by
  refine List.filterMap_eq_nil_iff.mpr (fun row hrow => ?_)
  rw [if_neg (h row hrow)]

/-- A flush keeps the kind and the round of a row. -/
theorem rowsOf_flush (kind : OutboxKind) (ws : List (Write OutboxRow)) (rows : List OutboxRow) :
    rowsOf kind (flush OutboxRow.merge ws rows) = rowsOf kind rows := by
  have hkey : ∀ rows : List OutboxRow, rowsOf kind rows =
      (rows.map (fun row => (row.kind, row.approvalRequestId))).filterMap
        (fun key => if key.1 = kind then key.2 else none) :=
    fun rows => by
      rw [List.filterMap_map]
      rfl
  rw [hkey, hkey, flush_map _ (fun _ _ _ => rfl)]

theorem count_rowsOf (kind : OutboxKind) (id : Nat) (rows : List OutboxRow) :
    (rowsOf kind rows).count id =
      rows.countP (fun row => decide (row.kind = kind) && decide (row.approvalRequestId = some id)) := by
  unfold rowsOf List.count
  rw [List.countP_filterMap]
  refine List.countP_congr (fun row _ => ?_)
  by_cases hk : row.kind = kind
  · cases hr : row.approvalRequestId with
    | none => simp [hk]
    | some i => simp [hk]
  · simp [hk]

/-! ## The case -/

theorem movesEnd_ne {ms : List Move} {st dst : CaseState} (hst : st ≠ dst)
    (h : ∀ m ∈ ms, m.dst ≠ dst) : movesEnd ms st ≠ dst := by
  induction ms generalizing st with
  | nil => exact hst
  | cons m ms ih =>
      exact ih (h m List.mem_cons_self) (fun m' hm' => h m' (List.mem_cons_of_mem _ hm'))

/-- A rejected case is not moved, and nothing but a rejection rejects it. -/
theorem rejected_iff {ms : List Move} {c : Case} (hok : movesOk ms c = true)
    (h : ∀ m ∈ ms, m.dst ≠ .remediationRejected) :
    movesEnd ms c.state = .remediationRejected ↔ c.state = .remediationRejected := by
  by_cases hst : c.state = .remediationRejected
  · cases ms with
    | nil => rfl
    | cons m ms =>
        simp only [movesOk, Move.ok, Bool.and_eq_true, decide_eq_true_eq] at hok
        obtain ⟨⟨⟨hsrc, hdst⟩, -⟩, -⟩ := hok
        rw [← hsrc, hst] at hdst
        simp [CaseState.allowed, CaseState.transitions,
          CaseState.probeNotConfiguredTransitions] at hdst
  · exact ⟨fun hend => absurd hend (movesEnd_ne hst h), fun hrej => absurd hrej hst⟩

/-! ## Transactions -/

section Commit

variable {o : Owner} {t : Txn} {s : Store}

/-- The ledger after a transaction, part by part. -/
theorem ledger_commit (ds : List ApprovalDecision) (ls cs : List Nat) (rejected : Bool)
    (hdecisions : (flush ApprovalRequest.merge t.approvalWrites s.approvals).map (·.decision) = ds)
    (hlabels : rowsOf .githubApplyLabel t.newOutbox = ls)
    (hcomments : rowsOf .githubRejectionComment t.newOutbox = cs)
    (hstate : decide (movesEnd t.moves s.case.state = .remediationRejected) = rejected) :
    ((Op.commit o t).apply s).ledger =
      { decisions := ds ++ t.newApprovals.map (·.decision)
        attempts := s.ledger.attempts ++ t.newApprovals.map (·.attemptId)
        labels := s.ledger.labels ++ ls
        comments := s.ledger.comments ++ cs
        rejected := rejected } := by
  have hattempts : (flush ApprovalRequest.merge t.approvalWrites s.approvals).map (·.attemptId) =
      s.ledger.attempts := flush_map _ (fun _ _ _ => rfl) _
  have hrows : ∀ kind, rowsOf kind (t.applyOutbox s.outbox) =
      rowsOf kind s.outbox ++ rowsOf kind t.newOutbox := by
    intro kind
    unfold Txn.applyOutbox
    rw [rowsOf_append, rowsOf_flush]
  unfold Store.ledger at hattempts ⊢
  rw [← hdecisions, ← hlabels, ← hcomments, ← hstate, ← hattempts, commit_approvals,
    List.map_append, List.map_append]
  congr 1
  · exact hrows .githubApplyLabel
  · exact hrows .githubRejectionComment

/-- The writes keep the decisions. -/
theorem decisions_kept {ws : List (Write ApprovalRequest)}
    (h : ∀ w ∈ ws, w.changed.decision = w.loaded.decision) (rs : List ApprovalRequest) :
    (flush ApprovalRequest.merge ws rs).map (·.decision) = rs.map (·.decision) := by
  refine flush_map _ (fun w hw x => ?_) rs
  show pick w.loaded.decision w.changed.decision x.decision = x.decision
  rw [h w hw, pick_self]

/-- One round is written as it was read. -/
theorem decisions_set {id : Nat} {r r' : ApprovalRequest} {rs : List ApprovalRequest}
    (h : rs[id]? = some r) :
    (flush ApprovalRequest.merge [⟨id, r, r'⟩] rs).map (·.decision) =
      (rs.map (·.decision)).set id r'.decision := by
  rw [flush_single _ h, List.map_set]
  congr 1
  exact pick_row r.decision r'.decision

/-- Rows that only deliver text. -/
theorem rowsOf_notification {kind : OutboxKind} {rows : List OutboxRow}
    (hkind : kind ≠ .notification) (h : ∀ row ∈ rows, row.kind = .notification) :
    rowsOf kind rows = [] :=
  rowsOf_eq_nil (fun row hrow heq => hkind (heq.symm.trans (h row hrow)))

theorem Txn.Keeps.rejected (h : t.Keeps) (hok : movesOk t.moves s.case = true) :
    decide (movesEnd t.moves s.case.state = .remediationRejected) = s.ledger.rejected :=
  decide_eq_decide.mpr (rejected_iff hok h.moves)

/-- A transaction that writes rounds keeps the ledger, if it keeps their decisions. -/
theorem ledger_kept (hnew : t.newApprovals = [])
    (hrows : ∀ row ∈ t.newOutbox, row.kind = .notification)
    (hwrites : ∀ w ∈ t.approvalWrites, w.changed.decision = w.loaded.decision)
    (hstate : decide (movesEnd t.moves s.case.state = .remediationRejected) = s.ledger.rejected) :
    ((Op.commit o t).apply s).ledger = s.ledger := by
  rw [ledger_commit _ _ _ _ (decisions_kept hwrites _)
    (rowsOf_notification OutboxKind.noConfusion hrows)
    (rowsOf_notification OutboxKind.noConfusion hrows) hstate, hnew]
  simp [Store.ledger]

/-! ## A new round -/

theorem mem_pendingRounds {rs : List ApprovalRequest} {i : Nat} {r : ApprovalRequest} :
    (i, r) ∈ pendingRounds rs ↔ rs[i]? = some r ∧ r.decision = .pending := by
  unfold pendingRounds
  rw [List.mem_filterMap]
  constructor
  · rintro ⟨j, -, hj⟩
    split at hj
    · next r' hr' =>
        split at hj
        · next hp =>
            cases hj
            exact ⟨hr', hp⟩
        · cases hj
    · cases hj
  · rintro ⟨hr, hp⟩
    refine ⟨i, List.mem_range.mpr (List.getElem?_eq_some_iff.mp hr).1, ?_⟩
    simp [hr, hp]

/-- One round of `pendingRounds`. -/
def pendingAt (rs : List ApprovalRequest) (i : Nat) : Option (Nat × ApprovalRequest) :=
  match rs[i]? with
  | some r => if r.decision = .pending then some (i, r) else none
  | none => none

theorem pendingAt_id {rs : List ApprovalRequest} {i k : Nat}
    (h : k ∈ (pendingAt rs i).map (·.1)) : i = k := by
  unfold pendingAt at h
  split at h
  · split at h
    · exact Option.some.inj h
    · cases h
  · cases h

theorem pendingRounds_nodup (rs : List ApprovalRequest) :
    ((pendingRounds rs).map (·.1)).Nodup := by
  unfold pendingRounds
  rw [List.map_filterMap]
  refine List.nodup_range.filterMap (fun i j k hi hj => ?_)
  rw [pendingAt_id hi, pendingAt_id hj]

/-- What `create_approval_request` makes of the undecided rounds. -/
def supersededWrites (rs : List ApprovalRequest) : List (Write ApprovalRequest) :=
  (pendingRounds rs).map (fun x =>
    ⟨x.1, x.2, { x.2 with decision := .superseded, actionTokenHash := none }⟩)

theorem superseded_get (rs : List ApprovalRequest) (i : Nat) :
    (flush ApprovalRequest.merge (supersededWrites rs) rs)[i]? = rs[i]?.map (fun r =>
      if r.decision = .pending then { r with decision := .superseded, actionTokenHash := none }
      else r) := by
  have hids : ((supersededWrites rs).map (·.id)).Nodup := by
    unfold supersededWrites
    rw [List.map_map]
    exact pendingRounds_nodup rs
  rw [flush_get _ hids]
  cases hr : rs[i]? with
  | none => rfl
  | some r =>
      simp only [Option.map_some, Option.some.injEq]
      split
      · next w hw =>
          -- the object that is written is the row
          have hi : w.id = i := by simpa using List.find?_some hw
          obtain ⟨⟨j, r'⟩, hmem, rfl⟩ := List.mem_map.mp (List.mem_of_find?_eq_some hw)
          obtain ⟨hr', hp⟩ := mem_pendingRounds.mp hmem
          subst hi
          rw [hr] at hr'
          cases hr'
          rw [if_pos hp]
          simp [ApprovalRequest.merge]
      · next hnone =>
          refine (if_neg (fun hp => ?_)).symm
          have hmem := List.mem_map_of_mem (f := fun x : Nat × ApprovalRequest =>
            (⟨x.1, x.2, { x.2 with decision := .superseded, actionTokenHash := none }⟩ :
              Write ApprovalRequest)) (mem_pendingRounds.mpr ⟨hr, hp⟩)
          exact List.find?_eq_none.mp hnone _ hmem (decide_eq_true rfl)

theorem decisions_superseded (rs : List ApprovalRequest) :
    (flush ApprovalRequest.merge (supersededWrites rs) rs).map (·.decision) =
      (rs.map (·.decision)).map Ledger.supersede := by
  refine List.ext_getElem? (fun i => ?_)
  rw [List.getElem?_map, superseded_get, List.getElem?_map, List.getElem?_map]
  cases rs[i]? with
  | none => rfl
  | some r =>
      simp only [Option.map_some, Option.some.injEq, Ledger.supersede]
      split
      · rfl
      · rfl

theorem statusUpdate_notification (id : Nat) (r : ApprovalRequest) :
    ∀ row ∈ statusUpdate id r, row.kind = .notification := by
  intro row hrow
  simpa using List.all_eq_true.mp (statusUpdate_calm id r) row hrow

theorem step_opened {cfg : Settings} {attempt : Nat} {raw : Doc} (ht : t.Keeps)
    (hwrites : t.approvalWrites = []) (hok : movesOk t.moves s.case = true) :
    Ledger.Step s.ledger
      ((Op.commit o (createApprovalRequest cfg attempt raw t s)).apply s).ledger := by
  unfold createApprovalRequest
  split
  · -- the result was ingested before
    rw [ledger_kept ht.newApprovals ht.newOutbox (fun w hw => (ht.writes w hw).1) (ht.rejected hok)]
    exact .stay _
  · next hfresh =>
      have hnew : attempt ∉ s.ledger.attempts := by
        intro hmem
        obtain ⟨r, hr, hattempt⟩ := List.mem_map.mp hmem
        exact hfresh (List.any_eq_true.mpr ⟨r, hr, decide_eq_true hattempt⟩)
      have hrows : ∀ kind, kind ≠ .notification → kind ≠ .slackApprovalRequest →
          rowsOf kind (t.newOutbox ++
            ((pendingRounds s.approvals).map (fun x => statusUpdate x.1 x.2)).flatten ++
            [{ kind := .slackApprovalRequest, approvalRequestId := some s.approvals.length }]) =
          [] := by
        intro kind hkind hslack
        rw [rowsOf_append, rowsOf_append, rowsOf_notification hkind ht.newOutbox,
          rowsOf_notification hkind, rowsOf_eq_nil]
        · rfl
        · intro row hrow heq
          rw [List.mem_singleton.mp hrow] at heq
          exact hslack heq.symm
        · intro row hrow
          obtain ⟨rows, hrows, hrow⟩ := List.mem_flatten.mp hrow
          obtain ⟨x, -, rfl⟩ := List.mem_map.mp hrows
          exact statusUpdate_notification x.1 x.2 row hrow
      rw [ledger_commit ((s.approvals.map (·.decision)).map Ledger.supersede) [] [] s.ledger.rejected]
      · have hstep := Ledger.Step.open s.ledger hnew
        simpa [ht.newApprovals, Store.ledger] using hstep
      · dsimp only
        rw [hwrites]
        exact decisions_superseded s.approvals
      · exact hrows .githubApplyLabel OutboxKind.noConfusion OutboxKind.noConfusion
      · exact hrows .githubRejectionComment OutboxKind.noConfusion OutboxKind.noConfusion
      · exact ht.rejected hok

/-! ## A click -/

/-- The round that carries the token. -/
theorem requestByToken_get {cfg : Settings} {token : String} {rs : List ApprovalRequest} {id : Nat}
    {r : ApprovalRequest} (h : requestByToken cfg token rs = some (id, r)) : rs[id]? = some r := by
  have hmem := List.mem_of_find?_eq_some h
  obtain ⟨i, -, hi⟩ := List.mem_filterMap.mp hmem
  obtain ⟨r', hr', heq⟩ := Option.map_eq_some_iff.mp hi
  cases heq
  exact hr'

theorem ephemeralResponse_notification (action : SlackActionInput) (id : Nat)
    (outcome : ActionOutcome) :
    ∀ row ∈ ephemeralResponse action id outcome, row.kind = .notification := by
  intro row hrow
  have hsome : ∀ url : String, row ∈ (if url = "" then []
      else [({ kind := .notification, approvalRequestId := some id } : OutboxRow)]) →
      row.kind = .notification := by
    intro url hrow
    split at hrow
    · cases hrow
    · rw [List.mem_singleton.mp hrow]
  unfold ephemeralResponse at hrow
  cases hurl : action.responseUrl with
  | none =>
      rw [hurl] at hrow
      split at hrow <;> cases hrow
  | some url =>
      rw [hurl] at hrow
      split at hrow <;> first | exact hsome url hrow | cases hrow

/-- One decision: the round is set, and the rows of the effect are queued. -/
theorem ledger_decided {id : Nat} {r r' : ApprovalRequest} (d : ApprovalDecision)
    (ls cs : List Nat) (rejected : Bool) (hid : s.approvals[id]? = some r)
    (hwrites : t.approvalWrites = [⟨id, r, r'⟩]) (hd : r'.decision = d)
    (hnew : t.newApprovals = [])
    (hlabels : rowsOf .githubApplyLabel t.newOutbox = ls)
    (hcomments : rowsOf .githubRejectionComment t.newOutbox = cs)
    (hstate : decide (movesEnd t.moves s.case.state = .remediationRejected) = rejected) :
    ((Op.commit o t).apply s).ledger =
      { decisions := s.ledger.decisions.set id d
        attempts := s.ledger.attempts
        labels := s.ledger.labels ++ ls
        comments := s.ledger.comments ++ cs
        rejected := rejected } := by
  rw [ledger_commit _ ls cs rejected (hwrites ▸ decisions_set hid) hlabels hcomments hstate, hnew,
    hd]
  simp [Store.ledger]

theorem step_refused {cfg : Settings} {action : SlackActionInput} {id : Nat}
    {outcome : ActionOutcome} :
    Ledger.Step s.ledger ((Op.commit o (refusedClick cfg action id outcome)).apply s).ledger := by
  rw [ledger_kept rfl (ephemeralResponse_notification action id outcome) (List.forall_mem_nil _) rfl]
  exact .stay _

theorem step_decideRound {cfg : Settings} {action : SlackActionInput} {id : Nat}
    {r : ApprovalRequest} (hid : s.approvals[id]? = some r) :
    Ledger.Step s.ledger ((Op.commit o (decideRound cfg action id r s).1).apply s).ledger := by
  have hget := decision_get hid
  have hlabel : rowsOf .githubApplyLabel (statusUpdate id r) = [] :=
    rowsOf_notification OutboxKind.noConfusion (statusUpdate_notification id r)
  have hcomment : rowsOf .githubRejectionComment (statusUpdate id r) = [] :=
    rowsOf_notification OutboxKind.noConfusion (statusUpdate_notification id r)
  unfold decideRound
  split
  · next hexp =>
      have hrows : ∀ kind, kind ≠ .notification → rowsOf kind (statusUpdate id r ++
          (refusedClick cfg action id .expiredToken).newOutbox) = [] := by
        intro kind hkind
        rw [rowsOf_append, rowsOf_notification hkind (statusUpdate_notification id r)]
        exact rowsOf_notification hkind (ephemeralResponse_notification action id .expiredToken)
      have hstep := Ledger.Step.expire s.ledger (hget.trans (congrArg some hexp.1))
      rw [ledger_decided .expired [] [] s.ledger.rejected hid rfl rfl rfl
        (hrows _ OutboxKind.noConfusion) (hrows _ OutboxKind.noConfusion) rfl]
      simpa using hstep
  split
  · exact step_refused
  split
  · exact step_refused
  next hpending =>
  have hget := hget.trans (congrArg some (not_not.mp hpending))
  split
  · exact step_refused
  split
  · exact step_refused
  next hstate =>
  split
  · have hstep := Ledger.Step.approve s.ledger hget
    rw [ledger_decided .approved [id] [] s.ledger.rejected hid rfl rfl rfl ?_ ?_ rfl]
    · simpa using hstep
    · exact congrArg (id :: ·) hlabel
    · exact hcomment
  · have hstep := Ledger.Step.reject s.ledger hget
    rw [ledger_decided .rejected [] [id] true hid rfl rfl rfl hlabel ?_ rfl]
    · simpa using hstep
    · exact congrArg (id :: ·) hcomment

theorem step_clicked {cfg : Settings} {action : SlackActionInput} :
    Ledger.Step s.ledger ((Op.commit o (processSlackAction cfg action s).1).apply s).ledger := by
  have hidle : ((Op.commit o {}).apply s).ledger = s.ledger :=
    ledger_kept rfl (List.forall_mem_nil _) (List.forall_mem_nil _) rfl
  unfold processSlackAction
  dsimp only
  split
  · exact hidle ▸ .stay _
  split
  · exact hidle ▸ .stay _
  next id r hr =>
  split
  · exact hidle ▸ .stay _
  split
  · exact step_refused
  · exact step_decideRound (requestByToken_get hr)

theorem step_expired {cfg : Settings} {id : Nat} {r : ApprovalRequest}
    (hid : s.approvals[id]? = some r) (hpending : r.decision = .pending) :
    Ledger.Step s.ledger ((Op.commit o (expiry cfg s.now id r)).apply s).ledger := by
  have hget := (decision_get hid).trans (congrArg some hpending)
  have hrows : ∀ kind, kind ≠ .notification → rowsOf kind (statusUpdate id r) = [] :=
    fun kind hkind => rowsOf_notification hkind (statusUpdate_notification id r)
  have hstep := Ledger.Step.expire s.ledger hget
  rw [ledger_decided .expired [] [] s.ledger.rejected hid rfl rfl rfl
    (hrows _ OutboxKind.noConfusion) (hrows _ OutboxKind.noConfusion) rfl]
  simpa using hstep

end Commit

/-! ## Every operation is a step -/

theorem ledger_elsewhere {op : Op} (h : op.elsewhere = true) (s : Store) :
    (op.apply s).ledger = s.ledger := by
  cases op with
  | commit o t => cases h
  | heartbeat o n =>
      unfold Store.ledger
      rw [heartbeat_state]
      rfl
  | _ => rfl

/-- **Every operation of every job is a step of the ledger.** -/
theorem Deed.step {cfg : Settings} {s : Store} {op : Op} (h : Deed cfg s op) :
    Ledger.Step s.ledger (op.apply s).ledger := by
  cases h with
  | elsewhere hop =>
      rw [ledger_elsewhere hop]
      exact .stay _
  | kept ht hok =>
      rw [ledger_kept ht.newApprovals ht.newOutbox (fun w hw => (ht.writes w hw).1) (ht.rejected hok)]
      exact .stay _
  | opened ht hwrites hok => exact step_opened ht hwrites hok
  | clicked => exact step_clicked
  | expired hid hpending => exact step_expired hid hpending
  | tokenStored hdecision _ =>
      rw [ledger_kept rfl (List.forall_mem_nil _) ?_ rfl]
      · exact .stay _
      · intro w hw
        rw [List.mem_singleton.mp hw]
        exact hdecision

/-! ## What holds in every run -/

/-- The rounds of the case, as they are stored. -/
structure WriteOnce (s : Store) : Prop where
  /-- an undecided round is the newest -/
  pending : ∀ id r, s.approvals[id]? = some r → r.decision = .pending → id + 1 = s.approvals.length
  /-- a triage attempt has one round -/
  attempts : (s.approvals.map (·.attemptId)).Nodup
  labelRows : ∀ id r, s.approvals[id]? = some r →
    s.outbox.countP (fun row => decide (row.kind = .githubApplyLabel) &&
      decide (row.approvalRequestId = some id)) = if r.decision = .approved then 1 else 0
  commentRows : ∀ id r, s.approvals[id]? = some r →
    s.outbox.countP (fun row => decide (row.kind = .githubRejectionComment) &&
      decide (row.approvalRequestId = some id)) = if r.decision = .rejected then 1 else 0
  rejected : s.case.state = .remediationRejected ↔ ∃ r ∈ s.approvals, r.decision = .rejected

/-- One row for the rounds with the decision, none for the others. -/
theorem count_effect {es : List Nat} {s : Store} {d : ApprovalDecision} (hnodup : es.Nodup)
    (heff : ∀ i, i ∈ es ↔ s.ledger.decisions[i]? = some d) {id : Nat} {r : ApprovalRequest}
    (hr : s.approvals[id]? = some r) : es.count id = if r.decision = d then 1 else 0 := by
  have hget := decision_get hr
  split
  · next hd => exact List.count_eq_one_of_mem hnodup ((heff id).mpr (hget.trans (congrArg some hd)))
  · next hd =>
      refine List.count_eq_zero.mpr (fun hmem => hd ?_)
      have h := (heff id).mp hmem
      rw [hget] at h
      exact Option.some.inj h

theorem Ledger.Sound.writeOnce {s : Store} (h : s.ledger.Sound) : WriteOnce s where
  pending := by
    intro id r hr hp
    have hlast := h.pending id ((decision_get hr).trans (congrArg some hp))
    simpa [Store.ledger] using hlast
  attempts := h.attempts
  labelRows := by
    intro id r hr
    rw [← count_rowsOf]
    exact count_effect h.labels h.labelled hr
  commentRows := by
    intro id r hr
    rw [← count_rowsOf]
    exact count_effect h.comments h.commented hr
  rejected := by
    have hrej := h.rejected
    unfold Store.ledger at hrej
    rw [decide_eq_true_iff, List.mem_map] at hrej
    exact hrej

theorem ledger_sound {cfg : Settings} {c : Pool Store Input Op Err} (h : Reachable cfg c) :
    c.Permitted (Deed cfg) ∧ c.store.ledger.Sound := by
  have hempty : (({} : Store).ledger).Sound := Ledger.Sound.empty
  exact Pool.Reachable.each (P := fun s => s.ledger.Sound) (deeds_sanctioned cfg) hempty
    (fun s op hs hop => hs.step hop.step) h

theorem decided_stays {cfg : Settings} {c c' : Pool Store Input Op Err} (h : Reachable cfg c)
    {chs : List (Choice Input Op Job)} (hrun : c.execAll (system cfg) chs = some c') {id : Nat}
    {r : ApprovalRequest} (hr : c.store.approvals[id]? = some r) (hp : r.decision ≠ .pending) :
    ∃ r', c'.store.approvals[id]? = some r' ∧ r'.decision = r.decision := by
  have hkept := Pool.execAll_rel (P := fun _ => True) (R := fun s s' => s.ledger.Kept s'.ledger)
    (deeds_sanctioned cfg) (fun s => Ledger.Kept.refl _) (fun _ _ _ => Ledger.Kept.trans)
    (fun s op _ hop => ⟨trivial, hop.step.kept⟩) (ledger_sound h).1 trivial hrun
  have hget := hkept id r.decision (decision_get hr) hp
  unfold Store.ledger at hget
  rw [List.getElem?_map, Option.map_eq_some_iff] at hget
  exact hget

/-- **Decisions are made once, with a single effect**: whatever the clicks, workers, operators
and outbox steps are and however they interleave. -/
theorem writeOnce_of_reachable {cfg : Settings} {c : Pool Store Input Op Err}
    (h : Reachable cfg c) : WriteOnce c.store ∧
      ∀ (chs : List (Choice Input Op Job)) (c' : Pool Store Input Op Err),
        c.execAll (system cfg) chs = some c' →
        ∀ (id : Nat) (r : ApprovalRequest), c.store.approvals[id]? = some r →
          r.decision ≠ .pending →
          ∃ r', c'.store.approvals[id]? = some r' ∧ r'.decision = r.decision :=
  ⟨(ledger_sound h).2.writeOnce, fun _ _ hrun _ _ hr hp => decided_stays h hrun hr hp⟩

/-- A token as `generate_action_token` returns it. -/
def demoToken : String := "3Q2x7Jm0y0kq9iVb1nLw5sTe8RzUoPc4dGhFaYx6WvE"

/-- The answers of a run in which every call succeeds and every session has its output. -/
def smooth : Input := { get := .snapshot ⟨"exit", "", some "doc", []⟩, token := demoToken }

/-- A delivery is triaged, the result opens a round, and its message is posted to Slack. -/
def postedSchedule : List (Choice Input Op Job) :=
  [.env (.receive issueOpened), .spawn 1 (.iterate 0 5)] ++ actions 1 23 smooth ++
  .spawn 2 (.iterate 0 5) :: actions 2 9 smooth

/-- An approver clicks on the message. -/
def demoClick (actionId : String) : SlackActionInput := ⟨demoToken, "U1", actionId, "1", none⟩

def clickSchedule (o : Owner) (actionId : String) : List (Choice Input Op Job) :=
  .spawn o (.slack (demoClick actionId)) :: actions o 2 {}

theorem writeOnce_of_reachable_demo : ∃ c, Reachable demoSettings c ∧
    c.store.approvals.map (·.decision) = [.rejected] ∧
    c.store.case.state = .remediationRejected ∧ WriteOnce c.store := by
  obtain ⟨c, hc, hview⟩ := reachable_of_runSchedule demoSettings
    (postedSchedule ++ clickSchedule 3 actionReject ++ clickSchedule 4 actionApprove)
    (fun s => (s.approvals.map (·.decision), s.case.state)) ([.rejected], .remediationRejected)
    (by decide +kernel)
  obtain ⟨hdecisions, hstate⟩ := Prod.mk.inj hview
  exact ⟨c, hc, hdecisions, hstate, (writeOnce_of_reachable hc).1⟩

end Remediator
