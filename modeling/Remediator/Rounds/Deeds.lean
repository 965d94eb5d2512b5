import Remediator.Rounds.CalmStages

set_option autoImplicit false

/-! # Who decides a round

Everything that is ever done to the approval rounds, in five cases: a triage result opens a
round, a Slack click or the operator decides it, the dispatcher stores an action token, and
everything else keeps the decision and the token of every round. What holds of the rounds in
every run is then an induction over these cases.
-/

namespace Remediator

open Interleave

/-! ## The cases -/

/-- The write changes neither the decision nor the token of the round. -/
def Write.Kept (w : Write ApprovalRequest) : Prop :=
  w.changed.decision = w.loaded.decision ∧ w.changed.actionTokenHash = w.loaded.actionTokenHash

/-- The transaction neither opens nor decides a round, nor does it queue what follows from a
decision. -/
structure Txn.Keeps (t : Txn) : Prop where
  newApprovals : t.newApprovals = []
  newOutbox : ∀ row ∈ t.newOutbox, row.kind = .notification
  moves : ∀ m ∈ t.moves, m.dst ≠ .remediationRejected
  writes : ∀ w ∈ t.approvalWrites, w.Kept
  issues : t.issues = none

/-- The transaction of the operator's `expire_request`. -/
def expiry (cfg : Settings) (now id : Nat) (r : ApprovalRequest) : Txn :=
  { approvalWrites := [⟨id, r, { expiredRound cfg r with tokenExpiresAt := now }⟩]
    newOutbox := statusUpdate id r }

/-- The operation is not a transaction. -/
def Op.elsewhere : Op → Bool
  | .commit _ _ => false
  | _ => true

inductive Deed (cfg : Settings) (s : Store) : Op → Prop
  | elsewhere {op : Op} : op.elsewhere = true → Deed cfg s op
  | kept {o : Owner} {t : Txn} : t.Keeps → movesOk t.moves s.case = true →
      Deed cfg s (.commit o t)
  | opened {o : Owner} {t : Txn} {attempt : Nat} {raw : Doc} : t.Keeps →
      t.approvalWrites = [] → movesOk t.moves s.case = true →
      Deed cfg s (.commit o (createApprovalRequest cfg attempt raw t s))
  | clicked {o : Owner} {action : SlackActionInput} :
      Deed cfg s (.commit o (processSlackAction cfg action s).1)
  | expired {o : Owner} {id : Nat} {r : ApprovalRequest} : s.approvals[id]? = some r →
      r.decision = .pending → Deed cfg s (.commit o (expiry cfg s.now id r))
  | tokenStored {o : Owner} {w : Write ApprovalRequest} {token : String} :
      w.changed.decision = w.loaded.decision →
      w.changed.actionTokenHash = some (hashActionToken cfg token) →
      Deed cfg s (.commit o { approvalWrites := [w], issues := some (token, w.id) })

/-- Every action of the program is one of them. -/
abbrev Deeds (cfg : Settings) {α : Type} (Q : α → Prop) (p : P α) : Prop :=
  p.Each (Deed cfg) Q (fun _ => True)

section Rules

variable {cfg : Settings} {α β : Type} {Q : α → Prop}

theorem Txn.Calm.keeps {t : Txn} (h : t.Calm) : t.Keeps where
  newApprovals := h.newApprovals
  newOutbox := h.newOutbox
  moves := by
    intro m hm hdst
    have hcalm := h.moves m hm
    simp [Move.calm, CaseState.calm, hdst] at hcalm
  writes := by
    intro w hw
    rw [h.approvalWrites] at hw
    cases hw
  issues := h.issues

theorem Deed.skip (s : Store) : Deed cfg s .skip := .elsewhere rfl

/-- A committed transaction has possible moves. -/
theorem Deeds.tx {o : Owner} {body : Input → Store → Except Err (Txn × α)}
    (h : ∀ i s t a, body i s = .ok (t, a) → movesOk t.moves s.case = true →
      Deed cfg s (.commit o t) ∧ Q a) : Deeds cfg Q (Remediator.tx o body) :=
  each_tx (fun _ => .skip _) (fun _ _ _ _ => trivial) h

/-- The transaction is one that keeps the rounds. -/
theorem Deeds.keeping {o : Owner} {body : Input → Store → Except Err (Txn × α)}
    (h : ∀ i s t a, body i s = .ok (t, a) → t.Keeps ∧ Q a) : Deeds cfg Q (Remediator.tx o body) :=
  .tx (fun i s t a hbody hmoves =>
    ⟨.kept (h i s t a hbody).1 hmoves, (h i s t a hbody).2⟩)

theorem Calmly.deeds {p : P α} (h : Calmly p) : Deeds cfg (fun _ => True) p := by
  refine Prog.Each.permit h (fun s op hop => ?_)
  cases op with
  | commit o t =>
      simp only [Op.calm, Bool.and_eq_true] at hop
      exact .kept (Txn.Calm.of_calm hop.1).keeps hop.2
  | _ => exact .elsewhere rfl

theorem Deeds.bind {p : P α} {k : α → P β} {R : β → Prop} (hp : Deeds cfg Q p)
    (hk : ∀ a, Q a → Deeds cfg R (k a)) : Deeds cfg R (p >>= k) :=
  Prog.Each.bind hp hk

theorem Deeds.rescue {p : P α} {h : Err → P α} (hp : Deeds cfg Q p)
    (hh : ∀ e, Deeds cfg Q (h e)) : Deeds cfg Q (Remediator.rescue p h) := by
  refine Prog.Each.handle hp (fun e _ => ?_)
  split
  · trivial
  · exact hh e

end Rules

/-! ## Triage -/

theorem createApprovalRequest_moves (cfg : Settings) (attempt : Nat) (raw : Doc) (t : Txn)
    (s : Store) : (createApprovalRequest cfg attempt raw t s).moves = t.moves := by
  unfold createApprovalRequest
  split
  · rfl
  · rfl

section Processor

variable (r : Runner)

theorem finishTriage_deeds (st : CaseState) (out : RunOutcome) :
    Deeds r.cfg (fun _ => True) (r.finishTriage st out) := by
  unfold Runner.finishTriage
  split
  · next a _ _ =>
      refine .tx (fun _ s t x hbody hmoves => ⟨?_, trivial⟩)
      dsimp only at hbody
      split at hbody
      · cases hbody
        exact .kept (Txn.Calm.of_calm (failCase_calm (rfl : Txn.calm true true _ = true))).keeps hmoves
      · cases hbody
        rw [createApprovalRequest_moves] at hmoves
        refine .opened ⟨rfl, List.forall_mem_nil _, ?_, List.forall_mem_nil _, rfl⟩ rfl hmoves
        intro m hm
        rcases List.mem_cons.mp hm with rfl | hm
        · exact CaseState.noConfusion
        · rw [List.mem_singleton.mp hm]
          exact CaseState.noConfusion
  · trivial

theorem runTriage_deeds (st : CaseState) : Deeds r.cfg (fun _ => True) (r.runTriage st) :=
  .bind (Calmly.deeds (run_calmly r .triage st)) (fun x _ => finishTriage_deeds r x.1 x.2)

theorem reconcileBlockedTriage_deeds (st : CaseState) :
    Deeds r.cfg (fun _ => True) (r.reconcileBlockedTriage st) := by
  refine Deeds.bind (Calmly.deeds (reconcileBlocked_calmly r .triage st)) (fun found _ => ?_)
  split
  · trivial
  · exact finishTriage_deeds r _ _

theorem processTermination_deeds (st : CaseState) :
    Deeds r.cfg (fun _ => True) (r.processTermination st) := by
  refine Deeds.bind (Calmly.deeds (.tx (fun _ _ => rfl))) (fun pending _ => ?_)
  split
  · exact .bind (Calmly.deeds (terminateCase_calmly r st)) (fun _ _ => trivial)
  · refine Deeds.bind (Calmly.deeds (run_calmly r _ st)) (fun x _ => ?_)
    dsimp only
    split
    · exact finishTriage_deeds r x.1 x.2
    · trivial

theorem processTriage_deeds (st : CaseState) :
    Deeds r.cfg (fun _ => True) (r.processTriage st) := by
  unfold Runner.processTriage
  split
  · refine Deeds.bind (Calmly.deeds (evaluateEligibility_calmly r _)) (fun eligible _ => ?_)
    split
    · exact runTriage_deeds r _
    · trivial
  · exact runTriage_deeds r _
  · exact runTriage_deeds r _
  · refine Deeds.bind (Calmly.deeds (.tx (fun _ _ => rfl))) (fun kind _ => ?_)
    split
    · exact runTriage_deeds r _
    · trivial
  · exact reconcileBlockedTriage_deeds r _
  · exact processTermination_deeds r _
  · trivial

theorem processCase_deeds (st : CaseState) (reason : Option Reason) :
    Deeds r.cfg (fun _ => True) (r.processCase st reason) := by
  unfold Runner.processCase
  split
  · split
    · exact Calmly.deeds (process_calmly r st reason)
    · trivial
  · exact processTriage_deeds r st

/-! ## Events -/

/-- A confirmation writes the delivery of the round, not its decision. -/
theorem confirmLabelWebhook_keeps {cfg : Settings} {st : CaseState} {id : Nat}
    {req : ApprovalRequest} {labels : Option (List String)} {t : Txn} {s : Store}
    (h : t.Keeps) : (confirmLabelWebhook cfg st id req labels t s).1.Keeps := by
  unfold confirmLabelWebhook
  split
  · exact h
  split
  · exact h
  split
  · exact h
  split
  · exact h
  split
  · exact h
  refine ⟨h.newApprovals, fun row hrow => ?_, fun m hm => ?_, fun w hw => ?_, h.issues⟩
  · rcases List.mem_append.mp hrow with hrow | hrow
    · exact h.newOutbox row hrow
    · split at hrow
      · simpa using List.all_eq_true.mp (statusUpdate_calm id req) row hrow
      · cases hrow
  · rcases List.mem_append.mp hm with hm | hm
    · exact h.moves m hm
    · split at hm
      · rw [List.mem_singleton.mp hm]
        exact CaseState.noConfusion
      · cases hm
  · rcases List.mem_append.mp hw with hw | hw
    · exact h.writes w hw
    · rw [List.mem_singleton.mp hw]
      exact ⟨rfl, rfl⟩

/-- The transaction writes deliveries only. -/
theorem keeps_events {t : Txn} (hnew : t.newApprovals = []) (hout : t.newOutbox = [])
    (hmoves : t.moves = []) (hwrites : t.approvalWrites = []) (hissues : t.issues = none) :
    t.Keeps where
  newApprovals := hnew
  newOutbox := by rw [hout]; exact List.forall_mem_nil _
  moves := by rw [hmoves]; exact List.forall_mem_nil _
  writes := by rw [hwrites]; exact List.forall_mem_nil _
  issues := hissues

theorem processLabelEvent_deeds (e : EventObj) (st : Option CaseState) :
    Deeds r.cfg (fun _ => True) (r.processLabelEvent e st) := by
  refine .keeping (fun _ s t x hbody => ⟨?_, trivial⟩)
  dsimp only at hbody
  split at hbody
  · cases hbody
    exact confirmLabelWebhook_keeps (keeps_events rfl rfl rfl rfl rfl)
  · cases hbody
    exact keeps_events rfl rfl rfl rfl rfl

theorem openEvent_deeds (id : Nat) : Deeds r.cfg (fun _ => True) (r.openEvent id) := by
  refine .keeping (fun _ s t x hbody => ⟨?_, trivial⟩)
  dsimp only at hbody
  split at hbody
  · cases hbody
    exact keeps_events rfl rfl rfl rfl rfl
  · split at hbody
    · cases hbody
      exact keeps_events rfl rfl rfl rfl rfl
    · split at hbody
      · cases hbody
        exact keeps_events rfl rfl rfl rfl rfl
      · cases hbody
        exact keeps_events rfl rfl rfl rfl rfl

theorem processEvent_deeds (id : Nat) : Deeds r.cfg (fun _ => True) (r.processEvent id) := by
  refine Deeds.bind (openEvent_deeds r id) (fun work _ => ?_)
  split
  · trivial
  · exact processLabelEvent_deeds r _ _
  · refine Deeds.bind (processCase_deeds r _ none) (fun _ _ => ?_)
    refine .keeping (fun _ s t x hbody => ⟨?_, trivial⟩)
    cases hbody
    exact keeps_events rfl rfl rfl rfl rfl

end Processor

/-! ## The dispatcher -/

/-- The object of the session carries a decision and a token that it has not changed. -/
def RequestObj.Kept (r : RequestObj) : Prop := r.write.Kept

theorem RequestObj.Kept.set {r : RequestObj} (h : r.Kept) {row : ApprovalRequest}
    (hd : row.decision = r.row.decision) (ht : row.actionTokenHash = r.row.actionTokenHash) :
    (r.set row).Kept :=
  ⟨hd.trans h.1, ht.trans h.2⟩

theorem RequestObj.kept_flushed (r : RequestObj) : r.flushed.Kept := ⟨rfl, rfl⟩

/-- Writes of objects, and nothing else that concerns a round. -/
theorem keeps_writes {t : Txn} (hnew : t.newApprovals = [])
    (hout : ∀ row ∈ t.newOutbox, row.kind = .notification) (hmoves : t.moves = [])
    (hwrites : ∀ w ∈ t.approvalWrites, w.Kept) (hissues : t.issues = none) : t.Keeps where
  newApprovals := hnew
  newOutbox := hout
  moves := by rw [hmoves]; exact List.forall_mem_nil _
  writes := hwrites
  issues := hissues

/-- What a handler has not committed yet. -/
def Handled.Kept : Handled → Prop
  | .sent pending outbox =>
      (∀ w ∈ pending, w.Kept) ∧ ∀ row ∈ outbox, row.kind = .notification
  | .failed _ => True

/-- An object, with what else the session has changed. -/
def HeldKept (x : RequestObj × List (Write ApprovalRequest)) : Prop :=
  x.1.Kept ∧ ∀ w ∈ x.2, w.Kept

section Dispatcher

variable (d : Dispatcher)

theorem mem_append_single {w w' : Write ApprovalRequest} {ws : List (Write ApprovalRequest)}
    (hws : ∀ v ∈ ws, v.Kept) (hw' : w'.Kept) (hw : w ∈ ws ++ [w']) : w.Kept := by
  rcases List.mem_append.mp hw with hw | hw
  · exact hws w hw
  · rw [List.mem_singleton.mp hw]
    exact hw'

theorem commit_deeds {r : RequestObj} {also : List (Write ApprovalRequest)}
    {change : Input → Store → ApprovalRequest} (hr : r.Kept) (halso : ∀ w ∈ also, w.Kept)
    (hd : ∀ i s, (change i s).decision = r.row.decision)
    (ht : ∀ i s, (change i s).actionTokenHash = r.row.actionTokenHash) :
    Deeds d.cfg RequestObj.Kept (d.commit r also change) := by
  refine .keeping (fun i s t x hbody => ?_)
  cases hbody
  refine ⟨keeps_writes rfl (List.forall_mem_nil _) rfl (fun w hw => ?_) rfl,
    RequestObj.kept_flushed _⟩
  exact mem_append_single halso (hr.set (hd i s) (ht i s)) hw

/-- A loaded object is as it was loaded. -/
theorem loadRequest_kept {row : OutboxRow} {s : Store} {x : RequestObj × CaseState}
    (h : loadRequest row s = some x) : x.1.Kept := by
  unfold loadRequest at h
  obtain ⟨id, -, h⟩ := Option.bind_eq_some_iff.mp h
  obtain ⟨r, -, rfl⟩ := Option.map_eq_some_iff.mp h
  exact ⟨rfl, rfl⟩

theorem storeToken_deeds {r : RequestObj} (hr : r.Kept) :
    Deeds d.cfg RequestObj.Kept (d.storeToken r) := by
  refine .tx (fun i s t x hbody _ => ?_)
  cases hbody
  exact ⟨.tokenStored (w := (r.set { r.row with
      actionTokenHash := some (hashActionToken d.cfg i.token),
      notificationStatus := .sending }).write) hr.1 rfl, RequestObj.kept_flushed _⟩

theorem slackApprovalRequest_deeds (row : OutboxRow) :
    Deeds d.cfg Handled.Kept (d.slackApprovalRequest row) := by
  have hsent : ∀ r : RequestObj, r.Kept → Handled.Kept
      (.sent [(r.set (Dispatcher.slackApprovalRequest.notified r.row)).write] []) := by
    intro r hr
    refine ⟨fun w hw => ?_, List.forall_mem_nil _⟩
    rw [List.mem_singleton.mp hw]
    exact hr.set rfl rfl
  refine Deeds.bind (Q := fun found => ∀ x, found = some x → x.1.Kept) ?_ (fun found hfound => ?_)
  · refine .keeping (fun i s t x hbody => ?_)
    cases hbody
    exact ⟨keeps_events rfl rfl rfl rfl rfl, fun x hx => loadRequest_kept hx⟩
  split
  · trivial
  · next r st =>
      have hr : r.Kept := hfound (r, st) rfl
      split
      · exact ⟨List.forall_mem_nil _, List.forall_mem_nil _⟩
      · extract_lets rest
        have hrest : ∀ earlier, Deeds d.cfg Handled.Kept (rest earlier) := by
          intro earlier
          cases earlier with
          | inr permanent => trivial
          | inl found =>
              cases found with
              | true => exact hsent r hr
              | false =>
                  refine Deeds.bind (storeToken_deeds d hr) (fun r hr => ?_)
                  refine Deeds.bind (Calmly.deeds (.ask _)) (fun answer _ => ?_)
                  split
                  · exact hsent r hr
                  · trivial
                  · trivial
        split
        · exact .bind (Calmly.deeds (.ask _)) (fun earlier _ => hrest earlier)
        · exact hrest (.inl false)

/-- The label of the issue is no row. -/
theorem addLabel_deeds (cfg : Settings) : Deeds cfg (fun _ => True) (addLabel cfg) := by
  refine Deeds.bind (Calmly.deeds (.getIssue cfg)) (fun issue _ => ?_)
  split
  · trivial
  · split
    · trivial
    · split
      · trivial
      · intro i s
        refine ⟨.elsewhere ?_, ?_⟩
        · dsimp only
          split
          · rfl
          · split
            · rfl
            · rfl
        · dsimp only
          unfold unlessFault
          split
          · trivial
          · trivial

theorem taken_kept {α : Type} {Q : α → Prop} {a : α} (h : Q a) (answer : Answer Unit) :
    ∀ x, taken a answer = .inl x → Q x := by
  intro x hx
  cases answer with
  | ok _ =>
      cases hx
      exact h
  | retryable => cases hx
  | refused => cases hx

theorem requestLabel_deeds {r : RequestObj} (hr : r.Kept) (labels : List String) :
    Deeds d.cfg (fun x => ∀ r', x = .inl r' → r'.Kept) (d.requestLabel r labels) := by
  unfold Dispatcher.requestLabel
  split
  · intro r' hr'
    cases hr'
    exact hr
  · refine Deeds.bind (commit_deeds d hr (List.forall_mem_nil _) (fun _ _ => rfl) (fun _ _ => rfl))
      (fun r hr => ?_)
    exact .bind (addLabel_deeds d.cfg) (fun answer _ => taken_kept hr answer)

/-- The loop changes the delivery of the object and nothing else of it. -/
theorem replayLoop_kept (cfg : Settings) (st : CaseState) (s : Store) (events : List WebhookEvent)
    {x : RequestObj} (hx : x.Kept) : (replayLoop cfg st s events x).2.Kept ∧
      ∀ t, (replayLoop cfg st s events x).1 = some t → t.Keeps := by
  induction events generalizing x with
  | nil => exact ⟨hx, fun t ht => (by cases ht)⟩
  | cons e es ih =>
      have hkeeps : (confirmLabelWebhook cfg st x.id x.row e.issueLabels
          {} s).1.Keeps :=
        confirmLabelWebhook_keeps (keeps_events rfl rfl rfl rfl rfl)
      unfold replayLoop
      split
      · next t heq =>
          refine ⟨hx.set rfl rfl, fun t' ht' => ?_⟩
          cases ht'
          rw [heq] at hkeeps
          exact hkeeps
      · refine ih ?_
        split
        · exact hx
        · exact hx.set rfl rfl

theorem replayTarget_kept {r : RequestObj} (hr : r.Kept) (s : Store) : (replayTarget r s).Kept := by
  unfold replayTarget
  split
  · split
    · exact hr
    · exact ⟨rfl, rfl⟩
  · exact hr

theorem replay_deeds {r : RequestObj} (hr : r.Kept) (st : CaseState) :
    Deeds d.cfg HeldKept (d.replay r st) := by
  refine .keeping (fun i s t x hbody => ?_)
  extract_lets events target judges at hbody
  obtain ⟨hobj, htxn⟩ := replayLoop_kept d.cfg st s events
    (replayTarget_kept hr s)
  split at hbody
  · next t' x' heq =>
      rw [heq] at hobj htxn
      have hkeeps := htxn t' rfl
      cases hbody
      refine ⟨⟨hkeeps.newApprovals, hkeeps.newOutbox, hkeeps.moves, fun w hw => ?_,
        hkeeps.issues⟩, ?_, List.forall_mem_nil _⟩
      · rw [List.mem_singleton.mp hw]
        exact hobj
      · dsimp only
        split
        · exact RequestObj.kept_flushed x'
        · exact hr
  · next x' heq =>
      rw [heq] at hobj
      cases hbody
      refine ⟨keeps_events rfl rfl rfl rfl rfl, ?_⟩
      split
      · exact ⟨hobj, List.forall_mem_nil _⟩
      · refine ⟨hr, fun w hw => ?_⟩
        rw [List.mem_singleton.mp hw]
        exact hobj

theorem applyLabel_deeds {r : RequestObj} (hr : r.Kept) (st : CaseState) (labels : List String) :
    Deeds d.cfg (fun x => ∀ y, x = .inl y → HeldKept y) (d.applyLabel r st labels) := by
  unfold Dispatcher.applyLabel
  split
  · intro y hy
    cases hy
    exact ⟨hr, List.forall_mem_nil _⟩
  · refine Deeds.bind (requestLabel_deeds d hr labels) (fun x hx => ?_)
    split
    · intro y hy
      cases hy
    · next r =>
        have hr : r.Kept := hx r rfl
        refine Deeds.bind (commit_deeds d hr (List.forall_mem_nil _) (fun _ _ => rfl)
          (fun _ _ => rfl)) (fun r hr => ?_)
        refine Deeds.bind (replay_deeds d hr st) (fun x hx => ?_)
        intro y hy
        cases hy
        exact hx

theorem ensureComment_deeds {r : RequestObj} {also : List (Write ApprovalRequest)} (hr : r.Kept)
    (halso : ∀ w ∈ also, w.Kept) :
    Deeds d.cfg (fun x => ∀ y, x = .inl y → HeldKept y) (d.ensureComment r also) := by
  unfold Dispatcher.ensureComment
  split
  · intro y hy
    cases hy
    exact ⟨hr, halso⟩
  · extract_lets rest
    have hrest : ∀ x, HeldKept x → Deeds d.cfg (fun x => ∀ y, x = .inl y → HeldKept y) (rest x) :=
      fun x hx => .bind (Calmly.deeds (.ask _)) (fun answer _ => taken_kept hx answer)
    split
    · exact hrest (r, also) ⟨hr, halso⟩
    · refine Deeds.bind (commit_deeds d hr halso (fun _ _ => rfl) (fun _ _ => rfl)) (fun r hr => ?_)
      exact hrest (r, []) ⟨hr, List.forall_mem_nil _⟩

theorem githubApplyLabel_deeds (row : OutboxRow) :
    Deeds d.cfg Handled.Kept (d.githubApplyLabel row) := by
  refine Deeds.bind (Q := fun found => ∀ x, found = some x → x.1.Kept) ?_ (fun found hfound => ?_)
  · refine .keeping (fun i s t x hbody => ?_)
    cases hbody
    refine ⟨keeps_events rfl rfl rfl rfl rfl, fun x hx => ?_⟩
    exact loadRequest_kept (Option.filter_eq_some_iff.mp hx).1
  split
  · trivial
  · next r st =>
      have hr : r.Kept := hfound (r, st) rfl
      refine Deeds.bind (Calmly.deeds (.getIssue d.cfg)) (fun issue _ => ?_)
      split
      · trivial
      · split
        · trivial
        · refine Deeds.bind (applyLabel_deeds d hr st issue.labels) (fun x hx => ?_)
          split
          · trivial
          · next r also =>
              have hheld := hx (r, also) rfl
              refine Deeds.bind (ensureComment_deeds d hheld.1 hheld.2) (fun y hy => ?_)
              split
              · trivial
              · next r also =>
                  have hheld := hy (r, also) rfl
                  refine ⟨fun w hw => mem_append_single hheld.2 ?_ hw, fun row hrow => ?_⟩
                  · exact hheld.1.set rfl rfl
                  · simpa using List.all_eq_true.mp (statusUpdate_calm _ _) row hrow

theorem githubRejectionComment_deeds (row : OutboxRow) :
    Deeds d.cfg Handled.Kept (d.githubRejectionComment row) := by
  refine Deeds.bind (Q := fun found => ∀ x, found = some x → x.1.Kept) ?_ (fun found hfound => ?_)
  · refine .keeping (fun i s t x hbody => ?_)
    cases hbody
    exact ⟨keeps_events rfl rfl rfl rfl rfl, fun x hx => loadRequest_kept hx⟩
  split
  · trivial
  · next r st =>
      have hr : r.Kept := hfound (r, st) rfl
      split
      · trivial
      · split
        · exact ⟨List.forall_mem_nil _, List.forall_mem_nil _⟩
        · split
          · trivial
          · refine Deeds.bind (ensureComment_deeds d hr (List.forall_mem_nil _)) (fun y hy => ?_)
            split
            · trivial
            · next r also =>
                have hheld := hy (r, also) rfl
                refine ⟨fun w hw => mem_append_single hheld.2 ?_ hw, List.forall_mem_nil _⟩
                exact hheld.1.set rfl rfl

theorem handle_deeds (row : OutboxRow) : Deeds d.cfg Handled.Kept (d.handle row) := by
  unfold Dispatcher.handle
  split
  · exact slackApprovalRequest_deeds d row
  · exact githubApplyLabel_deeds d row
  · exact githubRejectionComment_deeds d row
  · refine Deeds.bind (Calmly.deeds (.ask _)) (fun answer _ => ?_)
    split
    · exact ⟨List.forall_mem_nil _, List.forall_mem_nil _⟩
    · trivial
    · trivial

theorem dispatcherFail_deeds (id : Nat) (permanent : Bool) :
    Deeds d.cfg (fun _ => True) (d.fail id permanent) := by
  refine .keeping (fun i s t x hbody => ⟨?_, trivial⟩)
  dsimp only at hbody
  split at hbody
  · cases hbody
    exact keeps_events rfl rfl rfl rfl rfl
  · split at hbody
    · split at hbody
      · cases hbody
        exact keeps_events rfl rfl rfl rfl rfl
      · next rid r _ =>
          split at hbody
          · cases hbody
            refine keeps_writes rfl (List.forall_mem_nil _) rfl (fun w hw => ?_) rfl
            rw [List.mem_singleton.mp hw]
            exact ⟨rfl, rfl⟩
          · split at hbody
            · cases hbody
              exact keeps_events rfl rfl rfl rfl rfl
            · cases hbody
              refine ⟨rfl, fun row hrow => ?_, fun m hm => ?_, fun w hw => ?_, rfl⟩
              · simpa using List.all_eq_true.mp (statusUpdate_calm rid r) row hrow
              · dsimp only at hm
                split at hm
                · rw [List.mem_singleton.mp hm]
                  exact CaseState.noConfusion
                · cases hm
              · rw [List.mem_singleton.mp hw]
                exact ⟨rfl, rfl⟩
          · cases hbody
            exact keeps_events rfl rfl rfl rfl rfl
          · cases hbody
            exact keeps_events rfl rfl rfl rfl rfl
    · cases hbody
      exact keeps_events rfl rfl rfl rfl rfl

theorem dispatcherDispatch_deeds (id : Nat) : Deeds d.cfg (fun _ => True) (d.dispatch id) := by
  refine Deeds.bind (Calmly.deeds (.tx (fun _ _ => rfl))) (fun found _ => ?_)
  split
  · trivial
  · split
    · trivial
    · refine Deeds.bind (Deeds.rescue (handle_deeds d _) (fun _ => trivial)) (fun handled hh => ?_)
      split
      · refine .keeping (fun i s t x hbody => ⟨?_, trivial⟩)
        cases hbody
        exact keeps_writes rfl hh.2 rfl hh.1 rfl
      · exact dispatcherFail_deeds d id _

theorem dispatcherClaim_deeds : Deeds d.cfg (fun _ => True) d.claim := by
  refine .keeping (fun i s t x hbody => ⟨?_, trivial⟩)
  dsimp only at hbody
  split at hbody
  · cases hbody
    exact keeps_events rfl rfl rfl rfl rfl
  · cases hbody
    exact keeps_events rfl rfl rfl rfl rfl

end Dispatcher

/-! ## The worker loop -/

section Worker

variable (w : Worker)

/-- A failing case with the writes of its event. -/
theorem failCase_keeps {claim : Option Owner} {st : CaseState} {t : Txn} {s : Store}
    (h : t.Keeps) : (failCase claim st t s).1.Keeps := by
  have hp := phaseForState_calm st true
  have hmove : ∀ dst : CaseState, dst.calm true = true → dst ≠ .remediationRejected := by
    intro dst hdst hr
    subst hr
    cases hdst
  unfold failCase
  dsimp only
  split
  · exact ⟨h.newApprovals, h.newOutbox, h.moves, h.writes, h.issues⟩
  · split
    · refine ⟨h.newApprovals, fun row hrow => ?_, fun m hm => ?_, h.writes, h.issues⟩
      · rcases List.mem_append.mp hrow with hrow | hrow
        · exact h.newOutbox row hrow
        · rw [List.mem_singleton.mp hrow]
          rfl
      · rcases List.mem_append.mp hm with hm | hm
        · exact h.moves m hm
        · rw [List.mem_singleton.mp hm]
          exact hmove _ hp.2.1
    · split
      · exact ⟨h.newApprovals, h.newOutbox, h.moves, h.writes, h.issues⟩
      · refine ⟨h.newApprovals, h.newOutbox, fun m hm => ?_, h.writes, h.issues⟩
        rcases List.mem_append.mp hm with hm | hm
        · exact h.moves m hm
        · rw [List.mem_singleton.mp hm]
          exact hmove _ hp.1

theorem markFailed_keeps {t : Txn} {s : Store} (h : t.Keeps) : (w.markFailed t s).Keeps := by
  unfold Worker.markFailed
  dsimp only
  split
  · exact failCase_keeps h
  · exact h

theorem selectEvent_deeds : Deeds w.cfg (fun _ => True) w.selectEvent := by
  refine .keeping (fun i s t x hbody => ⟨?_, trivial⟩)
  dsimp only at hbody
  split at hbody
  · cases hbody
    exact keeps_events rfl rfl rfl rfl rfl
  · split at hbody
    · cases hbody
      exact keeps_events rfl rfl rfl rfl rfl
    · cases hbody
      exact keeps_events rfl rfl rfl rfl rfl

theorem capEvent_deeds (e : EventObj) (st : Option CaseState) :
    Deeds w.cfg (fun _ => True) (w.capEvent e st) := by
  unfold Worker.capEvent
  split
  · refine .keeping (fun i s t x hbody => ⟨?_, trivial⟩)
    cases hbody
    exact keeps_events rfl rfl rfl rfl rfl
  · refine Deeds.bind (Calmly.deeds (terminateRunningAttempts_calmly w.owner)) (fun x _ => ?_)
    refine .keeping (fun i s t y hbody => ⟨?_, trivial⟩)
    cases hbody
    exact failCase_keeps (keeps_events rfl rfl rfl rfl rfl)

theorem claimEvent_deeds (n : Nat) : Deeds w.cfg (fun _ => True) (w.claimEvent n) := by
  induction n with
  | zero => trivial
  | succ n ih =>
      refine Deeds.bind (selectEvent_deeds w) (fun claim _ => ?_)
      split
      · trivial
      · trivial
      · exact .bind (capEvent_deeds w _ _) (fun _ _ => ih)

theorem releaseEvent_deeds (id : Nat) : Deeds w.cfg (fun _ => True) (w.releaseEvent id) := by
  refine Deeds.bind (Calmly.deeds (.tx (fun _ _ => rfl))) (fun hasCase _ => ?_)
  extract_lets txn rest
  have hrest : ∀ u, Deeds w.cfg (fun _ => True) (rest u) := by
    intro u
    refine .keeping (fun i s t x hbody => ⟨?_, trivial⟩)
    cases hbody
    exact keeps_events rfl rfl rfl rfl rfl
  split
  · exact .bind (Calmly.deeds (releaseCase_calmly w)) (fun u _ => hrest u)
  · exact hrest ()

theorem onCaseError_deeds (e : Err) : Deeds w.cfg (fun _ => True) (w.onCaseError e) := by
  unfold Worker.onCaseError
  split
  · exact .bind (Calmly.deeds (.tx (fun _ _ => rfl))) (fun _ _ => Calmly.deeds (releaseCase_calmly w))
  · trivial
  · trivial
  · trivial
  · refine .keeping (fun i s t x hbody => ⟨?_, trivial⟩)
    cases hbody
    exact markFailed_keeps w (keeps_events rfl rfl rfl rfl rfl)

theorem onEventError_deeds (id : Nat) (e : Err) :
    Deeds w.cfg (fun _ => True) (w.onEventError id e) := by
  unfold Worker.onEventError
  split
  · refine .keeping (fun i s t x hbody => ⟨?_, trivial⟩)
    dsimp only at hbody
    split at hbody
    · cases hbody
      exact keeps_events rfl rfl rfl rfl rfl
    · cases hbody
      exact keeps_events rfl rfl rfl rfl rfl
  · trivial
  · trivial
  · trivial
  · refine .keeping (fun i s t x hbody => ⟨?_, trivial⟩)
    dsimp only at hbody
    split at hbody
    · cases hbody
      exact keeps_events rfl rfl rfl rfl rfl
    · cases hbody
      split
      · exact markFailed_keeps w (keeps_events rfl rfl rfl rfl rfl)
      · exact keeps_events rfl rfl rfl rfl rfl

theorem withFinally_deeds {cfg : Settings} {p fin : P Unit} (hp : Deeds cfg (fun _ => True) p)
    (hfin : Deeds cfg (fun _ => True) fin) : Deeds cfg (fun _ => True) (withFinally p fin) :=
  .bind (Deeds.rescue hp (fun _ => .bind hfin (fun _ _ => trivial))) (fun _ _ => hfin)

theorem runCase_deeds : Deeds w.cfg (fun _ => True) w.runCase :=
  .bind (Calmly.deeds (.tx (fun _ _ => rfl))) (fun x _ => processCase_deeds w.runner x.1 x.2)

theorem iterate_deeds : Deeds w.cfg (fun _ => True) w.iterate := by
  refine Deeds.bind (claimEvent_deeds w w.rounds) (fun event _ => ?_)
  split
  · next id =>
      exact withFinally_deeds
        (Deeds.rescue (processEvent_deeds w.runner id) (fun e => onEventError_deeds w id e))
        (releaseEvent_deeds w id)
  · refine Deeds.bind (Calmly.deeds (claimCase_calmly w)) (fun claimed _ => ?_)
    split
    · exact withFinally_deeds (Deeds.rescue (runCase_deeds w) (fun e => onCaseError_deeds w e))
        (Calmly.deeds (releaseCase_calmly w))
    · refine Deeds.bind (dispatcherClaim_deeds w.dispatcher) (fun row _ => ?_)
      split
      · exact dispatcherDispatch_deeds w.dispatcher _
      · trivial

end Worker

/-! ## Every job -/

theorem slackClick_deeds (cfg : Settings) (o : Owner) (action : SlackActionInput) :
    Deeds cfg (fun _ => True) (slackClick cfg o action) := by
  refine .tx (fun i s t x hbody _ => ⟨?_, trivial⟩)
  cases hbody
  exact .clicked

theorem expireApproval_deeds (cfg : Settings) (o : Owner) (id : Nat) :
    Deeds cfg (fun _ => True) (expireApproval cfg o id) := by
  refine .tx (fun i s t x hbody hmoves => ⟨?_, trivial⟩)
  dsimp only at hbody
  split at hbody
  · next r hr =>
      split at hbody
      · next hpending =>
          cases hbody
          exact .expired hr hpending
      · cases hbody
        exact .kept (keeps_events rfl rfl rfl rfl rfl) hmoves
  · cases hbody
    exact .kept (keeps_events rfl rfl rfl rfl rfl) hmoves

theorem retryOutbox_deeds (cfg : Settings) (o : Owner) (id : Nat) :
    Deeds cfg (fun _ => True) (retryOutbox o id) := by
  refine .keeping (fun i s t x hbody => ⟨?_, trivial⟩)
  split at hbody
  · cases hbody
  · split at hbody
    · cases hbody
    · cases hbody
      refine keeps_writes rfl (List.forall_mem_nil _) rfl (fun w hw => ?_) rfl
      obtain ⟨rid, -, hw⟩ := Option.bind_eq_some_iff.mp (Option.mem_toList.mp hw)
      obtain ⟨r, -, rfl⟩ := Option.map_eq_some_iff.mp hw
      unfold Write.Kept retryOutbox.requeued
      split
      · split
        · exact ⟨rfl, rfl⟩
        · exact ⟨rfl, rfl⟩
      · split
        · exact ⟨rfl, rfl⟩
        · exact ⟨rfl, rfl⟩
      · exact ⟨rfl, rfl⟩
      · exact ⟨rfl, rfl⟩

theorem reconcileSession_deeds (cfg : Settings) (o : Owner) (rounds : Nat) :
    Deeds cfg (fun _ => True) (reconcileSession cfg o rounds) := by
  refine Deeds.bind (Calmly.deeds (readState_calmly o)) (fun st _ => ?_)
  split
  · trivial
  · exact reconcileBlockedTriage_deeds { cfg := cfg, owner := o, claim := none, rounds := rounds } st

/-- **Nothing else is ever done to a round.** -/
theorem deeds_sanctioned (cfg : Settings) : Sanctioned (system cfg) (Deed cfg) where
  job := by
    intro o j
    cases j with
    | iterate process rounds => exact iterate_deeds ⟨cfg, o, process, rounds⟩
    | slack action => exact slackClick_deeds cfg o action
    | cancel => exact Calmly.deeds (cancelCase_calmly o)
    | retry => exact Calmly.deeds (retryCase_calmly cfg o)
    | reconcileSession rounds => exact reconcileSession_deeds cfg o rounds
    | retryCi => exact Calmly.deeds (retryCi_calmly o)
    | retryProbe => exact Calmly.deeds (retryProbe_calmly o)
    | retryOutbox id => exact retryOutbox_deeds cfg o id
    | expireApproval id => exact expireApproval_deeds cfg o id
  leave := fun _ _ => .elsewhere rfl
  env := by
    intro s op h
    cases op with
    | commit o t => cases h
    | _ => exact .elsewhere rfl

end Remediator
