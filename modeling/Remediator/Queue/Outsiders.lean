import Remediator.Queue

set_option autoImplicit false

/-! # Jobs that hold no claim

The clicks, the operator's actions, the dispatcher of the outbox and what the worker loop does
around its jobs. None of them asks for a slot, and what they move they move without the claim of
the case.
-/

namespace Remediator

open Interleave

/-! ## Silent programs -/

/-- The transaction concerns no delivery either. -/
def Txn.silent (t : Txn) : Bool := t.outer && t.eventWrites.isEmpty

def Op.silent (s : Store) : Op → Bool
  | .commit _ t => t.silent && movesOk t.moves s.case
  | .post _ _ _ | .leave _ | .receive _ | .deliver _ => false
  | _ => true

/-- Every action of the program is silent. -/
abbrev Silently {α : Type} (p : P α) : Prop :=
  p.Each (fun s op => op.silent s = true) (fun _ => True) (fun _ => True)

/-- The transaction that a body commits is silent. -/
def SilentOutcome {α : Type} : Except Err (Txn × α) → Prop
  | .ok x => x.1.silent = true
  | .error _ => True

section Rules

variable {α β : Type}

theorem Silently.outer {p : P α} (h : Silently p) : Outer p := by
  refine Prog.Each.permit h (fun s op hop => ?_)
  cases op with
  | commit o t =>
      simp only [Op.silent, Txn.silent, Bool.and_eq_true] at hop
      simp [Op.outer, hop]
  | post o a r => cases hop
  | leave o => cases hop
  | _ => rfl

theorem Silently.bind {p : P α} {k : α → P β} (hp : Silently p) (hk : ∀ a, Silently (k a)) :
    Silently (p >>= k) :=
  Prog.Each.bind hp (fun a _ => hk a)

theorem Silently.rescue {p : P α} {h : Err → P α} (hp : Silently p) (hh : ∀ e, Silently (h e)) :
    Silently (Remediator.rescue p h) := by
  refine Prog.Each.handle hp (fun e _ => ?_)
  split
  · trivial
  · exact hh e

theorem Silently.tx {o : Owner} {body : Input → Store → Except Err (Txn × α)}
    (h : ∀ i s, SilentOutcome (body i s)) : Silently (Remediator.tx o body) := by
  refine each_tx (fun _ => rfl) (fun _ _ _ _ => trivial) (fun i s t a hbody hm => ⟨?_, trivial⟩)
  have hsilent := h i s
  rw [hbody] at hsilent
  have hsilent : t.silent = true := hsilent
  simp [Op.silent, hsilent, hm]

theorem Silently.unlessFault (i : Input) (a : α) : Silently (Remediator.unlessFault i a) := by
  unfold Remediator.unlessFault
  split
  · trivial
  · trivial

theorem Silently.ask (answer : Input → α) : Silently (Remediator.ask answer) :=
  fun i _ => ⟨rfl, Silently.unlessFault i _⟩

theorem Silently.getIssue (cfg : Settings) : Silently (Remediator.getIssue cfg) :=
  fun i _ => ⟨rfl, Silently.unlessFault i _⟩

theorem Silently.getSession (sid : SessionId) (purpose : GetPurpose) :
    Silently (Remediator.getSession sid purpose) :=
  fun i _ => ⟨rfl, Silently.unlessFault i _⟩

theorem Silently.terminateSession (sid : SessionId) :
    Silently (Remediator.terminateSession sid) :=
  fun i _ => ⟨rfl, Silently.unlessFault i _⟩

theorem Silently.findSessionsByTag (a : Nat) (purpose : FindPurpose) :
    Silently (Remediator.findSessionsByTag a purpose) := by
  intro i s
  refine ⟨?_, Silently.unlessFault i _⟩
  dsimp only
  split
  · rfl
  · rfl

theorem Outer.bind {p : P α} {k : α → P β} (hp : Outer p) (hk : ∀ a, Outer (k a)) :
    Outer (p >>= k) :=
  Prog.Each.bind hp (fun a _ => hk a)

theorem Outer.tx {o : Owner} {body : Input → Store → Except Err (Txn × α)}
    (h : ∀ i s t a, body i s = .ok (t, a) → t.outer = true) : Outer (Remediator.tx o body) :=
  each_tx (fun _ => rfl) (fun _ _ _ _ => trivial)
    (fun i s t a hbody hm => ⟨by simp [Op.outer, h i s t a hbody, hm], trivial⟩)

end Rules

/-! ## The dispatcher -/

/-- A delivery of the label moves the case without a claim. -/
theorem confirmLabelWebhook_outer (cfg : Settings) (st : CaseState) (id : Nat)
    (r : ApprovalRequest) (labels : Option (List String)) {t : Txn} {s : Store}
    (h : t.outer = true) : (confirmLabelWebhook cfg st id r labels t s).1.outer = true := by
  simp only [Txn.outer, Bool.and_eq_true] at h
  unfold confirmLabelWebhook
  dsimp only
  repeat' split
  all_goals simp [Txn.outer, h]

@[simp] theorem confirmLabelWebhook_events (cfg : Settings) (st : CaseState) (id : Nat)
    (r : ApprovalRequest) (labels : Option (List String)) (t : Txn) (s : Store) :
    (confirmLabelWebhook cfg st id r labels t s).1.eventWrites = t.eventWrites := by
  unfold confirmLabelWebhook
  repeat' split
  all_goals rfl

section Dispatcher

variable (d : Dispatcher)

theorem storeToken_silently (r : RequestObj) : Silently (d.storeToken r) := .tx (fun _ _ => rfl)

theorem dispatcherCommit_silently (r : RequestObj) (also : List (Write ApprovalRequest))
    (change : Input → Store → ApprovalRequest) : Silently (d.commit r also change) :=
  .tx (fun _ _ => rfl)

theorem slackApprovalRequest_silently (row : OutboxRow) :
    Silently (d.slackApprovalRequest row) := by
  refine Silently.bind (.tx (fun _ _ => rfl)) (fun found => ?_)
  split
  · trivial
  · next r st =>
      split
      · trivial
      · extract_lets rest
        have hrest : ∀ earlier, Silently (rest earlier) := by
          intro earlier
          cases earlier with
          | inr permanent => trivial
          | inl found =>
              cases found with
              | true => trivial
              | false =>
                  refine Silently.bind (storeToken_silently d r) (fun r => ?_)
                  refine Silently.bind (.ask _) (fun answer => ?_)
                  split <;> trivial
        split
        · exact .bind (.ask _) (fun earlier => hrest earlier)
        · exact hrest (.inl false)

theorem replayLoop_silent {cfg : Settings} {st : CaseState} {s : Store} {es : List WebhookEvent}
    {r : RequestObj} {t : Txn} {x : RequestObj} (h : replayLoop cfg st s es r = (some t, x)) :
    t.silent = true := by
  induction es generalizing r with
  | nil => cases h
  | cons e es ih =>
      rw [replayLoop] at h
      split at h
      · next t' hconfirm =>
          have houter := confirmLabelWebhook_outer cfg st r.id r.row e.issueLabels (s := s)
            (rfl : Txn.outer {} = true)
          have hevents := confirmLabelWebhook_events cfg st r.id r.row e.issueLabels {} s
          rw [hconfirm] at houter hevents
          cases h
          have houter : t.outer = true := houter
          have hevents : t.eventWrites = [] := hevents
          simp [Txn.silent, houter, hevents]
      · exact ih h

theorem replay_silently (r : RequestObj) (st : CaseState) : Silently (d.replay r st) := by
  refine .tx (fun _ s => ?_)
  dsimp only
  split
  · next t x hloop =>
      have hsilent : t.silent = true := replayLoop_silent hloop
      exact hsilent
  · rfl

theorem addLabel_silently (settings : Settings) : Silently (addLabel settings) := by
  refine Silently.bind (.getIssue settings) (fun issue => ?_)
  split
  · trivial
  · split
    · trivial
    · split
      · trivial
      · intro i s
        refine ⟨?_, Silently.unlessFault i _⟩
        dsimp only
        split
        · rfl
        · split <;> rfl

theorem requestLabel_silently (r : RequestObj) (labels : List String) :
    Silently (d.requestLabel r labels) := by
  unfold Dispatcher.requestLabel
  split
  · trivial
  · exact .bind (dispatcherCommit_silently d r [] _) (fun r =>
      .bind (addLabel_silently d.cfg) (fun _ => trivial))

theorem applyLabel_silently (r : RequestObj) (st : CaseState) (labels : List String) :
    Silently (d.applyLabel r st labels) := by
  unfold Dispatcher.applyLabel
  split
  · trivial
  · refine Silently.bind (requestLabel_silently d r labels) (fun answer => ?_)
    split
    · trivial
    · exact .bind (dispatcherCommit_silently d _ [] _) (fun r =>
        .bind (replay_silently d r st) (fun _ => trivial))

theorem ensureComment_silently (r : RequestObj) (also : List (Write ApprovalRequest)) :
    Silently (d.ensureComment r also) := by
  unfold Dispatcher.ensureComment
  split
  · trivial
  · extract_lets rest
    have hrest : ∀ x, Silently (rest x) := fun x => .bind (.ask _) (fun answer => trivial)
    split
    · exact hrest (r, also)
    · exact .bind (dispatcherCommit_silently d r also _) (fun r => hrest (r, []))

theorem githubApplyLabel_silently (row : OutboxRow) : Silently (d.githubApplyLabel row) := by
  refine Silently.bind (.tx (fun _ _ => rfl)) (fun found => ?_)
  split
  · trivial
  · next r st =>
      refine Silently.bind (.getIssue d.cfg) (fun issue => ?_)
      split
      · trivial
      · split
        · trivial
        · refine Silently.bind (applyLabel_silently d r st issue.labels) (fun x => ?_)
          split
          · trivial
          · refine Silently.bind (ensureComment_silently d _ _) (fun y => ?_)
            split <;> trivial

theorem githubRejectionComment_silently (row : OutboxRow) :
    Silently (d.githubRejectionComment row) := by
  refine Silently.bind (.tx (fun _ _ => rfl)) (fun found => ?_)
  split
  · trivial
  · next r st =>
      split
      · trivial
      · split
        · trivial
        · split
          · trivial
          · refine Silently.bind (ensureComment_silently d r []) (fun y => ?_)
            split <;> trivial

theorem handle_silently (row : OutboxRow) : Silently (d.handle row) := by
  unfold Dispatcher.handle
  split
  · exact slackApprovalRequest_silently d row
  · exact githubApplyLabel_silently d row
  · exact githubRejectionComment_silently d row
  · refine Silently.bind (.ask _) (fun answer => ?_)
    split <;> trivial

theorem dispatcherFail_silently (id : Nat) (permanent : Bool) :
    Silently (d.fail id permanent) := by
  refine .tx (fun _ s => ?_)
  dsimp only
  -- the case that waits for its label is moved without a claim
  repeat' split
  all_goals rfl

theorem dispatch_silently (id : Nat) : Silently (d.dispatch id) := by
  refine Silently.bind (.tx (fun _ _ => rfl)) (fun found => ?_)
  split
  · trivial
  · next row =>
      split
      · trivial
      · refine Silently.bind (.rescue (handle_silently d row) (fun _ => trivial))
          (fun handled => ?_)
        split
        · exact .tx (fun _ _ => rfl)
        · exact dispatcherFail_silently d id _

theorem dispatcherClaim_silently : Silently d.claim := by
  refine .tx (fun _ s => ?_)
  dsimp only
  split <;> rfl

end Dispatcher

/-! ## Sessions that are given up -/

theorem deleteAll_silently (found : List SessionId) : Silently (deleteAll found) := by
  induction found with
  | nil => trivial
  | cons x xs ih =>
      refine Silently.bind (.terminateSession x) (fun res => ?_)
      split
      · trivial
      · exact ih

theorem terminateOne_silently (a : AttemptObj) : Silently (terminateOne a) := by
  unfold terminateOne
  split
  · refine Silently.bind (.terminateSession _) (fun res => ?_)
    split <;> trivial
  · split
    · refine Silently.bind (.findSessionsByTag a.id .terminate) (fun found => ?_)
      split
      · trivial
      · exact deleteAll_silently _
    · trivial

theorem terminateLoop_silently (now : Nat) (as : List AttemptObj) :
    Silently (terminateLoop now as) := by
  induction as with
  | nil => trivial
  | cons a as ih =>
      refine Silently.bind (terminateOne_silently a) (fun gone => ?_)
      split
      · exact .bind ih (fun _ => trivial)
      · exact .bind ih (fun _ => trivial)

theorem terminateRunningAttempts_silently (o : Owner) : Silently (terminateRunningAttempts o) :=
  .bind (.tx (fun _ _ => rfl)) (fun x => terminateLoop_silently x.2 x.1)

/-! ## Clicks and operators -/

theorem slackClick_silently (cfg : Settings) (o : Owner) (action : SlackActionInput) :
    Silently (slackClick cfg o action) := by
  refine .tx (fun _ s => ?_)
  show Txn.silent (processSlackAction cfg action s).1 = true
  unfold processSlackAction
  dsimp only
  split
  · rfl
  · split
    · rfl
    · split
      · rfl
      · split
        · rfl
        · unfold decideRound
          repeat' split
          all_goals rfl

theorem expireApproval_silently (cfg : Settings) (o : Owner) (id : Nat) :
    Silently (expireApproval cfg o id) := by
  refine .tx (fun _ s => ?_)
  dsimp only
  repeat' split
  all_goals rfl

theorem retryOutbox_silently (o : Owner) (id : Nat) : Silently (retryOutbox o id) := by
  refine .tx (fun _ s => ?_)
  split
  · trivial
  · split <;> trivial

theorem readState_silently (o : Owner) : Silently (readState o) := by
  refine .tx (fun _ s => ?_)
  split <;> trivial

/-- No attempt of remediation is created in the state. -/
theorem calm_dst {dst : CaseState} (h : dst.calm false = true) :
    dst ≠ .remediationCreateIntent := by
  rintro rfl
  cases h

theorem cancelCase_silently (o : Owner) : Silently (cancelCase o) := by
  refine Silently.bind (readState_silently o) (fun st => ?_)
  extract_lets rest
  have hrest : ∀ owns, Silently (rest owns) := by
    refine fun owns => .tx (fun _ _ => ?_)
    have htarget := calm_dst (cancelTarget_calm st owns)
    show Txn.silent _ = true
    simp [Txn.silent, Txn.outer, operatorMove, htarget]
  split
  · exact hrest true
  · exact .bind (.tx (fun _ _ => rfl)) hrest

theorem retryCase_silently (cfg : Settings) (o : Owner) : Silently (retryCase cfg o) := by
  refine Silently.bind (readState_silently o) (fun st => ?_)
  refine Prog.Each.bind (R := fun x => x.1 ≠ .remediationCreateIntent) ?_ (fun x hx => ?_)
  · refine each_tx (fun _ => rfl) (fun _ _ _ _ => trivial) (fun i s t a hbody _ => ?_)
    dsimp only at hbody
    split at hbody
    · cases hbody
    · next dst hdst =>
        split at hbody
        · cases hbody
        · cases hbody
          exact ⟨rfl, calm_dst (retryTarget_calm hdst)⟩
  · refine Silently.tx (fun _ _ => ?_)
    show Txn.silent _ = true
    simp [Txn.silent, Txn.outer, operatorMove, hx]

theorem verifiedAttemptAction_silent {dst : CaseState} (hdst : dst ≠ .remediationCreateIntent)
    (sources : List CaseState) (stage : FailureStage) (infrastructureOnly : Bool) (s : Store) :
    SilentOutcome ((verifiedAttemptAction dst sources stage infrastructureOnly s).map
      (fun t => (t, ()))) := by
  unfold verifiedAttemptAction
  split
  · trivial
  · split
    · trivial
    · split
      · trivial
      · show Txn.silent _ = true
        simp [Txn.silent, Txn.outer, operatorMove, hdst]

theorem retryCi_silently (o : Owner) : Silently (retryCi o) :=
  .tx (fun _ _ => verifiedAttemptAction_silent (by decide) _ _ _ _)

theorem retryProbe_silently (o : Owner) : Silently (retryProbe o) := by
  refine .tx (fun _ s => ?_)
  split
  · split <;> trivial
  · exact verifiedAttemptAction_silent (by decide) _ _ _ _

/-! ### An operator reads the retained sessions -/

/-- To fail a case is an incident when it is parked. -/
theorem failCase_outer {claim : Option Owner} {st : CaseState} {t : Txn} {s : Store}
    (h : t.outer = true) : (failCase claim st t s).1.outer = true := by
  obtain ⟨hpending, hfailed, -⟩ := phaseForState_calm st false
  have hpending := calm_dst hpending
  have hfailed := calm_dst hfailed
  simp only [Txn.outer, Bool.and_eq_true] at h
  unfold failCase
  dsimp only
  repeat' split
  all_goals simp [Txn.outer, h, hpending, hfailed]

/-- `fail_case` keeps the writes of the events. -/
@[simp] theorem failCase_events (claim : Option Owner) (st : CaseState) (t : Txn) (s : Store) :
    (failCase claim st t s).1.eventWrites = t.eventWrites := by
  unfold failCase
  dsimp only
  repeat' split
  all_goals rfl

theorem failCase_silent {claim : Option Owner} {st : CaseState} {t : Txn} {s : Store}
    (h : t.silent = true) : (failCase claim st t s).1.silent = true := by
  simp only [Txn.silent, Bool.and_eq_true] at h ⊢
  exact ⟨failCase_outer h.1, by rw [failCase_events]; exact h.2⟩

section Retained

variable {r : Runner}

theorem annotate_silently (a : AttemptObj) (reason : Reason) : Silently (r.annotate a reason) :=
  .tx (fun _ _ => rfl)

theorem readRetained_silently (as : List AttemptObj) : Silently (r.readRetained as) := by
  induction as with
  | nil => trivial
  | cons a as ih =>
      unfold Runner.readRetained
      split
      · trivial
      · next sid _ =>
          refine Silently.bind (.getSession sid .reconcile) (fun res => ?_)
          split
          · split
            · exact .bind ih (fun _ => trivial)
            · exact .bind (annotate_silently a _) (fun _ => .bind ih (fun _ => trivial))
          · exact .bind (annotate_silently a _) (fun _ => .bind ih (fun _ => trivial))
          · exact .bind (annotate_silently a _) (fun _ => .bind ih (fun _ => trivial))

theorem reconcileBlocked_silently (hclaim : r.claim = none) (kind : AttemptKind)
    (st : CaseState) : Silently (r.reconcileBlocked kind st) := by
  refine Silently.bind (.tx (fun _ _ => rfl)) (fun candidates => ?_)
  refine Silently.bind (readRetained_silently candidates) (fun read => ?_)
  split
  · trivial
  · refine Silently.bind (.tx (fun _ _ => ?_)) (fun x =>
      .bind (.tx (fun _ _ => rfl)) (fun _ => trivial))
    show Txn.silent _ = true
    have hrunning := calm_dst (phaseForKind_calm kind false).1
    simp only [Txn.silent, Txn.outer, Runner.txn]
    split
    · simp [Runner.move, hclaim, hrunning]
    · rfl

theorem finishTriage_silently (hclaim : r.claim = none) (st : CaseState) (out : RunOutcome) :
    Silently (r.finishTriage st out) := by
  unfold Runner.finishTriage
  split
  · refine .tx (fun _ s => ?_)
    dsimp only
    split
    · exact failCase_silent rfl
    · show Txn.silent (createApprovalRequest _ _ _ _ _) = true
      unfold createApprovalRequest
      split
      · simp [Txn.silent, Txn.outer, Runner.txn, Runner.move, hclaim]
      · simp [Txn.silent, Txn.outer, Runner.txn, Runner.move, hclaim]
  · trivial

end Retained

theorem reconcileSession_silently (cfg : Settings) (o : Owner) (rounds : Nat) :
    Silently (reconcileSession cfg o rounds) := by
  refine Silently.bind (readState_silently o) (fun st => ?_)
  split
  · trivial
  · refine Silently.bind (reconcileBlocked_silently rfl .triage st) (fun found => ?_)
    split
    · trivial
    · exact finishTriage_silently rfl _ _

/-! ## The worker loop around its jobs -/

section Worker

variable (w : Worker)

theorem capEvent_outer (e : EventObj) (st : Option CaseState) : Outer (w.capEvent e st) := by
  unfold Worker.capEvent
  split
  · exact .tx (fun i s t a hbody => by cases hbody; rfl)
  · refine Outer.bind (terminateRunningAttempts_silently w.owner).outer (fun x => ?_)
    refine .tx (fun i s t a hbody => ?_)
    cases hbody
    exact failCase_outer rfl

theorem claimEvent_outer (n : Nat) : Outer (w.claimEvent n) := by
  induction n with
  | zero => trivial
  | succ n ih =>
      refine Outer.bind (.tx (fun i s t a hbody => ?_)) (fun claim => ?_)
      · dsimp only at hbody
        split at hbody
        · cases hbody
          rfl
        · split at hbody
          · cases hbody
            rfl
          · cases hbody
            rfl
      · split
        · trivial
        · trivial
        · next e st =>
            exact .bind (capEvent_outer w e st) (fun _ => ih)

theorem claimCase_outer : Outer w.claimCase := by
  refine .tx (fun i s t a hbody => ?_)
  dsimp only at hbody
  split at hbody <;> (cases hbody; rfl)

theorem releaseCase_outer : Outer w.releaseCase :=
  .tx (fun i s t a hbody => by cases hbody; rfl)

theorem releaseEvent_outer (id : Nat) : Outer (w.releaseEvent id) := by
  refine Outer.bind (.tx (fun i s t a hbody => ?_)) (fun hasCase => ?_)
  · cases hbody
    rfl
  · extract_lets txn rest
    have hrest : ∀ u, Outer (rest u) := fun u => .tx (fun i s t a hbody => by cases hbody; rfl)
    split
    · exact .bind (releaseCase_outer w) hrest
    · exact hrest ()

theorem markFailed_outer {t : Txn} {s : Store} (h : t.outer = true) :
    (w.markFailed t s).outer = true := by
  unfold Worker.markFailed
  dsimp only
  split
  · exact failCase_outer h
  · exact h

theorem onCaseError_outer (e : Err) : Outer (w.onCaseError e) := by
  unfold Worker.onCaseError
  split
  · exact .bind (.tx (fun i s t a hbody => by cases hbody; rfl)) (fun _ => releaseCase_outer w)
  · trivial
  · trivial
  · trivial
  · exact .tx (fun i s t a hbody => by cases hbody; exact markFailed_outer w rfl)

theorem onEventError_outer (id : Nat) (e : Err) : Outer (w.onEventError id e) := by
  unfold Worker.onEventError
  split
  · refine .tx (fun i s t a hbody => ?_)
    dsimp only at hbody
    split at hbody <;> (cases hbody; rfl)
  · trivial
  · trivial
  · trivial
  · refine .tx (fun i s t a hbody => ?_)
    dsimp only at hbody
    split at hbody
    · cases hbody
      rfl
    · cases hbody
      split
      · exact markFailed_outer w rfl
      · rfl

theorem processLabelEvent_outer (r : Runner) (e : EventObj) (st : Option CaseState) :
    Outer (r.processLabelEvent e st) := by
  refine .tx (fun i s t a hbody => ?_)
  dsimp only at hbody
  split at hbody
  · cases hbody
    exact confirmLabelWebhook_outer _ _ _ _ _ rfl
  · cases hbody
    rfl

end Worker

end Remediator
