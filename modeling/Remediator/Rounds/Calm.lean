import Remediator.Effects

set_option autoImplicit false

/-! # Jobs that leave the approval rounds alone

Most of the program has nothing to do with approvals: the session runner, the pipeline and most
of what an operator does. A transaction is *calm* when it writes no round, no delivery and no
outbox row that a handler acts on, and moves the case neither into a state that waits for the
label nor to `REMEDIATION_REJECTED`. The lemmas here go through those programs once; what is
left over are the few places that decide, deliver and confirm.
-/

namespace Remediator

open Interleave

/-! ## Calm transactions -/

/-- No round depends on the state, and without `spends` no attempt of remediation is created in
it. -/
def CaseState.calm (spends : Bool) (st : CaseState) : Bool :=
  !st.awaitsLabel && decide (st ≠ .remediationRejected) &&
    (decide (st ≠ .remediationCreateIntent) || spends)

/-- The worker or the operator moves the case, to such a state. -/
def Move.calm (spends : Bool) (m : Move) : Bool :=
  m.dst.calm spends && (decide (m.actor = .worker) || decide (m.actor = .operator))

/-- With `slots` the transaction may assign the waiting columns or take up the case, with `spends`
it may take up the case, dispatch it or insert an attempt or a snapshot or run of a probe. -/
def Txn.calm (slots spends : Bool) (t : Txn) : Bool :=
  t.approvalWrites.isEmpty && t.newApprovals.isEmpty && t.slackActions.isEmpty &&
    t.eventWrites.isEmpty && t.outboxWrites.isEmpty &&
    t.newOutbox.all (fun row => decide (row.kind = .notification)) &&
    t.moves.all (Move.calm spends) && t.issues.isNone && t.judges.isNone && t.confirmsFrom.isNone && t.replays.isNone &&
    (t.waiting.isNone && !t.starts || slots) &&
    (!t.starts && t.insert.isNone && t.executions.isEmpty && t.snapshots.isEmpty || spends)

/-- What a calm transaction leaves empty. -/
structure Txn.Calm (t : Txn) : Prop where
  approvalWrites : t.approvalWrites = []
  newApprovals : t.newApprovals = []
  slackActions : t.slackActions = []
  eventWrites : t.eventWrites = []
  outboxWrites : t.outboxWrites = []
  newOutbox : ∀ row ∈ t.newOutbox, row.kind = .notification
  moves : ∀ m ∈ t.moves, m.calm true = true
  issues : t.issues = none
  judges : t.judges = none
  confirmsFrom : t.confirmsFrom = none
  replays : t.replays = none

theorem Move.calm_true {spends : Bool} {m : Move} (h : m.calm spends = true) :
    m.calm true = true := by
  simp only [Move.calm, CaseState.calm, Bool.and_eq_true] at h ⊢
  simp [h]

theorem Txn.Calm.of_calm {slots spends : Bool} {t : Txn} (h : t.calm slots spends = true) :
    t.Calm := by
  simp only [Txn.calm, Bool.and_eq_true, List.isEmpty_iff, List.all_eq_true, decide_eq_true_eq,
    Option.isNone_iff_eq_none] at h
  obtain ⟨⟨⟨⟨⟨⟨⟨⟨⟨⟨⟨⟨h₁, h₂⟩, h₃⟩, h₄⟩, h₅⟩, h₆⟩, h₇⟩, h₈⟩, h₉⟩, h₁₀⟩, h₁₁⟩, -⟩, -⟩ := h
  exact ⟨h₁, h₂, h₃, h₄, h₅, h₆, fun m hm => Move.calm_true (h₇ m hm), h₈, h₉, h₁₀, h₁₁⟩

/-- The operations of calm programs; a transaction that is committed has possible moves. -/
def Op.calm (slots spends : Bool) (s : Store) : Op → Bool
  | .skip | .get _ _ _ | .delete _ _ | .find _ _ _ => true
  | .post _ _ _ => spends
  | .commit _ t => t.calm slots spends && movesOk t.moves s.case
  | _ => false

abbrev CalmIn (slots spends : Bool) {α : Type} (p : P α) : Prop :=
  p.Each (fun s op => op.calm slots spends s = true) (fun _ => True) (fun _ => True)

/-- Every action of the program is calm. -/
abbrev Calmly {α : Type} (p : P α) : Prop := CalmIn true true p

/-- Every action of the program is calm, and it asks for no slot. -/
abbrev Slotless {α : Type} (p : P α) : Prop := CalmIn false true p

/-- Every action of the program is calm, and it inserts neither an attempt nor anything about a
probe. -/
abbrev Thrifty {α : Type} (p : P α) : Prop := CalmIn true false p

/-- The transaction that a body commits is calm. -/
def CalmOutcome (slots spends : Bool) {α : Type} : Except Err (Txn × α) → Prop
  | .ok x => x.1.calm slots spends = true
  | .error _ => True

variable {slots spends : Bool}

section Rules

variable {α β : Type}

theorem CalmIn.ret (a : α) : CalmIn slots spends (.ret a) := trivial

theorem CalmIn.raise (e : Err) : CalmIn slots spends (.raise e : P α) := trivial

theorem CalmIn.bind {p : P α} {k : α → P β} (hp : CalmIn slots spends p)
    (hk : ∀ a, CalmIn slots spends (k a)) : CalmIn slots spends (p >>= k) :=
  Prog.Each.bind hp (fun a _ => hk a)

theorem CalmIn.rescue {p : P α} {h : Err → P α} (hp : CalmIn slots spends p)
    (hh : ∀ e, CalmIn slots spends (h e)) : CalmIn slots spends (Remediator.rescue p h) := by
  refine Prog.Each.handle hp (fun e _ => ?_)
  split
  · trivial
  · exact hh e

theorem CalmIn.ite {c : Prop} [Decidable c] {p q : P α} (hp : CalmIn slots spends p)
    (hq : CalmIn slots spends q) : CalmIn slots spends (if c then p else q) := by
  split
  · exact hp
  · exact hq

/-- Two branches with a common rest. -/
theorem CalmIn.iteBind {c : Prop} [Decidable c] {p q : P α} {k : α → P β}
    (hp : CalmIn slots spends p) (hq : CalmIn slots spends q)
    (hk : ∀ a, CalmIn slots spends (k a)) :
    CalmIn slots spends (if c then p >>= k else q >>= k) :=
  .ite (.bind hp hk) (.bind hq hk)

theorem CalmIn.unlessFault (i : Input) (a : α) :
    CalmIn slots spends (Remediator.unlessFault i a) := by
  unfold Remediator.unlessFault
  split
  · trivial
  · trivial

theorem CalmIn.tx {o : Owner} {body : Input → Store → Except Err (Txn × α)}
    (h : ∀ i s, CalmOutcome slots spends (body i s)) :
    CalmIn slots spends (Remediator.tx o body) := by
  refine each_tx (fun _ => rfl) (fun _ _ _ _ => trivial) (fun i s t a hbody hm => ⟨?_, trivial⟩)
  have hcalm := h i s
  rw [hbody] at hcalm
  have hcalm : t.calm slots spends = true := hcalm
  simp [Op.calm, hcalm, hm]

theorem CalmIn.ask (answer : Input → α) : CalmIn slots spends (Remediator.ask answer) :=
  fun i _ => ⟨rfl, CalmIn.unlessFault i _⟩

theorem CalmIn.getIssue (cfg : Settings) : CalmIn slots spends (Remediator.getIssue cfg) :=
  fun i _ => ⟨rfl, CalmIn.unlessFault i _⟩

theorem CalmIn.createSession (o : Owner) (a : Nat) :
    CalmIn slots true (Remediator.createSession o a) :=
  fun i _ => ⟨rfl, CalmIn.unlessFault i _⟩

theorem CalmIn.getSession (sid : SessionId) (purpose : GetPurpose) :
    CalmIn slots spends (Remediator.getSession sid purpose) :=
  fun i _ => ⟨rfl, CalmIn.unlessFault i _⟩

theorem CalmIn.terminateSession (sid : SessionId) :
    CalmIn slots spends (Remediator.terminateSession sid) :=
  fun i _ => ⟨rfl, CalmIn.unlessFault i _⟩

theorem CalmIn.findSessionsByTag (a : Nat) (purpose : FindPurpose) :
    CalmIn slots spends (Remediator.findSessionsByTag a purpose) := by
  intro i s
  refine ⟨?_, CalmIn.unlessFault i _⟩
  dsimp only
  split
  · rfl
  · rfl

end Rules

/-! ## Moves and outbox rows -/

@[simp] theorem runner_move_calm (r : Runner) (st dst : CaseState) :
    (r.move st dst).calm spends = dst.calm spends := by
  simp [Move.calm, Runner.move]

@[simp] theorem operatorMove_calm (st dst : CaseState) :
    (operatorMove st dst).calm spends = dst.calm spends := by
  simp [Move.calm, operatorMove]

@[simp] theorem statusUpdate_calm (id : Nat) (r : ApprovalRequest) :
    (statusUpdate id r).all (fun row => decide (row.kind = .notification)) = true := by
  unfold statusUpdate
  split
  · rfl
  · rfl

@[simp] theorem notifyRemediation_calm (s : Store) :
    (notifyRemediation s).all (fun row => decide (row.kind = .notification)) = true := by
  unfold notifyRemediation
  split
  · exact statusUpdate_calm _ _
  · rfl

@[simp] theorem notice_kind : notice.kind = .notification := rfl

/-- No phase uses a state that a round depends on. -/
theorem phaseForKind_calm (kind : AttemptKind) (spends : Bool) :
    (phaseForKind kind).running.calm spends = true ∧
      (phaseForKind kind).reconciling.calm spends = true ∧
      (phaseForKind kind).humanBlocked.calm spends = true ∧
      (phaseForKind kind).terminationPending.calm spends = true ∧
      (phaseForKind kind).timedOut.calm spends = true ∧
      (phaseForKind kind).failed.calm spends = true ∧
      (phaseForKind kind).cancelled.calm spends = true := by
  cases kind <;> cases spends <;> decide

theorem phaseForState_calm (st : CaseState) (spends : Bool) :
    (phaseForState st).terminationPending.calm spends = true ∧
      (phaseForState st).failed.calm spends = true ∧
      (phaseForState st).cancelled.calm spends = true := by
  unfold phaseForState
  cases spends <;> split <;> decide

theorem failCase_calm {claim : Option Owner} {st : CaseState} {t : Txn} {s : Store}
    (h : t.calm slots spends = true) : (failCase claim st t s).1.calm slots spends = true := by
  have hp := phaseForState_calm st spends
  simp only [Txn.calm, Bool.and_eq_true] at h
  unfold failCase
  dsimp only
  split
  · simp [Txn.calm, h]
  · split
    · simp [Txn.calm, Move.calm, h, hp]
    · split
      · simp [Txn.calm, h]
      · simp [Txn.calm, Move.calm, h, hp]

/-! ## The session runner -/

section Runner

variable (r : Runner)

theorem fail_calmly (st : CaseState) (a : AttemptObj) : CalmIn slots spends (r.fail st a) :=
  .tx (fun _ _ => failCase_calm rfl)

theorem markTerminated_calmly (st : CaseState) (a : AttemptObj) :
    CalmIn slots spends (r.markTerminated st a) := by
  refine .tx (fun _ s => ?_)
  have hp := phaseForKind_calm a.row.kind spends
  have hcalm : ∀ (x : AttemptStatus × CaseState × RunResult) (ws : List (Write Attempt)),
      x.2.1.calm spends = true → ({ r.txn with
        writes := ws, moves := [r.move st x.2.1], failureReason := some (some .other)
        newOutbox := [notice] } : Txn).calm slots spends = true := by
    intro x ws hx
    simp [Txn.calm, Runner.txn, hx]
  have htarget : ∀ c c' : Prop, ∀ [Decidable c] [Decidable c'],
      (if c then (AttemptStatus.cancelled, (phaseForKind a.row.kind).cancelled, RunResult.failed)
        else if c' then (.failed, (phaseForKind a.row.kind).failed, .failed)
        else (.timedOut, (phaseForKind a.row.kind).timedOut, .timedOut)).2.1.calm spends =
          true := by
    intro c c' _ _
    split
    · exact hp.2.2.2.2.2.2
    · split
      · exact hp.2.2.2.2.2.1
      · exact hp.2.2.2.2.1
  exact hcalm _ _ (htarget _ _)

theorem deleteAll_calmly (found : List SessionId) : CalmIn slots spends (deleteAll found) := by
  induction found with
  | nil => trivial
  | cons x xs ih =>
      refine CalmIn.bind (.terminateSession x) (fun res => ?_)
      split
      · trivial
      · exact ih

theorem deleteTagged_calmly (a : Nat) : CalmIn slots spends (deleteTagged a) := by
  refine CalmIn.bind (.findSessionsByTag a .terminate) (fun found => ?_)
  split
  · trivial
  · exact deleteAll_calmly _

theorem terminateByTag_calmly (st : CaseState) (a : AttemptObj) :
    CalmIn slots spends (r.terminateByTag st a) :=
  .bind (deleteTagged_calmly a.id) (fun _ =>
    .ite (markTerminated_calmly r st a) (.tx (fun _ _ => rfl)))

theorem settle_calmly (st : CaseState) (a : AttemptObj) (snap : Devin.SessionSnapshot)
    (d : Devin.Disposition) : CalmIn slots spends (r.settle st a snap d) := by
  unfold Runner.settle
  split
  · exact .tx (fun _ _ => rfl)
  · refine .tx (fun _ _ => ?_)
    have hp := phaseForKind_calm a.row.kind spends
    show Txn.calm _ _ _ = true
    simp [Txn.calm, Runner.txn, hp]
  · exact fail_calmly r st a

theorem terminate_calmly (st : CaseState) (a : AttemptObj) (sid : SessionId) :
    CalmIn slots spends (r.terminate st a sid) := by
  refine CalmIn.bind (.terminateSession sid) (fun res => ?_)
  split
  · refine .tx (fun _ _ => ?_)
    have hp := phaseForKind_calm a.row.kind spends
    show Txn.calm _ _ _ = true
    simp only [Txn.calm, Runner.txn]
    split
    · rfl
    · simp [hp]
  · exact markTerminated_calmly r st a

theorem rerun_calmly (a : AttemptObj) : CalmIn slots spends (r.rerun a) := .tx (fun _ _ => rfl)

theorem handleTimeout_calmly (st : CaseState) (a : AttemptObj) (sid : SessionId) :
    CalmIn slots spends (r.handleTimeout st a sid) := by
  refine CalmIn.bind (.getSession sid .settle) (fun res => ?_)
  split
  · exact markTerminated_calmly r st a
  · exact terminate_calmly r st a sid
  · next snap =>
      generalize Devin.disposition snap = mapping
      dsimp only
      split
      · exact .ite (markTerminated_calmly r st a)
          (.bind (rerun_calmly r a) (fun a => settle_calmly r st a snap .failed))
      · exact .bind (rerun_calmly r a) (fun a => settle_calmly r st a snap .finished)
      · exact .bind (rerun_calmly r a) (fun a => settle_calmly r st a snap .waitingForHuman)
      · split
        · exact markTerminated_calmly r st a
        · exact terminate_calmly r st a sid

theorem attach_calmly (st : CaseState) (a : AttemptObj) (sid : SessionId) (create : CreateState) :
    CalmIn slots spends (r.attach st a sid create) := by
  refine CalmIn.rescue (.tx (fun _ _ => ?_)) (fun e => ?_)
  · have hp := phaseForKind_calm a.row.kind spends
    show Txn.calm _ _ _ = true
    simp [Txn.calm, Runner.txn, hp]
  · split
    · refine CalmIn.bind ?_ (fun _ => ?_)
      · exact .tx (fun _ _ => rfl)
      · exact CalmIn.bind (.terminateSession sid) (fun _ => CalmIn.raise _)
    · exact CalmIn.raise e

theorem lookups_calmly (a n : Nat) : CalmIn slots spends (lookups a n) := by
  induction n with
  | zero => trivial
  | succ n ih =>
      refine CalmIn.bind (.findSessionsByTag a .attach) (fun found => ?_)
      split
      · trivial
      · exact ih

theorem unresolved_calmly (st : CaseState) (a : AttemptObj) :
    CalmIn slots spends (r.unresolved st a) := by
  refine .tx (fun _ _ => ?_)
  have hp := phaseForKind_calm a.row.kind spends
  show Txn.calm _ _ _ = true
  simp [Txn.calm, Runner.txn, hp]

theorem reconcileCreate_calmly (st : CaseState) (a : AttemptObj) :
    CalmIn slots spends (r.reconcileCreate st a) := by
  refine CalmIn.bind (.tx (fun _ _ => ?_)) (fun x => ?_)
  · have hp := phaseForKind_calm a.row.kind spends
    show Txn.calm _ _ _ = true
    simp only [Txn.calm, Runner.txn]
    split
    · simp [hp]
    · rfl
  · refine CalmIn.bind (lookups_calmly x.2.id _) (fun found => ?_)
    split
    · exact .bind (attach_calmly r x.1 x.2 _ .reconciled) (fun _ => trivial)
    · exact .bind (unresolved_calmly r x.1 x.2) (fun _ => trivial)

theorem settlePrevious_calmly (now : Nat) (as : List AttemptObj) (ws : List (Write Attempt)) :
    CalmIn slots spends (settlePrevious now as ws) := by
  induction as generalizing ws with
  | nil => trivial
  | cons a as ih =>
      unfold settlePrevious
      refine CalmIn.ite (.ite trivial (ih _)) ?_
      split
      · exact ih ws
      · next sid _ =>
          refine CalmIn.bind (.getSession sid .inspect) (fun res => ?_)
          split
          · exact ih _
          · trivial
          · refine CalmIn.ite trivial (.bind (.terminateSession sid) (fun res => ?_))
            split
            · trivial
            · exact ih _

theorem refuse_calmly (st : CaseState) (ws : List (Write Attempt)) :
    CalmIn slots spends (r.refuse st ws) :=
  .tx (fun _ _ => failCase_calm rfl)

theorem failCreate_calmly (st : CaseState) (a : AttemptObj) (create : CreateState) :
    CalmIn slots spends (r.failCreate st a create) :=
  .tx (fun _ _ => failCase_calm rfl)

theorem send_calmly (st : CaseState) (a : AttemptObj) : CalmIn slots true (r.send st a) := by
  refine CalmIn.bind (.ask _) (fun built => .ite (failCreate_calmly r st a .notSent) ?_)
  refine CalmIn.bind (.tx (fun _ _ => rfl)) (fun a => ?_)
  refine CalmIn.bind (.createSession r.owner a.id) (fun res => ?_)
  split
  · exact failCreate_calmly r st a .apiError
  · refine CalmIn.bind (.tx (fun _ _ => ?_)) (fun x => reconcileCreate_calmly r x.1 x.2)
    have hp := phaseForKind_calm a.row.kind true
    show Txn.calm _ _ _ = true
    simp [Txn.calm, Runner.txn, hp]
  · exact .bind (attach_calmly r st a _ .created) (fun _ => trivial)

theorem create_calmly (kind : AttemptKind) (st : CaseState) :
    CalmIn slots true (r.create kind st) := by
  refine CalmIn.bind (.tx (fun _ _ => rfl)) (fun x => .ite (refuse_calmly r st []) ?_)
  refine CalmIn.bind (settlePrevious_calmly x.2.2 x.2.1 []) (fun y =>
    .ite (refuse_calmly r st y.1) ?_)
  refine CalmIn.bind (.tx (fun _ _ => rfl)) (fun _ => .ite (refuse_calmly r st []) ?_)
  exact .ite trivial (.bind (.tx (fun _ _ => rfl)) (fun a => send_calmly r st a))

theorem pollCheck_calmly (a : AttemptObj) : CalmIn slots spends (r.pollCheck a) := by
  refine .tx (fun _ s => ?_)
  dsimp only
  split
  · rfl
  · split
    · rfl
    · rfl

theorem recordPoll_calmly (a : AttemptObj) (status : AttemptStatus) (reason : Option Reason) :
    CalmIn slots spends (r.recordPoll a status reason) :=
  .tx (fun _ _ => rfl)

theorem poll_calmly (sid : SessionId) (n : Nat) (st : CaseState) (a : AttemptObj) :
    CalmIn slots spends (r.poll sid n st a) := by
  induction n generalizing st a with
  | zero => trivial
  | succ n ih =>
      refine CalmIn.bind (pollCheck_calmly r a) (fun check => ?_)
      split
      · exact handleTimeout_calmly r _ _ sid
      · exact handleTimeout_calmly r _ a sid
      · refine CalmIn.bind (.getSession sid .settle) (fun res => ?_)
        split
        · exact fail_calmly r _ a
        · exact .bind (recordPoll_calmly r a _ _) (fun a => ih _ a)
        · next snap =>
            generalize (Devin.disposition snap).disposition = d
            split
            · exact .bind (recordPoll_calmly r a _ _) (fun a => ih _ a)
            · exact .bind (recordPoll_calmly r a _ _) (fun a => ih _ a)
            · exact .bind (recordPoll_calmly r a _ _) (fun a => settle_calmly r _ a snap _)

theorem startPoll_calmly (st : CaseState) (a : AttemptObj) :
    CalmIn slots spends (r.startPoll st a) := by
  unfold Runner.startPoll
  split
  · trivial
  · exact .iteBind (.ret a) (.tx (fun _ _ => rfl)) (fun a => poll_calmly r _ _ st a)

theorem acquireSlot_calmly (st : CaseState) (kind : Capacity.LeaseKind) :
    CalmIn true spends (r.acquireSlot st kind) :=
  .tx (fun _ _ => rfl)

theorem run_calmly (kind : AttemptKind) (st : CaseState) : Calmly (r.run kind st) := by
  refine CalmIn.bind (.tx (fun _ _ => rfl)) (fun active => ?_)
  split
  · refine CalmIn.bind (acquireSlot_calmly r _ _) (fun granted => .ite trivial ?_)
    refine CalmIn.bind (create_calmly r kind st) (fun x => ?_)
    split
    · trivial
    · exact (startPoll_calmly r _ _)
  · next a =>
      refine CalmIn.ite ?_ (.ite ?_ ?_)
      · split
        · exact (terminateByTag_calmly r st a)
        · exact (handleTimeout_calmly r st a _)
      · refine CalmIn.bind (reconcileCreate_calmly r st a) (fun x => ?_)
        split
        · trivial
        · exact (startPoll_calmly r _ _)
      · refine CalmIn.bind (.tx (fun _ _ => ?_)) (fun st => (startPoll_calmly r st a))
        have hp := phaseForKind_calm kind true
        split
        · show Txn.calm _ _ _ = true
          simp [Txn.calm, Runner.txn, hp]
        · rfl

theorem annotate_calmly (a : AttemptObj) (reason : Reason) :
    CalmIn slots spends (r.annotate a reason) :=
  .tx (fun _ _ => rfl)

theorem readRetained_calmly (as : List AttemptObj) : CalmIn slots spends (r.readRetained as) := by
  induction as with
  | nil => trivial
  | cons a as ih =>
      unfold Runner.readRetained
      split
      · trivial
      · next sid _ =>
          refine CalmIn.bind (.getSession sid .reconcile) (fun res => ?_)
          split
          · exact .ite (.bind ih (fun _ => trivial))
              (.bind (annotate_calmly r a _) (fun _ => .bind ih (fun _ => trivial)))
          · exact .bind (annotate_calmly r a _) (fun _ => .bind ih (fun _ => trivial))
          · exact .bind (annotate_calmly r a _) (fun _ => .bind ih (fun _ => trivial))

theorem reconcileBlocked_calmly (kind : AttemptKind) (st : CaseState) :
    CalmIn slots spends (r.reconcileBlocked kind st) := by
  refine CalmIn.bind (.tx (fun _ _ => rfl)) (fun candidates => ?_)
  refine CalmIn.bind (readRetained_calmly r candidates) (fun read => ?_)
  split
  · trivial
  · refine CalmIn.bind (.tx (fun _ _ => ?_)) (fun x =>
      .bind (settle_calmly r x.1 x.2 _ .finished) (fun _ => trivial))
    have hp := phaseForKind_calm kind spends
    show Txn.calm _ _ _ = true
    simp only [Txn.calm, Runner.txn]
    split
    · simp [hp]
    · rfl

end Runner

theorem terminateOne_calmly (a : AttemptObj) : CalmIn slots spends (terminateOne a) := by
  unfold terminateOne
  split
  · refine CalmIn.bind (.terminateSession _) (fun res => ?_)
    split
    · trivial
    · trivial
  · exact .ite (deleteTagged_calmly a.id) trivial

theorem terminateLoop_calmly (now : Nat) (as : List AttemptObj) :
    CalmIn slots spends (terminateLoop now as) := by
  induction as with
  | nil => trivial
  | cons a as ih =>
      exact CalmIn.bind (terminateOne_calmly a) (fun _ =>
        .ite (.bind ih (fun _ => trivial)) (.bind ih (fun _ => trivial)))

theorem terminateRunningAttempts_calmly (o : Owner) :
    CalmIn slots spends (terminateRunningAttempts o) :=
  .bind (.tx (fun _ _ => rfl)) (fun x => terminateLoop_calmly x.2 x.1)

end Remediator
