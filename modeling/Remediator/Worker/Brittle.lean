import Remediator.Lib.Faults
import Remediator.Worker.Processor

set_option autoImplicit false

/-! # A value that is not stored ends the job

None of the handlers inside the session runner, the pipeline and the processor survives a value
that the database rejects: the job ends with that exception, and with no other cause for it.
-/

namespace Remediator

open Interleave

/-- The database rejects a value of this action. -/
def Rejected (i : Input) : Prop := i.fault = some .data

/-- Every rejected value ends the program. -/
abbrev Breaks {α : Type} (p : P α) : Prop := p.Brittle Rejected .data

section Rules

variable {α β : Type}

theorem Breaks.raise {e : Err} (h : e ≠ .data) : Breaks (.raise e : P α) := h

theorem Breaks.bind {p : P α} {k : α → P β} (hp : Breaks p) (hk : ∀ a, Breaks (k a)) :
    Breaks (p >>= k) :=
  Prog.Brittle.bind hp hk

theorem Breaks.rescue {p : P α} {h : Err → P α} (hp : Breaks p) (hpass : h .data = .raise .data)
    (hh : ∀ e, e ≠ .data → Breaks (h e)) : Breaks (Remediator.rescue p h) := by
  refine Prog.Brittle.handle hp ?_ (fun e he => ?_)
  · rw [if_neg (by decide)]
    exact hpass
  · split
    · exact Breaks.raise (by decide)
    · exact hh e he

theorem Breaks.ite {c : Prop} [Decidable c] {p q : P α} (hp : Breaks p) (hq : Breaks q) :
    Breaks (if c then p else q) := by
  split
  · exact hp
  · exact hq

/-- Two branches with a common rest. -/
theorem Breaks.iteBind {c : Prop} [Decidable c] {p q : P α} {k : α → P β} (hp : Breaks p)
    (hq : Breaks q) (hk : ∀ a, Breaks (k a)) : Breaks (if c then p >>= k else q >>= k) :=
  .ite (.bind hp hk) (.bind hq hk)

/-- A call whose answer is a fault raises it. -/
theorem Breaks.call {op : Input → Store → Op} {answer : Input → Store → α} :
    Breaks (.act op (fun i s => unlessFault i (answer i s)) : P α) := by
  intro i s
  show (Rejected i → unlessFault i (answer i s) = .raise .data) ∧
    (¬ Rejected i → Breaks (unlessFault i (answer i s)))
  unfold unlessFault
  constructor
  · intro hbad
    rw [show i.fault = some .data from hbad]
    rfl
  · intro hgood
    cases hf : i.fault with
    | none => trivial
    | some f =>
        refine Breaks.raise (fun he => ?_)
        cases f with
        | transientDb => cases he
        | data => exact hgood hf
        | other => cases he

theorem Breaks.ask (answer : Input → α) : Breaks (Remediator.ask answer) := .call

theorem Breaks.getIssue (cfg : Settings) : Breaks (Remediator.getIssue cfg) := .call

theorem Breaks.createSession (o : Owner) (a : Nat) : Breaks (Remediator.createSession o a) := .call

theorem Breaks.getSession (sid : SessionId) (purpose : GetPurpose) :
    Breaks (Remediator.getSession sid purpose) := .call

theorem Breaks.terminateSession (sid : SessionId) : Breaks (Remediator.terminateSession sid) :=
  .call

theorem Breaks.findSessionsByTag (a : Nat) (purpose : FindPurpose) :
    Breaks (Remediator.findSessionsByTag a purpose) := .call

/-- A transaction; its body does not raise the exception by itself. -/
theorem Breaks.tx {o : Owner} {body : Input → Store → Except Err (Txn × α)}
    (h : ∀ i s, body i s ≠ .error .data) : Breaks (Remediator.tx o body) := by
  intro i s
  constructor
  · intro hbad
    have hout : Txn.outcome body i s = .error .data := by
      unfold Txn.outcome
      rw [show i.fault = some .data from hbad]
      rfl
    simp only [hout]
  · intro hgood
    dsimp only
    cases hout : Txn.outcome body i s with
    | ok x => trivial
    | error e =>
        refine Breaks.raise (fun he => ?_)
        subst he
        unfold Txn.outcome at hout
        split at hout
        · next f hf =>
            cases f with
            | transientDb => cases hout
            | data => exact hgood hf
            | other => cases hout
        · split at hout
          · next hbody =>
              cases hout
              exact h i s hbody
          · split at hout
            · cases hout
            · split at hout
              · cases hout
              · cases hout

/-- A transaction whose body does not raise. -/
theorem Breaks.write {o : Owner} {body : Input → Store → Txn × α} :
    Breaks (Remediator.tx o (fun i s => .ok (body i s))) := by
  refine Breaks.tx (fun i s h => ?_)
  cases h

end Rules

/-! ## The session runner -/

section Runner

variable (r : Runner)

theorem fail_breaks (st : CaseState) (a : AttemptObj) : Breaks (r.fail st a) := .write

theorem markTerminated_breaks (st : CaseState) (a : AttemptObj) :
    Breaks (r.markTerminated st a) := .write

theorem deleteAll_breaks (found : List SessionId) : Breaks (deleteAll found) := by
  induction found with
  | nil => trivial
  | cons x xs ih =>
      refine Breaks.bind (.terminateSession x) (fun res => ?_)
      split
      · trivial
      · exact ih

theorem deleteTagged_breaks (a : Nat) : Breaks (deleteTagged a) := by
  refine Breaks.bind (.findSessionsByTag a .terminate) (fun found => ?_)
  split
  · trivial
  · exact deleteAll_breaks _

theorem terminateByTag_breaks (st : CaseState) (a : AttemptObj) :
    Breaks (r.terminateByTag st a) :=
  .bind (deleteTagged_breaks a.id) (fun _ => .ite (markTerminated_breaks r st a) .write)

theorem settle_breaks (st : CaseState) (a : AttemptObj) (snap : Devin.SessionSnapshot)
    (d : Devin.Disposition) : Breaks (r.settle st a snap d) := by
  unfold Runner.settle
  split
  · exact .write
  · exact .write
  · exact fail_breaks r st a

theorem terminate_breaks (st : CaseState) (a : AttemptObj) (sid : SessionId) :
    Breaks (r.terminate st a sid) := by
  refine Breaks.bind (.terminateSession sid) (fun res => ?_)
  split
  · exact .write
  · exact markTerminated_breaks r st a

theorem rerun_breaks (a : AttemptObj) : Breaks (r.rerun a) := .write

theorem handleTimeout_breaks (st : CaseState) (a : AttemptObj) (sid : SessionId) :
    Breaks (r.handleTimeout st a sid) := by
  refine Breaks.bind (.getSession sid .settle) (fun res => ?_)
  split
  · exact markTerminated_breaks r st a
  · exact terminate_breaks r st a sid
  · next snap =>
      generalize Devin.disposition snap = mapping
      dsimp only
      split
      · exact .ite (markTerminated_breaks r st a)
          (.bind (rerun_breaks r a) (fun a => settle_breaks r st a snap .failed))
      · exact .bind (rerun_breaks r a) (fun a => settle_breaks r st a snap .finished)
      · exact .bind (rerun_breaks r a) (fun a => settle_breaks r st a snap .waitingForHuman)
      · exact .ite (markTerminated_breaks r st a) (terminate_breaks r st a sid)

/-- The handler of a lost transition lets the exception pass. -/
theorem attach_breaks (st : CaseState) (a : AttemptObj) (sid : SessionId) (create : CreateState) :
    Breaks (r.attach st a sid create) := by
  refine Breaks.rescue .write rfl (fun e he => ?_)
  split
  · exact .bind .write (fun _ => .bind (.terminateSession sid) (fun _ => .raise (by decide)))
  · exact .raise he

theorem lookups_breaks (a n : Nat) : Breaks (lookups a n) := by
  induction n with
  | zero => trivial
  | succ n ih =>
      refine Breaks.bind (.findSessionsByTag a .attach) (fun found => ?_)
      split
      · trivial
      · exact ih

theorem unresolved_breaks (st : CaseState) (a : AttemptObj) : Breaks (r.unresolved st a) := .write

theorem reconcileCreate_breaks (st : CaseState) (a : AttemptObj) :
    Breaks (r.reconcileCreate st a) := by
  refine Breaks.bind .write (fun x => ?_)
  refine Breaks.bind (lookups_breaks x.2.id _) (fun found => ?_)
  split
  · exact .bind (attach_breaks r x.1 x.2 _ .reconciled) (fun _ => trivial)
  · exact .bind (unresolved_breaks r x.1 x.2) (fun _ => trivial)

theorem settlePrevious_breaks (now : Nat) (as : List AttemptObj) (ws : List (Write Attempt)) :
    Breaks (settlePrevious now as ws) := by
  induction as generalizing ws with
  | nil => trivial
  | cons a as ih =>
      unfold settlePrevious
      refine Breaks.ite (.ite trivial (ih _)) ?_
      split
      · exact ih ws
      · next sid _ =>
          refine Breaks.bind (.getSession sid .inspect) (fun res => ?_)
          split
          · exact ih _
          · trivial
          · refine Breaks.ite trivial (.bind (.terminateSession sid) (fun res => ?_))
            split
            · trivial
            · exact ih _

theorem refuse_breaks (st : CaseState) (ws : List (Write Attempt)) : Breaks (r.refuse st ws) :=
  .write

theorem failCreate_breaks (st : CaseState) (a : AttemptObj) (create : CreateState) :
    Breaks (r.failCreate st a create) := .write

theorem send_breaks (st : CaseState) (a : AttemptObj) : Breaks (r.send st a) := by
  refine Breaks.bind (.ask _) (fun built => .ite (failCreate_breaks r st a .notSent) ?_)
  refine Breaks.bind .write (fun a => ?_)
  refine Breaks.bind (.createSession r.owner a.id) (fun res => ?_)
  split
  · exact failCreate_breaks r st a .apiError
  · exact .bind .write (fun x => reconcileCreate_breaks r x.1 x.2)
  · exact .bind (attach_breaks r st a _ .created) (fun _ => trivial)

theorem create_breaks (kind : AttemptKind) (st : CaseState) : Breaks (r.create kind st) := by
  refine Breaks.bind .write (fun x => .ite (refuse_breaks r st []) ?_)
  refine Breaks.bind (settlePrevious_breaks x.2.2 x.2.1 []) (fun y =>
    .ite (refuse_breaks r st y.1) ?_)
  refine Breaks.bind .write (fun _ => .ite (refuse_breaks r st []) ?_)
  exact .ite (.raise (by decide)) (.bind .write (fun a => send_breaks r st a))

theorem pollCheck_breaks (a : AttemptObj) : Breaks (r.pollCheck a) := by
  refine Breaks.tx (fun i s h => ?_)
  dsimp only at h
  split at h
  · cases h
  · split at h
    · cases h
    · cases h

theorem recordPoll_breaks (a : AttemptObj) (status : AttemptStatus) (reason : Option Reason) :
    Breaks (r.recordPoll a status reason) := .write

theorem poll_breaks (sid : SessionId) (n : Nat) (st : CaseState) (a : AttemptObj) :
    Breaks (r.poll sid n st a) := by
  induction n generalizing st a with
  | zero => exact .raise (by decide)
  | succ n ih =>
      refine Breaks.bind (pollCheck_breaks r a) (fun check => ?_)
      split
      · exact handleTimeout_breaks r _ _ sid
      · exact handleTimeout_breaks r _ a sid
      · refine Breaks.bind (.getSession sid .settle) (fun res => ?_)
        split
        · exact fail_breaks r _ a
        · exact .bind (recordPoll_breaks r a _ _) (fun a => ih _ a)
        · next snap =>
            generalize (Devin.disposition snap).disposition = d
            split
            · exact .bind (recordPoll_breaks r a _ _) (fun a => ih _ a)
            · exact .bind (recordPoll_breaks r a _ _) (fun a => ih _ a)
            · exact .bind (recordPoll_breaks r a _ _) (fun a => settle_breaks r _ a snap _)

theorem startPoll_breaks (st : CaseState) (a : AttemptObj) : Breaks (r.startPoll st a) := by
  unfold Runner.startPoll
  split
  · exact .raise (by decide)
  · exact .iteBind trivial .write (fun a => poll_breaks r _ _ st a)

theorem acquireSlot_breaks (st : CaseState) (kind : Capacity.LeaseKind) :
    Breaks (r.acquireSlot st kind) := .write

theorem run_breaks (kind : AttemptKind) (st : CaseState) : Breaks (r.run kind st) := by
  refine Breaks.bind .write (fun active => ?_)
  split
  · refine Breaks.bind (acquireSlot_breaks r _ _) (fun granted => .ite trivial ?_)
    refine Breaks.bind (create_breaks r kind st) (fun x => ?_)
    split
    · trivial
    · exact startPoll_breaks r _ _
  · next a =>
      refine Breaks.ite ?_ (.ite ?_ ?_)
      · split
        · exact terminateByTag_breaks r st a
        · exact handleTimeout_breaks r st a _
      · refine Breaks.bind (reconcileCreate_breaks r st a) (fun x => ?_)
        split
        · trivial
        · exact startPoll_breaks r _ _
      · refine Breaks.bind (.tx (fun i s h => ?_)) (fun st => startPoll_breaks r st a)
        dsimp only at h
        split at h
        · cases h
        · cases h

theorem annotate_breaks (a : AttemptObj) (reason : Reason) : Breaks (r.annotate a reason) := .write

theorem readRetained_breaks (as : List AttemptObj) : Breaks (r.readRetained as) := by
  induction as with
  | nil => trivial
  | cons a as ih =>
      unfold Runner.readRetained
      split
      · exact .raise (by decide)
      · next sid _ =>
          refine Breaks.bind (.getSession sid .reconcile) (fun res => ?_)
          split
          · exact .ite (.bind ih (fun _ => trivial))
              (.bind (annotate_breaks r a _) (fun _ => .bind ih (fun _ => trivial)))
          · exact .bind (annotate_breaks r a _) (fun _ => .bind ih (fun _ => trivial))
          · exact .bind (annotate_breaks r a _) (fun _ => .bind ih (fun _ => trivial))

theorem reconcileBlocked_breaks (kind : AttemptKind) (st : CaseState) :
    Breaks (r.reconcileBlocked kind st) := by
  refine Breaks.bind .write (fun candidates => ?_)
  refine Breaks.bind (readRetained_breaks r candidates) (fun read => ?_)
  split
  · trivial
  · exact .bind .write (fun x => .bind (settle_breaks r x.1 x.2 _ .finished) (fun _ => trivial))

theorem terminateOne_breaks (a : AttemptObj) : Breaks (terminateOne a) := by
  unfold terminateOne
  split
  · refine Breaks.bind (.terminateSession _) (fun res => ?_)
    split
    · trivial
    · trivial
  · exact .ite (deleteTagged_breaks a.id) trivial

theorem terminateLoop_breaks (now : Nat) (as : List AttemptObj) :
    Breaks (terminateLoop now as) := by
  induction as with
  | nil => trivial
  | cons a as ih =>
      exact Breaks.bind (terminateOne_breaks a) (fun _ =>
        .ite (.bind ih (fun _ => trivial)) (.bind ih (fun _ => trivial)))

theorem terminateRunningAttempts_breaks (o : Owner) :
    Breaks (terminateRunningAttempts o) :=
  .bind .write (fun x => terminateLoop_breaks x.2 x.1)

end Runner

/-! ## The pipeline -/

section Pipeline

variable (r : Runner)

theorem failDispatch_breaks (st : CaseState) : Breaks (r.failDispatch st) := .write

theorem humanBlock_breaks (st : CaseState) (reason : Reason) : Breaks (r.humanBlock st reason) :=
  .write

theorem notify_breaks : Breaks r.notify := .write

theorem milestone_breaks (before now : CaseState) : Breaks (r.milestone before now) :=
  .ite (notify_breaks r) trivial

theorem dispatchWithoutProbe_breaks (st : CaseState) (hash : String) :
    Breaks (r.dispatchWithoutProbe st hash) := by
  have hlast : ∀ sha : Option String,
      Breaks (tx r.owner (r.decideWithoutProbe st hash sha)) := by
    intro sha
    refine Breaks.tx (fun i s => ?_)
    unfold Runner.decideWithoutProbe
    split
    · split
      · simp
      · simp
    · simp
  refine Breaks.bind .write (fun existing => .ite (hlast none) (.bind (.ask _) (fun answer => ?_)))
  split
  · exact hlast (some _)
  · exact .raise (by decide)

theorem dispatch_breaks (st : CaseState) : Breaks (r.dispatch st) := by
  have hfail := failDispatch_breaks r st
  have hblock := humanBlock_breaks r st
  refine Breaks.ite hfail (.bind .write (fun found => ?_))
  split
  · exact hfail
  · generalize Devin.normalize r.cfg.githubBaseRef = ref
    refine Breaks.ite hfail (.bind (.getIssue r.cfg) (fun issue => ?_))
    refine Breaks.ite (.raise (by decide)) (.ite hfail (.ite (hblock .other) ?_))
    refine Breaks.bind .write (fun busy => .ite (hblock .other) ?_)
    refine Breaks.bind (.ask _) (fun registry => ?_)
    split
    · exact .ite (hblock .missingProbe) (dispatchWithoutProbe_breaks r st _)
    · exact hblock .other
    · exact .write

theorem resumeMissingProbe_breaks (st : CaseState) (reason : Option Reason) :
    Breaks (r.resumeMissingProbe st reason) :=
  .ite trivial .write

theorem executeProbe_breaks (st : CaseState) (attempt : Option Nat)
    (snapshot : Nat × ProbeSnapshot) (target : ProbeTarget) (commitSha : String) :
    Breaks (r.executeProbe st attempt snapshot target commitSha) :=
  .bind (acquireSlot_breaks r st .probe) (fun _ => .ite (.raise (by decide))
    (.bind (.ask _) (fun _ => .ite (.raise (by decide)) trivial)))

theorem probeBase_breaks (st : CaseState) : Breaks (r.probeBase st) := by
  refine Breaks.bind .write (fun found => ?_)
  split
  · exact failDispatch_breaks r st
  · refine Breaks.bind (executeProbe_breaks r st none _ .base _) (fun run => ?_)
    refine Breaks.bind .write (fun execution => ?_)
    split
    · exact .write
    · exact .write
    · exact .ite (humanBlock_breaks r st .other) (failDispatch_breaks r st)

theorem terminateCase_breaks (st : CaseState) : Breaks (r.terminateCase st) :=
  .bind (terminateRunningAttempts_breaks r.owner) (fun _ => .ite .write .write)

theorem acquireResourceKeys_breaks (st : CaseState) : Breaks (r.acquireResourceKeys st) :=
  .bind (acquireSlot_breaks r st .resource) (fun _ => .ite (.raise (by decide)) trivial)

theorem runAttempt_breaks (st : CaseState) : Breaks (r.runAttempt st) := by
  refine Breaks.bind (run_breaks r .remediation st) (fun x => ?_)
  dsimp only
  split
  · exact .write
  · trivial

theorem runSession_breaks (st : CaseState) : Breaks (r.runSession st) := by
  refine Breaks.bind .write (fun ctx => ?_)
  refine Breaks.iteBind trivial .write (fun refused => ?_)
  refine Breaks.ite (.bind (failDispatch_breaks r st) (fun _ => trivial)) ?_
  refine Breaks.iteBind .write trivial (fun cancel => ?_)
  refine Breaks.ite (.bind (terminateCase_breaks _ st) (fun _ => trivial)) ?_
  exact .ite (.bind (acquireResourceKeys_breaks _ st) (fun _ => runAttempt_breaks _ st))
    (runAttempt_breaks _ st)

/-! ## The stages after the session -/

theorem validateOutput_breaks (st : CaseState) (a : AttemptObj) :
    Breaks (r.validateOutput st a) := by
  refine Breaks.tx (fun i s h => ?_)
  extract_lets snapshot at h
  split at h
  · cases h
  · split at h
    · cases h
    · split at h
      · cases h
      · cases h
      · cases h

theorem gh_breaks {α : Type} (call : Input → Answer α) : Breaks (gh (ask call)) := by
  refine Breaks.bind (.ask call) (fun answer => ?_)
  split
  · trivial
  · exact .raise (by decide)
  · trivial

theorem closes_breaks (cfg : Settings) (number : Nat) (pull : PullRequest) :
    Breaks (closes cfg github number pull) := by
  refine Breaks.bind (gh_breaks _) (fun refs => ?_)
  split
  · trivial
  · refine Breaks.bind (gh_breaks _) (fun timeline => ?_)
    split
    · trivial
    · trivial

theorem recordPull_breaks (st : CaseState) (a : AttemptObj) (pull : PullRequest)
    (v : PullVerdict) : Breaks (r.recordPull st a pull v) := by
  refine Breaks.tx (fun i s h => ?_)
  dsimp only at h
  split at h
  · cases h
  · split at h
    · cases h
    · split at h
      · cases h
      · cases h

theorem validatePullRequest_breaks (st : CaseState) (a : AttemptObj) :
    Breaks (r.validatePullRequest github st a) := by
  unfold Runner.validatePullRequest
  split
  · exact .raise (by decide)
  · split
    · refine Breaks.bind (gh_breaks _) (fun answer => ?_)
      split
      · exact .write
      · exact .write
      · refine Breaks.iteBind (gh_breaks _) trivial (fun compare => ?_)
        refine Breaks.bind (closes_breaks r.cfg _ _) (fun x => ?_)
        exact .bind (gh_breaks _) (fun files => recordPull_breaks r st a _ _)
    · exact .write

theorem probeHead_breaks (st : CaseState) (a : AttemptObj) : Breaks (r.probeHead st a) := by
  refine Breaks.bind .write (fun found => ?_)
  split
  · exact .write
  · refine Breaks.bind (executeProbe_breaks r st _ _ .head _) (fun run => .tx (fun i s h => ?_))
    dsimp only at h
    split at h
    · cases h
    · cases h
    · cases h

theorem pollCi_breaks (st : CaseState) (a : AttemptObj) : Breaks (r.pollCi st a) := by
  unfold Runner.pollCi
  split
  · exact .write
  · refine Breaks.bind (gh_breaks _) (fun answer => ?_)
    split
    · exact .write
    · refine Breaks.tx (fun i s h => ?_)
      dsimp only at h
      split at h
      · cases h
      · cases h
      · cases h
      · cases h

theorem stage_breaks (st : CaseState) (a : AttemptObj) : Breaks (r.stage st a) := by
  unfold Runner.stage
  split
  · exact validateOutput_breaks r _ a
  · exact .write
  · exact validatePullRequest_breaks r _ a
  · exact probeHead_breaks r _ a
  · exact .write
  · exact pollCi_breaks r _ a
  · trivial

theorem stages_breaks (n : Nat) (st : CaseState) (mem : Option AttemptObj) :
    Breaks (r.stages n st mem) := by
  induction n generalizing st mem with
  | zero => exact .raise (by decide)
  | succ n ih =>
      unfold Runner.stages
      refine Breaks.ite trivial (.bind .write (fun found => ?_))
      split
      · exact failDispatch_breaks r st
      · next a =>
          exact .bind (stage_breaks r st a) (fun x => .ite trivial
            (.bind (milestone_breaks r st x.1) (fun _ => ih x.1 x.2)))

theorem processStages_breaks (entered : CaseState) (reason : Option Reason) :
    Breaks (r.processStages entered reason) := by
  unfold Runner.processStages
  -- the rest of the program after each of its four steps, the last one first
  extract_lets last session probe dispatch
  have hlast : ∀ x, Breaks (last x) := fun x => stages_breaks r r.rounds x.1 x.2
  have hsession : ∀ st, Breaks (session st) := fun st => .ite
    (.bind (runSession_breaks r st) (fun x =>
      .bind (milestone_breaks r entered x.1) (fun _ => hlast x))) (hlast (st, none))
  have hprobe : ∀ st, Breaks (probe st) := fun st => .ite
    (.bind (probeBase_breaks r st) (fun st =>
      .bind (milestone_breaks r entered st) (fun _ => hsession st))) (hsession st)
  have hdispatch : ∀ st, Breaks (dispatch st) := fun st =>
    .iteBind (dispatch_breaks r st) trivial hprobe
  exact .iteBind (resumeMissingProbe_breaks r entered reason) trivial hdispatch

/-- `process` rolls back and raises again. -/
theorem process_breaks (entered : CaseState) (reason : Option Reason) :
    Breaks (r.process entered reason) := by
  refine Breaks.rescue ?_ rfl (fun e he => .ite trivial (.raise he))
  exact .bind (processStages_breaks r entered reason) (fun _ => .ite (notify_breaks r) trivial)

/-! ## The processor -/

theorem finishTriage_breaks (st : CaseState) (out : RunOutcome) :
    Breaks (r.finishTriage st out) := by
  unfold Runner.finishTriage
  split
  · refine Breaks.tx (fun i s h => ?_)
    split at h
    · cases h
    · cases h
  · trivial

theorem evaluateEligibility_breaks (st : CaseState) : Breaks (r.evaluateEligibility st) := by
  refine Breaks.bind (.tx (fun i s h => ?_)) (fun eligible => .ite .write .write)
  split at h
  · cases h
  · cases h

theorem runTriage_breaks (st : CaseState) : Breaks (r.runTriage st) :=
  .bind (run_breaks r .triage st) (fun x => finishTriage_breaks r x.1 x.2)

theorem reconcileBlockedTriage_breaks (st : CaseState) :
    Breaks (r.reconcileBlockedTriage st) := by
  refine Breaks.bind (reconcileBlocked_breaks r .triage st) (fun found => ?_)
  split
  · trivial
  · exact finishTriage_breaks r _ _

theorem processTermination_breaks (st : CaseState) : Breaks (r.processTermination st) := by
  refine Breaks.bind .write (fun kind => ?_)
  split
  · exact .bind (terminateCase_breaks r st) (fun _ => trivial)
  · exact .bind (run_breaks r _ st) (fun x => .ite (finishTriage_breaks r x.1 x.2) trivial)

theorem processTriage_breaks (st : CaseState) : Breaks (r.processTriage st) := by
  unfold Runner.processTriage
  split
  · exact .bind (evaluateEligibility_breaks r _) (fun _ => .ite (runTriage_breaks r _) trivial)
  · exact runTriage_breaks r _
  · exact runTriage_breaks r _
  · exact .bind .write (fun _ => .ite (runTriage_breaks r _) trivial)
  · exact reconcileBlockedTriage_breaks r _
  · exact processTermination_breaks r _
  · trivial

theorem processCase_breaks (st : CaseState) (reason : Option Reason) :
    Breaks (r.processCase st reason) :=
  .ite (.ite (process_breaks r st reason) trivial) (processTriage_breaks r st)

theorem processLabelEvent_breaks (e : EventObj) (st : Option CaseState) :
    Breaks (r.processLabelEvent e st) := by
  refine Breaks.tx (fun i s h => ?_)
  dsimp only at h
  split at h
  · cases h
  · cases h

theorem openEvent_breaks (id : Nat) : Breaks (r.openEvent id) := by
  refine Breaks.tx (fun i s h => ?_)
  split at h
  · cases h
  · dsimp only at h
    split at h
    · cases h
    · split at h
      · cases h
      · cases h

theorem processEvent_breaks (id : Nat) : Breaks (r.processEvent id) := by
  refine Breaks.bind (openEvent_breaks r id) (fun work => ?_)
  split
  · trivial
  · exact processLabelEvent_breaks r _ _
  · exact .bind (processCase_breaks r .received none) (fun _ => .write)

end Pipeline

end Remediator
