import Remediator.Rounds.Calm

set_option autoImplicit false

/-! # The pipeline and the operator leave the rounds alone

The second half of the calm programs: dispatch, the stages after the session, and the operator's
actions on the case and its attempts.
-/

namespace Remediator

open Interleave

variable {slots spends : Bool}

/-! ## Dispatch -/

section Pipeline

variable (r : Runner)

theorem failStage_calm {st : CaseState} {a : AttemptObj} {stage : FailureStage}
    {cls : FailureClass} {t : Txn} {s : Store} (h : t.calm slots spends = true) :
    (r.failStage st a stage cls t s).1.calm slots spends = true :=
  failCase_calm h

theorem blockStage_calm {st : CaseState} {a : AttemptObj} {stage : FailureStage}
    {t : Txn} (h : t.calm slots spends = true) :
    (r.blockStage st a stage t).1.calm slots spends = true := by
  simp only [Txn.calm, Bool.and_eq_true] at h
  simp [Runner.blockStage, Txn.calm, h]
  rfl

theorem failDispatch_calmly (st : CaseState) : CalmIn slots spends (r.failDispatch st) :=
  .tx (fun _ _ => failCase_calm rfl)

theorem humanBlock_calmly (st : CaseState) (reason : Reason) :
    CalmIn slots spends (r.humanBlock st reason) :=
  .tx (fun _ _ => rfl)

theorem notify_calmly : CalmIn slots spends r.notify := by
  refine .tx (fun _ s => ?_)
  show Txn.calm _ _ _ = true
  simp only [Txn.calm, Runner.txn]
  split
  · simp
  · rfl

theorem milestone_calmly (before now : CaseState) : CalmIn slots spends (r.milestone before now) :=
  .ite (notify_calmly r) (.ret ())

theorem dispatchWithoutProbe_calmly (st : CaseState) (hash : String) :
    CalmIn slots true (r.dispatchWithoutProbe st hash) := by
  refine CalmIn.bind (.tx (fun _ _ => rfl)) (fun existing => ?_)
  refine CalmIn.ite (.tx (fun _ _ => rfl)) (.bind (.ask _) (fun answer => ?_))
  split
  · refine .tx (fun _ s => ?_)
    dsimp only
    split
    · trivial
    · rfl
  · exact .raise _

theorem dispatch_calmly (st : CaseState) : CalmIn slots true (r.dispatch st) := by
  refine CalmIn.ite (failDispatch_calmly r st) (.bind (.tx (fun _ _ => rfl)) (fun found => ?_))
  split
  · exact failDispatch_calmly r st
  · generalize Devin.normalize r.cfg.githubBaseRef = ref
    refine CalmIn.ite (failDispatch_calmly r st) (.bind (.getIssue r.cfg) (fun issue => ?_))
    refine CalmIn.ite trivial (.ite (failDispatch_calmly r st)
      (.ite (humanBlock_calmly r st .other) ?_))
    refine CalmIn.bind (.tx (fun _ _ => rfl)) (fun busy => .ite (humanBlock_calmly r st .other) ?_)
    refine CalmIn.bind (.ask _) (fun registry => ?_)
    split
    · exact .ite (humanBlock_calmly r st .missingProbe) (dispatchWithoutProbe_calmly r st _)
    · exact humanBlock_calmly r st .other
    · exact .tx (fun _ _ => rfl)

theorem resumeMissingProbe_calmly (st : CaseState) (reason : Option Reason) :
    CalmIn slots spends (r.resumeMissingProbe st reason) :=
  .ite (.ret st) (.tx (fun _ _ => rfl))

theorem executeProbe_calmly (st : CaseState) (attempt : Option Nat)
    (snapshot : Nat × ProbeSnapshot) (target : ProbeTarget) (commitSha : String) :
    CalmIn true spends (r.executeProbe st attempt snapshot target commitSha) :=
  .bind (acquireSlot_calmly r st .probe) (fun _ => .ite (.raise _)
    (.bind (.ask _) (fun _ => .ite (.raise _) (.ret _))))

theorem probeBase_calmly (st : CaseState) : Calmly (r.probeBase st) := by
  refine CalmIn.bind (.tx (fun _ _ => rfl)) (fun found => ?_)
  split
  · exact (failDispatch_calmly r st)
  · refine CalmIn.bind (executeProbe_calmly r st none _ .base _) (fun run => ?_)
    refine CalmIn.bind (.tx (fun _ _ => rfl)) (fun execution => ?_)
    split
    · exact .tx (fun _ _ => rfl)
    · exact .tx (fun _ _ => rfl)
    · exact .ite (humanBlock_calmly r st .other) (failDispatch_calmly r st)

/-! ## The session -/

theorem terminateCase_calmly (st : CaseState) : CalmIn slots spends (r.terminateCase st) := by
  refine CalmIn.bind (terminateRunningAttempts_calmly r.owner) (fun x => ?_)
  refine CalmIn.ite (.tx (fun _ _ => ?_)) (.tx (fun _ _ => rfl))
  have hp := phaseForState_calm st spends
  show Txn.calm _ _ _ = true
  simp [Txn.calm, Runner.txn, hp]

theorem acquireResourceKeys_calmly (st : CaseState) :
    CalmIn true spends (r.acquireResourceKeys st) :=
  .bind (acquireSlot_calmly r st .resource) (fun _ => .ite (.raise _) (.ret ()))

theorem runAttempt_calmly (st : CaseState) : Calmly (r.runAttempt st) := by
  refine CalmIn.bind (run_calmly r .remediation st) (fun x => ?_)
  dsimp only
  split
  · exact .tx (fun _ _ => rfl)
  · exact .ret _

theorem runSession_calmly (st : CaseState) : Calmly (r.runSession st) := by
  refine CalmIn.bind (.tx (fun _ _ => rfl)) (fun ctx => ?_)
  refine CalmIn.iteBind (.ret false) (.tx (fun _ _ => rfl)) (fun refused => ?_)
  refine CalmIn.ite (.bind (failDispatch_calmly r st) (fun _ => .ret _)) ?_
  refine CalmIn.iteBind (.tx (fun _ _ => rfl)) (.ret false) (fun cancel => ?_)
  refine CalmIn.ite (.bind (terminateCase_calmly _ st) (fun _ => .ret _)) ?_
  exact .ite (.bind (acquireResourceKeys_calmly _ st) (fun _ => runAttempt_calmly _ st))
    (runAttempt_calmly _ st)

/-! ## The stages after it -/

theorem validateOutput_calmly (st : CaseState) (a : AttemptObj) :
    CalmIn slots spends (r.validateOutput st a) := by
  refine .tx (fun _ s => ?_)
  have htxn : r.txn.calm slots spends = true := rfl
  extract_lets snapshot
  split
  · exact failStage_calm r htxn
  · split
    · exact failStage_calm r htxn
    · split
      · exact failStage_calm r htxn
      · exact blockStage_calm r htxn
      · rfl

theorem gh_calmly {α : Type} (call : Input → Answer α) : CalmIn slots spends (gh (ask call)) := by
  refine CalmIn.bind (.ask call) (fun answer => ?_)
  split
  · trivial
  · trivial
  · trivial

theorem closes_calmly (cfg : Settings) (number : Nat) (pull : PullRequest) :
    CalmIn slots spends (closes cfg github number pull) := by
  refine CalmIn.bind (gh_calmly _) (fun refs => ?_)
  split
  · trivial
  · refine CalmIn.bind (gh_calmly _) (fun timeline => ?_)
    split
    · trivial
    · trivial

theorem recordPull_calmly (st : CaseState) (a : AttemptObj) (pull : PullRequest)
    (v : PullVerdict) : CalmIn slots spends (r.recordPull st a pull v) := by
  refine .tx (fun _ s => ?_)
  dsimp only
  split
  · exact failStage_calm r rfl
  · split
    · exact blockStage_calm r rfl
    · split
      · rfl
      · rfl

theorem validatePullRequest_calmly (st : CaseState) (a : AttemptObj) :
    CalmIn slots spends (r.validatePullRequest github st a) := by
  unfold Runner.validatePullRequest
  split
  · trivial
  · split
    · refine CalmIn.bind (gh_calmly _) (fun answer => ?_)
      split
      · exact .tx (fun _ _ => failStage_calm r rfl)
      · exact .tx (fun _ _ => failStage_calm r rfl)
      · refine CalmIn.iteBind (gh_calmly _) (.ret none) (fun compare => ?_)
        refine CalmIn.bind (closes_calmly r.cfg _ _) (fun x => ?_)
        exact .bind (gh_calmly _) (fun files => recordPull_calmly r st a _ _)
    · exact .tx (fun _ _ => failStage_calm r rfl)

theorem probeHead_calmly (st : CaseState) (a : AttemptObj) :
    Calmly (r.probeHead st a) := by
  refine CalmIn.bind (.tx (fun _ _ => rfl)) (fun found => ?_)
  split
  · exact .tx (fun _ _ => failStage_calm r rfl)
  · refine CalmIn.bind (executeProbe_calmly r st _ _ .head _) (fun run => .tx (fun _ s => ?_))
    dsimp only
    split
    · exact failStage_calm r rfl
    · rfl
    · exact failStage_calm r rfl

theorem pollCi_calmly (st : CaseState) (a : AttemptObj) : CalmIn slots spends (r.pollCi st a) := by
  unfold Runner.pollCi
  split
  · exact .tx (fun _ _ => failStage_calm r rfl)
  · refine CalmIn.bind (gh_calmly _) (fun answer => ?_)
    split
    · exact .tx (fun _ _ => failStage_calm r rfl)
    · refine .tx (fun _ s => ?_)
      dsimp only
      split
      · rfl
      · rfl
      · rfl
      · rfl

theorem stage_slotless {st : CaseState} (h : st ≠ .probeValidatingHead) (a : AttemptObj) :
    CalmIn slots spends (r.stage st a) := by
  unfold Runner.stage
  split
  · exact validateOutput_calmly r _ a
  · exact .tx (fun _ _ => rfl)
  · exact validatePullRequest_calmly r _ a
  · exact absurd rfl h
  · exact .tx (fun _ _ => rfl)
  · exact pollCi_calmly r _ a
  · exact .ret _

theorem stage_calmly (st : CaseState) (a : AttemptObj) : Calmly (r.stage st a) := by
  by_cases h : st = .probeValidatingHead
  · subst h
    exact probeHead_calmly r _ a
  · exact (stage_slotless r h a)

theorem stages_calmly (n : Nat) (st : CaseState) (mem : Option AttemptObj) :
    Calmly (r.stages n st mem) := by
  induction n generalizing st mem with
  | zero => trivial
  | succ n ih =>
      unfold Runner.stages
      refine CalmIn.ite (.ret st) (.bind (.tx (fun _ _ => rfl)) (fun found => ?_))
      split
      · exact (failDispatch_calmly r st)
      · next a =>
          exact .bind (stage_calmly r st a) (fun x => .ite (.ret st)
            (.bind (milestone_calmly r st x.1) (fun _ => ih x.1 x.2)))

theorem processStages_calmly (entered : CaseState) (reason : Option Reason) :
    Calmly (r.processStages entered reason) := by
  unfold Runner.processStages
  -- the rest of the program after each of its four steps, the last one first
  extract_lets last session probe dispatch
  have hlast : ∀ x, Calmly (last x) := fun x => stages_calmly r r.rounds x.1 x.2
  have hsession : ∀ st, Calmly (session st) := fun st => .ite
    (.bind (runSession_calmly r st) (fun x =>
      .bind (milestone_calmly r entered x.1) (fun _ => hlast x))) (hlast (st, none))
  have hprobe : ∀ st, Calmly (probe st) := fun st => .ite
    (.bind (probeBase_calmly r st) (fun st =>
      .bind (milestone_calmly r entered st) (fun _ => hsession st))) (hsession st)
  have hdispatch : ∀ st, Calmly (dispatch st) := fun st =>
    .iteBind (dispatch_calmly r st) (.ret st) hprobe
  exact .iteBind (resumeMissingProbe_calmly r entered reason) (.ret entered) hdispatch

theorem process_calmly (entered : CaseState) (reason : Option Reason) :
    Calmly (r.process entered reason) :=
  .rescue
    (.bind (processStages_calmly r entered reason) (fun _ => .ite (notify_calmly r) (.ret ())))
    (fun e => .ite (.ret ()) (.raise e))

end Pipeline

/-! ## The worker -/

theorem evaluateEligibility_calmly (r : Runner) (st : CaseState) :
    CalmIn slots spends (r.evaluateEligibility st) := by
  refine CalmIn.bind (.tx (fun _ s => ?_)) (fun eligible => ?_)
  · split
    · trivial
    · rfl
  · exact .ite (.tx (fun _ _ => rfl)) (.tx (fun _ _ => rfl))

theorem claimCase_calmly (w : Worker) : CalmIn slots spends w.claimCase := by
  refine .tx (fun _ s => ?_)
  split
  · rfl
  · rfl

theorem releaseCase_calmly (w : Worker) : CalmIn slots spends w.releaseCase := .tx (fun _ _ => rfl)

/-! ## The operator -/

theorem readState_calmly (o : Owner) : CalmIn slots spends (readState o) := by
  refine .tx (fun _ s => ?_)
  split
  · rfl
  · trivial

theorem cancelTarget_calm (st : CaseState) (owns : Bool) :
    (cancelTarget st owns).calm spends = true := by
  unfold cancelTarget
  split
  · split
    · rfl
    · rfl
  · split
    · rfl
    · rfl

theorem cancelCase_calmly (o : Owner) : CalmIn slots spends (cancelCase o) := by
  refine CalmIn.bind (readState_calmly o) (fun st => ?_)
  refine CalmIn.iteBind (.ret true) (.tx (fun _ _ => rfl)) (fun owns => .tx (fun _ s => ?_))
  have ht : (cancelTarget st owns).calm spends = true := cancelTarget_calm st owns
  show Txn.calm _ _ _ = true
  simp only [Txn.calm]
  split
  · simp [ht]
  · simp [ht]

theorem retryTarget_calm {cfg : Settings} {st : CaseState} {as : List Attempt} {dst : CaseState}
    (h : retryTarget cfg st as = some dst) : dst.calm spends = true := by
  unfold retryTarget at h
  split at h
  · split at h
    · cases h
    · cases h
      rfl
  · split at h
    · cases h
    · split at h
      · cases h
      · split at h
        · cases h
        · cases h
          rfl

theorem retryCase_calmly (cfg : Settings) (o : Owner) : CalmIn slots spends (retryCase cfg o) := by
  refine CalmIn.bind (readState_calmly o) (fun st => ?_)
  refine Prog.Each.bind (R := fun x => x.1.calm spends = true) ?_ (fun x hx => ?_)
  · refine each_tx (fun _ => rfl) (fun _ _ _ _ => trivial) (fun i s t a hbody _ => ?_)
    dsimp only at hbody
    split at hbody
    · cases hbody
    · next dst hdst =>
        split at hbody
        · cases hbody
        · cases hbody
          exact ⟨rfl, retryTarget_calm hdst⟩
  · refine CalmIn.tx (fun _ s => ?_)
    show Txn.calm _ _ _ = true
    simp only [Txn.calm]
    split
    · simp [hx]
    · simp [hx]

theorem verifiedAttemptAction_calm {dst : CaseState} {sources : List CaseState}
    {stage : FailureStage} {infrastructureOnly : Bool} {s : Store}
    (hdst : dst.calm spends = true) :
    CalmOutcome slots spends ((verifiedAttemptAction dst sources stage infrastructureOnly s).map
      (fun t => (t, ()))) := by
  unfold verifiedAttemptAction
  split
  · trivial
  · split
    · trivial
    · split
      · trivial
      · show Txn.calm _ _ _ = true
        simp [Txn.calm, hdst]

theorem retryCi_calmly (o : Owner) : CalmIn slots spends (retryCi o) :=
  .tx (fun _ _ => verifiedAttemptAction_calm rfl)

theorem retryProbe_calmly (o : Owner) : CalmIn slots spends (retryProbe o) := by
  refine .tx (fun _ s => ?_)
  split
  · split
    · trivial
    · show Txn.calm _ _ _ = true
      simp [Txn.calm]
      rfl
  · exact verifiedAttemptAction_calm rfl

end Remediator
