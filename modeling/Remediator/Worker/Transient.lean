import Remediator.Rounds.Calm
import Remediator.Runs
import Remediator.Worker.Stages

set_option autoImplicit false

/-! # Transient failures of the pipeline

`RemediationPipeline.process` turns a retryable answer of GitHub, a base commit that cannot be
resolved and a busy verifier into `TransientVerificationError`, rolls its session back and
returns. Some stages have committed by then; what they have committed is what this file is
about.
-/

namespace Remediator

open Interleave

/-! ## What a stage may change before it fails -/

/-- The state of the case and the rows of its attempts, probes, pull requests, CI snapshots,
policy decisions and transitions are the same in both stores. -/
structure Intact (s s' : Store) : Prop where
  state : s'.case.state = s.case.state
  core : s'.core = s.core
  log : s'.log = s.log

theorem Intact.refl (s : Store) : Intact s s := ⟨rfl, rfl, rfl⟩

theorem Intact.trans {s s' s'' : Store} (h : Intact s s') (h' : Intact s' s'') : Intact s s'' :=
  ⟨h'.state.trans h.state, h'.core.trans h.core, h'.log.trans h.log⟩

/-- Everything that changed from one store to the other was changed by others. -/
def Untouched (R : Store → Store → Prop) : Store → Store → Prop :=
  Relation.ReflTransGen (fun s s' => R s s' ∨ Intact s s')

/-- As long as the others leave the case alone it is as it was. -/
theorem Untouched.intact {R : Store → Store → Prop} (hR : ∀ s s', R s s' → Intact s s')
    {s s' : Store} (h : Untouched R s s') : Intact s s' := by
  induction h with
  | refl => exact .refl s
  | tail _ hstep ih =>
      rcases hstep with hr | hi
      · exact ih.trans (hR _ _ hr)
      · exact ih.trans hi

/-- The write set touches neither the state nor the rows. -/
def Txn.idle (t : Txn) : Bool := t.moves.isEmpty && !t.touchesCore

theorem intact_commit {o : Owner} {t : Txn} {s : Store} (h : t.idle = true) :
    Intact s ((Op.commit o t).apply s) := by
  simp only [Txn.idle, Txn.touchesCore, Bool.and_eq_true, List.isEmpty_iff, Bool.not_eq_true',
    Bool.or_eq_false_iff, Bool.not_eq_false', Option.isSome_eq_false_iff,
    Option.isNone_iff_eq_none] at h
  obtain ⟨hm, ⟨⟨⟨⟨⟨hw, hi⟩, hs⟩, he⟩, hv⟩, hc⟩, hd⟩ := h
  refine ⟨?_, ?_, ?_⟩
  · show movesEnd t.moves s.case.state = s.case.state
    rw [hm]
    rfl
  · show t.applyCore s.core = s.core
    simp [Txn.applyCore, Txn.attempts, hw, hi, hs, he, hv, hc, hd]
  · rw [commit_log, hm]
    exact List.append_nil _

theorem intact_skip (s : Store) : Intact s (Op.skip.apply s) := ⟨rfl, rfl, rfl⟩

/-- Every action leaves the case intact. -/
abbrev Idly {α : Type} (p : P α) : Prop :=
  p.Each (fun s op => Intact s (op.apply s)) (fun _ => True) (fun _ => True)

/-- The program never raises `TransientVerificationError`. -/
abbrev Sure {α : Type} (p : P α) : Prop :=
  p.Each (fun _ _ => True) (fun _ => True) (fun e => ¬ e = .transientVerification)

/-- The program leaves the case intact until it cannot raise `TransientVerificationError` any
more. -/
abbrev Spares {α : Type} (p : P α) : Prop :=
  p.Until (fun s op => Intact s (op.apply s)) (· = .transientVerification)

section Rules

variable {α β : Type}

theorem Idly.tx {o : Owner} {body : Input → Store → Except Err (Txn × α)}
    (h : ∀ i s t a, body i s = .ok (t, a) → t.idle = true) : Idly (Remediator.tx o body) :=
  each_tx intact_skip (fun _ _ _ _ => trivial)
    (fun i s t a hbody _ => ⟨intact_commit (h i s t a hbody), trivial⟩)

/-- A read, and a commit of columns that belong to no stage. -/
theorem Idly.read {o : Owner} {t : Input → Store → Txn} {a : Input → Store → α}
    (h : ∀ i s, (t i s).idle = true) : Idly (Remediator.tx o (fun i s => .ok (t i s, a i s))) := by
  refine Idly.tx (fun i s t' a' hbody => ?_)
  cases hbody
  exact h i s

theorem Idly.unlessFault (i : Input) (a : α) : Idly (Remediator.unlessFault i a) := by
  unfold Remediator.unlessFault
  split
  · trivial
  · trivial

theorem Idly.ask (answer : Input → α) : Idly (Remediator.ask answer) :=
  fun i s => ⟨intact_skip s, Idly.unlessFault i _⟩

theorem Idly.getIssue (cfg : Settings) : Idly (Remediator.getIssue cfg) :=
  fun i s => ⟨intact_skip s, Idly.unlessFault i _⟩

theorem Idly.bind {p : P α} {k : α → P β} (hp : Idly p) (hk : ∀ a, Idly (k a)) :
    Idly (p >>= k) :=
  Prog.Each.bind hp (fun a _ => hk a)

theorem Idly.ite {c : Prop} [Decidable c] {p q : P α} (hp : Idly p) (hq : Idly q) :
    Idly (if c then p else q) := by
  split
  · exact hp
  · exact hq

/-- What a transaction raises is what its body raises, or an exception of the database. -/
theorem Sure.tx {o : Owner} {body : Input → Store → Except Err (Txn × α)}
    (h : ∀ i s, body i s ≠ .error .transientVerification) : Sure (Remediator.tx o body) := by
  refine each_tx (fun _ => trivial) (fun i s e he => ?_) (fun _ _ _ _ _ _ => ⟨trivial, trivial⟩)
  intro htransient
  subst htransient
  unfold Txn.outcome at he
  split at he
  · next f _ => cases f <;> cases he
  · split at he
    · next hbody =>
        cases he
        exact h i s hbody
    · split at he
      · cases he
      · split at he
        · cases he
        · cases he

/-- A transaction whose body does not raise. -/
theorem Sure.write {o : Owner} {body : Input → Store → Txn × α} :
    Sure (Remediator.tx o (fun i s => .ok (body i s))) := by
  refine Sure.tx (fun i s h => ?_)
  cases h

theorem Sure.bind {p : P α} {k : α → P β} (hp : Sure p) (hk : ∀ a, Sure (k a)) :
    Sure (p >>= k) :=
  Prog.Each.bind hp (fun a _ => hk a)

theorem Sure.ite {c : Prop} [Decidable c] {p q : P α} (hp : Sure p) (hq : Sure q) :
    Sure (if c then p else q) := by
  split
  · exact hp
  · exact hq

theorem Sure.spares {p : P α} (hp : Sure p) : Spares p := Prog.Until.of_never hp

theorem Spares.bind {p : P α} {k : α → P β} (hp : Idly p) (hk : ∀ a, Spares (k a)) :
    Spares (p >>= k) :=
  Prog.Until.bind hp (fun a _ => hk a)

theorem Spares.ite {c : Prop} [Decidable c] {p q : P α} (hp : Spares p) (hq : Spares q) :
    Spares (if c then p else q) := by
  split
  · exact hp
  · exact hq

/-- Two branches with a common rest. -/
theorem Spares.iteBind {c : Prop} [Decidable c] {p q : P α} {k : α → P β} (hp : Idly p)
    (hq : Idly q) (hk : ∀ a, Spares (k a)) : Spares (if c then p >>= k else q >>= k) :=
  .ite (.bind hp hk) (.bind hq hk)

end Rules

/-! ## The stages -/

section Stages

variable (r : Runner)

theorem failDispatch_sure (st : CaseState) : Sure (r.failDispatch st) := Sure.write

theorem humanBlock_sure (st : CaseState) (reason : Reason) : Sure (r.humanBlock st reason) :=
  Sure.write

theorem acquireSlot_idly (st : CaseState) (kind : Capacity.LeaseKind) :
    Idly (r.acquireSlot st kind) :=
  Idly.read (fun _ _ => rfl)

/-- The slot, the run of the verifier and the release of the slot write no row of the case. -/
theorem executeProbe_idly (st : CaseState) (attempt : Option Nat)
    (snapshot : Nat × ProbeSnapshot) (target : ProbeTarget) (commitSha : String) :
    Idly (r.executeProbe st attempt snapshot target commitSha) :=
  .bind (acquireSlot_idly r st .probe) (fun _ => .ite trivial
    (.bind (.ask _) (fun _ => .ite trivial trivial)))

theorem gh_idly {α : Type} (call : Input → Answer α) : Idly (gh (ask call)) := by
  refine Idly.bind (.ask call) (fun answer => ?_)
  split
  · trivial
  · trivial
  · trivial

theorem dispatchWithoutProbe_spares (st : CaseState) (hash : String) :
    Spares (r.dispatchWithoutProbe st hash) := by
  have hlast : ∀ sha : Option String,
      Sure (tx r.owner (r.decideWithoutProbe st hash sha)) := by
    intro sha
    refine Sure.tx (fun i s => ?_)
    unfold Runner.decideWithoutProbe
    split
    · split
      · simp
      · simp
    · simp
  refine Spares.bind (.read (fun _ _ => rfl)) (fun existing => ?_)
  refine Spares.ite (hlast none).spares (.bind (.ask _) (fun answer => ?_))
  split
  · exact (hlast (some _)).spares
  · trivial

theorem dispatch_spares (st : CaseState) : Spares (r.dispatch st) := by
  have hfail : Spares (r.failDispatch st) := (failDispatch_sure r st).spares
  have hblock : ∀ reason, Spares (r.humanBlock st reason) :=
    fun reason => (humanBlock_sure r st reason).spares
  refine Spares.ite hfail (.bind (.read (fun _ _ => rfl)) (fun found => ?_))
  split
  · exact hfail
  · generalize Devin.normalize r.cfg.githubBaseRef = ref
    refine Spares.ite hfail (.bind (.getIssue r.cfg) (fun issue => ?_))
    refine Spares.ite trivial (.ite hfail (.ite (hblock .other) ?_))
    refine Spares.bind (.read (fun _ _ => rfl)) (fun busy => .ite (hblock .other) ?_)
    refine Spares.bind (.ask _) (fun registry => ?_)
    split
    · exact .ite (hblock .missingProbe) (dispatchWithoutProbe_spares r st _)
    · exact hblock .other
    · exact Sure.write.spares

/-- The row of the run is inserted after the last call. -/
theorem probeBase_spares (st : CaseState) : Spares (r.probeBase st) := by
  refine Spares.bind (.read (fun _ _ => rfl)) (fun found => ?_)
  split
  · exact (failDispatch_sure r st).spares
  · refine Spares.bind (executeProbe_idly r st none _ .base _) (fun run => Sure.spares ?_)
    refine Sure.bind Sure.write (fun execution => ?_)
    split
    · exact Sure.write
    · exact Sure.write
    · exact .ite (humanBlock_sure r st .other) (failDispatch_sure r st)

theorem closes_idly (cfg : Settings) (number : Nat) (pull : PullRequest) :
    Idly (closes cfg github number pull) := by
  refine Idly.bind (gh_idly _) (fun refs => ?_)
  split
  · trivial
  · refine Idly.bind (gh_idly _) (fun timeline => ?_)
    split
    · trivial
    · trivial

theorem recordPull_sure (st : CaseState) (a : AttemptObj) (pull : PullRequest)
    (v : PullVerdict) : Sure (r.recordPull st a pull v) := by
  refine Sure.tx (fun i s h => ?_)
  dsimp only at h
  split at h
  · cases h
  · split at h
    · cases h
    · split at h
      · cases h
      · cases h

theorem validatePullRequest_spares (st : CaseState) (a : AttemptObj) :
    Spares (r.validatePullRequest github st a) := by
  unfold Runner.validatePullRequest
  split
  · trivial
  · split
    · refine Spares.bind (gh_idly _) (fun answer => ?_)
      split
      · exact Sure.write.spares
      · exact Sure.write.spares
      · refine Spares.iteBind (gh_idly _) trivial (fun compare => ?_)
        refine Spares.bind (closes_idly r.cfg _ _) (fun x => ?_)
        exact .bind (gh_idly _) (fun files => (recordPull_sure r st a _ _).spares)
    · exact Sure.write.spares

theorem probeHead_spares (st : CaseState) (a : AttemptObj) : Spares (r.probeHead st a) := by
  refine Spares.bind (.read (fun _ _ => rfl)) (fun found => ?_)
  split
  · exact Sure.write.spares
  · refine Spares.bind (executeProbe_idly r st _ _ .head _) (fun run => Sure.spares (.tx ?_))
    intro i s h
    dsimp only at h
    split at h
    · cases h
    · cases h
    · cases h

theorem pollCi_spares (st : CaseState) (a : AttemptObj) : Spares (r.pollCi st a) := by
  unfold Runner.pollCi
  split
  · exact Sure.write.spares
  · refine Spares.bind (gh_idly _) (fun answer => ?_)
    split
    · exact Sure.write.spares
    · refine Sure.spares (.tx (fun i s h => ?_))
      dsimp only at h
      split at h
      · cases h
      · cases h
      · cases h
      · cases h

end Stages

/-- The stages of `process` that call GitHub, the resolver of base commits or the verifier. -/
inductive Runner.Stage (r : Runner) : {α : Type} → P α → Prop
  | dispatch (st : CaseState) : r.Stage (r.dispatch st)
  | dispatchWithoutProbe (st : CaseState) (hash : String) : r.Stage (r.dispatchWithoutProbe st hash)
  | probeBase (st : CaseState) : r.Stage (r.probeBase st)
  | validatePullRequest (st : CaseState) (a : AttemptObj) :
      r.Stage (r.validatePullRequest github st a)
  | probeHead (st : CaseState) (a : AttemptObj) : r.Stage (r.probeHead st a)
  | pollCi (st : CaseState) (a : AttemptObj) : r.Stage (r.pollCi st a)

theorem Runner.Stage.spares {r : Runner} {α : Type} {stage : P α} (h : r.Stage stage) :
    Spares stage := by
  cases h with
  | dispatch st => exact dispatch_spares r st
  | dispatchWithoutProbe st hash => exact dispatchWithoutProbe_spares r st hash
  | probeBase st => exact probeBase_spares r st
  | validatePullRequest st a => exact validatePullRequest_spares r st a
  | probeHead st a => exact probeHead_spares r st a
  | pollCi st a => exact pollCi_spares r st a

theorem Runner.Stage.untouched {r : Runner} {α : Type} {stage : P α} (h : r.Stage stage)
    {R : Store → Store → Prop} {s s' : Store} {l : List (Input × Store)}
    (hrun : stage.Runs Op.apply R s l (.error .transientVerification) s') : Untouched R s s' := by
  have hsteps := hrun.until_error h.spares rfl
  refine Relation.ReflTransGen.mono (fun a b hab => ?_) s s' hsteps
  rcases hab with hr | ⟨op, hop, rfl⟩
  · exact Or.inl hr
  · exact Or.inr hop

/-! ## The driver -/

/-- `process` swallows the exception: nothing is done after it. -/
theorem process_swallows {r : Runner} {entered : CaseState} {reason : Option Reason}
    {R : Store → Store → Prop} {s s' : Store} {l : List (Input × Store)}
    (h : (r.processStages entered reason).Runs Op.apply R s l
      (.error .transientVerification) s') :
    (r.process entered reason).Runs Op.apply R s l (.ok ()) s' := by
  have hbody : (r.processStages entered reason >>= fun st =>
      if st ≠ entered ∨ st = .ciPending then r.notify else pure ()).Runs Op.apply R s l
        (.error .transientVerification) s' := h.bind_error
  have hend : (r.process entered reason).Runs Op.apply R s (l ++ []) (.ok ()) s' :=
    hbody.handle_error (.ret () s')
  rwa [List.append_nil] at hend

/-- **A transient failure leaves every stage's state intact.** `process` has come to the stage in
the store `s₀`, and the stage raises `TransientVerificationError`: then `process` returns, and
whatever changed since `s₀` was changed by others. -/
theorem process_spares_transient {r : Runner} {entered : CaseState} {reason : Option Reason}
    {R : Store → Store → Prop} {α : Type} {stage : P α} (hstage : r.Stage stage)
    {rest : α → P CaseState} {s s₀ s' : Store} {l₀ l : List (Input × Store)}
    (hreach : (r.processStages entered reason).Reaches Op.apply R s l₀ (stage >>= rest) s₀)
    (hrun : stage.Runs Op.apply R s₀ l (.error .transientVerification) s') :
    (r.process entered reason).Runs Op.apply R s (l₀ ++ l) (.ok ()) s' ∧ Untouched R s₀ s' ∧
      ((∀ a b, R a b → Intact a b) → Intact s₀ s') := by
  have huntouched := hstage.untouched hrun
  refine ⟨?_, huntouched, fun hR => huntouched.intact hR⟩
  exact process_swallows (hreach.runs hrun.bind_error)

/-- A case whose probe has been snapshotted and is to be reproduced at the base commit. -/
def demoProbing : Store where
  case := { created := true, state := .probeValidatingBase, claimedBy := some 1 }
  core := { snapshots := [{
    probeIdentifier := "csv-export", baseSha := "2fd4e1c6", scriptHash := "03ac6742"
    expectedBaseExitCode := 1, expectedHeadExitCode := 0 }] }

def demoProber : Runner where
  cfg := demoSettings
  owner := 1
  claim := some 1
  rounds := 1

/-- The verifier is busy when the slot for it has been committed. -/
theorem process_spares_transient_demo : ∃ (l : List (Input × Store)) (s' : Store),
    (demoProber.process .probeValidatingBase none).Runs Op.apply (· = ·) demoProbing l (.ok ()) s' ∧
      Intact demoProbing s' := by
  let busy : Input := { probe := { busy := true } }
  obtain ⟨l, hrun, -⟩ := Prog.runs_alone Op.apply (demoProber.probeBase .probeValidatingBase) busy
    (R := (· = ·)) (fun _ => rfl) demoProbing
  have hraised : ((demoProber.probeBase .probeValidatingBase).alone Op.apply busy demoProbing).1 =
      .error .transientVerification := by rfl
  rw [hraised] at hrun
  obtain ⟨hprocess, -, hintact⟩ := process_spares_transient (.probeBase .probeValidatingBase)
    (.refl (demoProber.processStages .probeValidatingBase none) demoProbing) hrun
  refine ⟨_, _, hprocess, hintact (fun a b hab => ?_)⟩
  rw [hab]
  exact .refl b

end Remediator
