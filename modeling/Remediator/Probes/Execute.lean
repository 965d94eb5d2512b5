import Remediator.Probes.Remote
import Remediator.Worker.Storage

set_option autoImplicit false

/-! # What a probe records

`_execute_probe` of the pipeline, with the remote runner behind it: the verdict that is stored
against what the two replies of the verifier say.
-/

namespace Remediator.Probes

open Interleave

/-! ## The request -/

/-- A probe snapshot with the columns that the request is made from. -/
structure Snapshot where
  id : Nat
  row : Remediator.ProbeSnapshot
  repository : String
  issueNumber : Int
  manifestHash : String
  timeoutSeconds : Int
  /-- `runtime["tools"]` -/
  tools : List String
  /-- `manifest_setup_timeout` -/
  setupTimeoutSeconds : Int

/-- What the request takes from elsewhere: the settings, the texts of the ids, the number of
executions before this one, and `uuid5`. -/
structure Origin where
  probeTimeoutSeconds : Int
  probeMaxOutputBytes : Int
  caseId : String
  snapshotId : String
  prior : Nat
  uuid5 : String → String

def targetValue : ProbeTarget → String
  | .base => "BASE"
  | .head => "HEAD"

/-- The spec that `_execute_probe` builds. -/
def probeSpec (o : Origin) (snapshot : Snapshot) (target : ProbeTarget) (commitSha : String) :
    ProbeRunSpec where
  repository := snapshot.repository
  issueNumber := snapshot.issueNumber
  commitSha := commitSha
  target := target
  probeIdentifier := snapshot.row.probeIdentifier
  scriptHash := snapshot.row.scriptHash
  timeoutSeconds := min snapshot.timeoutSeconds o.probeTimeoutSeconds
  maxOutputBytes := o.probeMaxOutputBytes
  requiredTools := snapshot.tools
  setupTimeoutSeconds := snapshot.setupTimeoutSeconds
  manifestHash := snapshot.manifestHash
  requestId := o.uuid5 ("probe:" ++ o.caseId ++ ":" ++ o.snapshotId ++ ":" ++ targetValue target ++
    ":" ++ commitSha ++ ":" ++ toString o.prior)

/-- The result of the runner as the pipeline reads it. -/
def Outcome.probeRun : Outcome → ProbeRun
  | .busy => { busy := true }
  | .result r => { r with }

/-! ## The program -/

/-- `_execute_probe` with the row it adds. -/
def recordProbe (r : Runner) (st : CaseState) (attempt : Option Nat)
    (snapshot : Nat × ProbeSnapshot) (target : ProbeTarget) (commitSha : String) :
    P ProbeExecution := do
  let run ← r.executeProbe st attempt snapshot target commitSha
  tx r.owner (fun _ s => .ok ({ r.txn with executions := [run s.now] }, run s.now))

/-- Whatever the others do in between, they record no execution. -/
def Aside (s s' : Store) : Prop := s'.core.executions = s.core.executions

theorem commit_executions {o : Owner} {t : Txn} (s : Store) (hi : t.insert = none) :
    ((Op.commit o t).apply s).core.executions = s.core.executions ++ t.executions := by
  simp [Op.apply, Op.effect, Txn.apply, Txn.applyCore, hi]

theorem acquireSlot_runs {r : Runner} {st : CaseState} {kind : Capacity.LeaseKind} {s s' : Store}
    {l : List (Input × Store)} {res : Except Err Bool}
    (h : (r.acquireSlot st kind).Runs Op.apply Aside s l res s') :
    Aside s s' ∧ ∃ (x : Input × Store) (t : Txn), (r.acquireSlot st kind).stepsBy undisturbed l =
        [⟨x.1, x.2, .commit r.owner t⟩] ∧ (∀ db : Database, db.cells t = []) ∧
      ((x.1.fault ≠ none ∧ ∃ e, res = .error e) ∨ x.1.fault = none ∧ res = .ok x.1.yes) := by
  obtain ⟨i, s₁, hR, rfl, hout⟩ := runs_tx h
  let t : Txn := { r.txn with
    waiting := some (if i.yes then .clear else .mark { i.denied with kind := kind })
    parksIn := some st }
  have hsteps : (r.acquireSlot st kind).stepsBy undisturbed [(i, s₁)] = [⟨i, s₁, .commit r.owner t⟩] :=
    stepsBy_tx (outcome_plain rfl rfl rfl rfl)
  cases hf : i.fault with
  | some f =>
      simp only [Txn.outcome, hf] at hout
      exact ⟨hout.2 ▸ hR, (i, s₁), t, hsteps, fun _ => rfl,
        Or.inl ⟨by rw [hf]; exact Option.some_ne_none f, _, hout.1⟩⟩
  | none =>
      rw [outcome_plain hf rfl rfl rfl] at hout
      refine ⟨?_, (i, s₁), t, hsteps, fun _ => rfl, Or.inr ⟨hf, hout.1⟩⟩
      rw [hout.2]
      unfold Aside
      rw [commit_executions _ rfl]
      exact (List.append_nil _).trans hR

/-- The actions of a run that has its slot and the result of the runner. -/
structure Executed (r : Runner) (x y : Prog.Step Store Input Op) : Prop where
  slot : ∃ t, x.op = .commit r.owner t ∧ ∀ db : Database, db.cells t = []
  started : x.answer.fault = none
  call : y.op = .skip
  answered : y.answer.fault = none
  free : y.answer.probe.busy = false

/-- The ways that a run of `_execute_probe` can go, by its actions, and the rows that it adds: it
gets no slot, or no result, or the row of the result is inserted or refused. -/
inductive Recording (r : Runner) (row : ProbeRunResult → Nat → ProbeExecution) :
    List (Prog.Step Store Input Op) → List ProbeExecution → Prop
  | unstarted {x : Prog.Step Store Input Op} {t : Txn} : x.op = .commit r.owner t →
      (∀ db : Database, db.cells t = []) → x.answer.fault ≠ none ∨ x.answer.yes = false →
      Recording r row [x] []
  | unanswered {x y : Prog.Step Store Input Op} : y.op = .skip →
      y.answer.fault ≠ none ∨ (y.answer.fault = none ∧ y.answer.probe.busy = true) →
      Recording r row [x, y] []
  | answered {x y z : Prog.Step Store Input Op} : Executed r x y →
      z.op = .commit r.owner
        { r.txn with executions := [row y.answer.probe.toProbeRunResult z.store.now] } →
      Recording r row [x, y, z] (if z.answer.fault = none then
        [row y.answer.probe.toProbeRunResult z.store.now] else [])

section Runs

variable {r : Runner} {st : CaseState} {attempt : Option Nat} {snapshot : Nat × ProbeSnapshot} {target : ProbeTarget}
  {commitSha : String} {s s' : Store} {l : List (Input × Store)}

theorem executeProbe_recording {res : Except Err (Nat → ProbeExecution)}
    (h : (r.executeProbe st attempt snapshot target commitSha).Runs Op.apply Aside s l res s') :
    Aside s s' ∧
      ((∃ e, res = .error e ∧ Recording r (executionRow attempt snapshot target commitSha)
          ((r.executeProbe st attempt snapshot target commitSha).stepsBy undisturbed l) []) ∨
        ∃ x y, Executed r x y ∧
          (r.executeProbe st attempt snapshot target commitSha).stepsBy undisturbed l = [x, y] ∧
          res = .ok (executionRow attempt snapshot target commitSha
            y.answer.probe.toProbeRunResult)) := by
  unfold Runner.executeProbe at h ⊢
  rcases h.bind_inv with ⟨e, rfl, hslot⟩ | ⟨granted, s₁, l₁, l₂, rfl, hslot, hrest⟩
  · obtain ⟨haside, x, t, hsteps, hcells, ⟨hf, -⟩ | ⟨-, hok⟩⟩ := acquireSlot_runs hslot
    · refine ⟨haside, Or.inl ⟨e, rfl, ?_⟩⟩
      rw [Prog.bind_eq, hslot.stepsBy_bind_error, hsteps]
      exact .unstarted rfl hcells (Or.inl hf)
    · cases hok
  obtain ⟨haside, x, t, hsteps, hcells, ⟨-, e, hok⟩ | ⟨hf, hok⟩⟩ := acquireSlot_runs hslot
  · cases hok
  obtain rfl := Except.ok.inj hok
  rw [Prog.bind_eq, hslot.stepsBy_bind, hsteps]
  by_cases hyes : x.1.yes = false
  · rw [if_pos hyes] at hrest ⊢
    obtain ⟨rfl, rfl, rfl⟩ := hrest.raise_inv
    refine ⟨haside, Or.inl ⟨_, rfl, ?_⟩⟩
    rw [Prog.stepsBy_nil]
    exact .unstarted rfl hcells (Or.inr hyes)
  rw [if_neg hyes] at hrest ⊢
  rcases hrest.bind_inv with ⟨e, rfl, hask⟩ | ⟨run, s₂, l₃, l₄, rfl, hask, hrest⟩
  · rw [Prog.bind_eq, hask.stepsBy_bind_error]
    obtain ⟨i, s₃, hR, rfl, rfl, ⟨f, hfault, _⟩ | ⟨_, hok⟩⟩ := runs_ask hask
    · refine ⟨hR.trans haside, Or.inl ⟨e, rfl, ?_⟩⟩
      rw [stepsBy_ask]
      exact .unanswered rfl (Or.inl (by rw [hfault]; exact Option.some_ne_none f))
    · cases hok
  rw [Prog.bind_eq, hask.stepsBy_bind]
  obtain ⟨i, s₃, hR, rfl, rfl, ⟨f, _, hok⟩ | ⟨hfault, hok⟩⟩ := runs_ask hask
  · cases hok
  obtain rfl := Except.ok.inj hok
  have haside' : Aside s (Op.skip.apply s₃) := hR.trans haside
  rw [stepsBy_ask]
  by_cases hbusy : i.probe.busy = true
  · rw [if_pos hbusy] at hrest ⊢
    obtain ⟨rfl, rfl, rfl⟩ := hrest.raise_inv
    rw [Prog.stepsBy_nil]
    exact ⟨haside', Or.inl ⟨_, rfl, .unanswered rfl (Or.inr ⟨hfault, hbusy⟩)⟩⟩
  · rw [if_neg hbusy] at hrest ⊢
    obtain ⟨rfl, rfl, rfl⟩ := hrest.ret_inv
    rw [Prog.stepsBy_nil]
    exact ⟨haside', Or.inr ⟨_, ⟨i, s₃, .skip⟩, ⟨⟨t, rfl, hcells⟩, hf, rfl, hfault,
      by simpa using hbusy⟩, rfl, rfl⟩⟩

theorem recordProbe_recording {res : Except Err ProbeExecution}
    (h : (recordProbe r st attempt snapshot target commitSha).Runs Op.apply Aside s l res s') :
    ∃ rows, s'.core.executions = s.core.executions ++ rows ∧
      Recording r (executionRow attempt snapshot target commitSha)
        ((recordProbe r st attempt snapshot target commitSha).stepsBy undisturbed l) rows := by
  unfold recordProbe at h ⊢
  rcases h.bind_inv with ⟨e, rfl, hexec⟩ | ⟨run, s₁, l₁, l₂, rfl, hexec, hrow⟩
  · rw [Prog.bind_eq, hexec.stepsBy_bind_error]
    obtain ⟨haside, ⟨_, _, hrecording⟩ | ⟨_, _, _, _, hok⟩⟩ := executeProbe_recording hexec
    · exact ⟨[], haside.trans (List.append_nil _).symm, hrecording⟩
    · cases hok
  obtain ⟨haside, ⟨_, hok, _⟩ | ⟨x, y, hexecuted, hsteps, hok⟩⟩ := executeProbe_recording hexec
  · cases hok
  obtain rfl := Except.ok.inj hok
  rw [Prog.bind_eq, hexec.stepsBy_bind, hsteps]
  obtain ⟨i, s₂, hR, rfl, hout⟩ := runs_tx hrow
  have hexecs : s₂.core.executions = s.core.executions := hR.trans haside
  have hanswered : Recording r (executionRow attempt snapshot target commitSha)
      [x, y, ⟨i, s₂, .commit r.owner { r.txn with executions :=
        [executionRow attempt snapshot target commitSha y.answer.probe.toProbeRunResult s₂.now] }⟩]
      (if i.fault = none then
        [executionRow attempt snapshot target commitSha y.answer.probe.toProbeRunResult s₂.now]
      else []) := .answered hexecuted rfl
  rw [stepsBy_tx (outcome_plain rfl rfl rfl rfl)]
  refine ⟨_, ?_, hanswered⟩
  cases hf : i.fault with
  | some f =>
      simp only [Txn.outcome, hf] at hout
      rw [hout.2, if_neg (Option.some_ne_none f), List.append_nil]
      exact hexecs
  | none =>
      rw [outcome_plain hf rfl rfl rfl] at hout
      rw [hout.2, commit_executions _ rfl, hexecs, if_pos rfl]

end Runs

/-! ## What is stored -/

section Stored

variable {Body : Type}

/-- The database stores the row of the result. -/
def Stores (db : Database) (spec : ProbeRunSpec) (expected : Int) (result : ProbeRunResult) : Prop :=
  ∀ cell ∈ db.text (some 64) spec.commitSha :: db.text (some 64) spec.scriptHash ::
    .integer expected :: db.result result, ¬ db.refuses cell

/-- The database stores the row of an infrastructure failure with this text. -/
def Notes (db : Database) (spec : ProbeRunSpec) (expected : Int) (c : Call Body) (error : String) :
    Prop :=
  Stores db spec expected (infraResult (commandIdentity spec) c error)

/-- The reply to `POST /probe` is read without an exception that is not a `ValueError`, and what the
row takes from it is stored; a busy verifier leaves no row. -/
def RemoteProbeRunner.AnswerStored (rr : RemoteProbeRunner Body) (db : Database)
    (spec : ProbeRunSpec) (expected : Int) (c : Call Body) : Prop :=
  match c.probe with
  | .failed error => Notes db spec expected c ("verifier request failed: " ++ error)
  | .response status body =>
      if status = 200 then
        match rr.wire.response body with
        | .error (.value name) => Notes db spec expected c ("verifier response malformed: " ++ name)
        | .error (.escapes _) => False
        | .ok resp =>
            if Names spec resp then Stores db spec expected (resp.result (commandIdentity spec))
            else Notes db spec expected c "verifier reported a different execution than requested"
      else
        match rr.wire.detail body with
        | .error _ => False
        | .ok detail =>
            (status = 409 ∧ detail = "verifier is at capacity") ∨
              Notes db spec expected c
                ("verifier returned HTTP " ++ toString status ++ ": " ++ detail)

/-- The same of a run that goes by the report `caps`. -/
def RemoteProbeRunner.ProbeStored (rr : RemoteProbeRunner Body) (db : Database)
    (spec : ProbeRunSpec) (expected : Int) (c : Call Body) (caps : Capabilities) : Prop :=
  if spec.repository ∉ caps.repositoryAllowlist then
    Notes db spec expected c "repository is not in the verifier allowlist"
  else if missingTools spec caps ≠ [] then
    Notes db spec expected c
      ("verifier lacks required tools: " ++ rr.wire.repr (missingTools spec caps))
  else if spec.manifestHash = "" ∨ spec.requestId = "" then
    Notes db spec expected c "spec lacks manifest_hash/request_id"
  else rr.AnswerStored db spec expected c

/-- **What recording a probe takes**: the bodies that are read raise nothing but a `ValueError`, and
the database stores the values that the row takes from the replies. -/
def RemoteProbeRunner.Recordable (rr : RemoteProbeRunner Body) (db : Database) (cache : Cache)
    (spec : ProbeRunSpec) (expected : Int) (c : Call Body) : Prop :=
  match fromCache false cache c, c.capabilities with
  | some kept, _ => rr.ProbeStored db spec expected c kept.2
  | none, .failed error => Notes db spec expected c ("verifier unreachable: " ++ error)
  | none, .response status body =>
      if status = 401 then
        Notes db spec expected c
          "verifier rejected our signature; check PROBE_VERIFIER_SHARED_SECRET"
      else if status ≠ 200 then
        Notes db spec expected c ("verifier capabilities returned HTTP " ++ toString status)
      else
        match rr.wire.capabilities body with
        | .error (.value name) =>
            Notes db spec expected c ("verifier capabilities malformed: " ++ name)
        | .error (.escapes _) => False
        | .ok caps =>
            match rr.vet caps with
            | .error reason => Notes db spec expected c reason
            | .ok caps => rr.ProbeStored db spec expected c caps

/-- The runner ends, and its result, if there is one, satisfies `p`. -/
def Settles (p : ProbeRunResult → Prop) : Except Json.Exc Outcome → Prop
  | .error _ => False
  | .ok .busy => True
  | .ok (.result result) => p result

variable {rr : RemoteProbeRunner Body} {db : Database} {cache : Cache} {spec : ProbeRunSpec}
  {expected : Int} {c : Call Body}

theorem answerStored_iff :
    rr.AnswerStored db spec expected c ↔ Settles (Stores db spec expected) (rr.conclude spec c) := by
  unfold RemoteProbeRunner.AnswerStored RemoteProbeRunner.conclude
  cases c.probe with
  | failed error => exact Iff.rfl
  | response status body =>
      dsimp only
      split
      · rcases rr.wire.response body with (name | e) | resp
        · exact Iff.rfl
        · exact Iff.rfl
        · dsimp only
          split
          · exact Iff.rfl
          · exact Iff.rfl
      · cases rr.wire.detail body with
        | error e => exact Iff.rfl
        | ok detail =>
            dsimp only
            split
            · next hbusy => exact iff_of_true (Or.inl hbusy) trivial
            · next hbusy => exact or_iff_right hbusy

theorem probeStored_iff {caps : Capabilities} (h : rr.capabilities false cache c = .ok (.ok caps)) :
    rr.ProbeStored db spec expected c caps ↔
      Settles (Stores db spec expected) (rr.run cache spec c) := by
  unfold RemoteProbeRunner.ProbeStored RemoteProbeRunner.run
  rw [h]
  dsimp only
  split
  · exact Iff.rfl
  · split
    · exact Iff.rfl
    · split
      · exact Iff.rfl
      · exact answerStored_iff

theorem recordable_iff :
    rr.Recordable db cache spec expected c ↔
      Settles (Stores db spec expected) (rr.run cache spec c) := by
  have hreason : ∀ {reason : String}, rr.capabilities false cache c = .ok (.error reason) →
      (Notes db spec expected c reason ↔
        Settles (Stores db spec expected) (rr.run cache spec c)) := by
    intro reason h
    unfold RemoteProbeRunner.run
    rw [h]
    exact Iff.rfl
  unfold RemoteProbeRunner.Recordable
  cases hkept : fromCache false cache c with
  | some kept =>
      refine probeStored_iff ?_
      unfold RemoteProbeRunner.capabilities
      rw [hkept]
  | none =>
      have hfetch : rr.capabilities false cache c = rr.fetch c.capabilities := by
        unfold RemoteProbeRunner.capabilities
        rw [hkept]
      cases hreply : c.capabilities with
      | failed error =>
          refine hreason ?_
          rw [hfetch, hreply]
          rfl
      | response status body =>
          rw [hreply] at hfetch
          unfold RemoteProbeRunner.fetch at hfetch
          dsimp only at hfetch ⊢
          split
          · next h401 => exact hreason (by rw [hfetch, if_pos h401])
          · next h401 =>
              rw [if_neg h401] at hfetch
              split
              · next h200 => exact hreason (by rw [hfetch, if_pos h200])
              · next h200 =>
                  rw [if_neg h200] at hfetch
                  rcases hdec : rr.wire.capabilities body with (name | e) | caps
                  · rw [hdec] at hfetch
                    exact hreason hfetch
                  · rw [hdec] at hfetch
                    refine iff_of_false not_false ?_
                    unfold RemoteProbeRunner.run
                    rw [hfetch]
                    exact not_false
                  · rw [hdec] at hfetch
                    dsimp only at hfetch ⊢
                    cases hvet : rr.vet caps with
                    | error reason => exact hreason (by rw [hfetch, hvet])
                    | ok caps' => exact probeStored_iff (by rw [hfetch, hvet])

/-- The values in the columns of the row. -/
theorem execution_executionRow {attempt : Option Nat} {snapshot : Nat × ProbeSnapshot}
    {target : ProbeTarget} {commitSha : String} {result : ProbeRunResult} {now : Nat} :
    db.execution (executionRow attempt snapshot target commitSha result now) =
      db.text (some 64) commitSha :: db.text (some 64) snapshot.2.scriptHash ::
        .integer (expectedExitCode snapshot.2 target) :: db.result result := by
  unfold Database.execution executionRow
  dsimp only
  split
  · next hnone => simp [Database.result, hnone]
  · simp [Database.result]

end Stored

/-! ## Failing closed -/

section FailsClosed

variable {Body : Type}

/-- The replies vouch for an exit code, and it is the expected one. -/
def Believed (rr : RemoteProbeRunner Body) (replies : List (Nat × Clients.Reply Body))
    (spec : ProbeRunSpec) (c : Call Body) (expected : Int) : Prop :=
  ∃ caps resp, rr.Vouches replies spec c caps resp ∧ resp.infrastructureError = none ∧
    resp.timedOut = false ∧ resp.exitCode = some expected

/-- The verifier is asked for the probe and has no free slot. -/
def Busy (rr : RemoteProbeRunner Body) (cache : Cache) (spec : ProbeRunSpec) (c : Call Body) : Prop :=
  (∃ caps, rr.Posts cache spec c caps) ∧ rr.AtCapacity c

/-- No row is a match that the replies do not vouch for, and a busy verifier leaves no row. -/
structure FailsClosed (rr : RemoteProbeRunner Body) (replies : List (Nat × Clients.Reply Body))
    (cache : Cache) (spec : ProbeRunSpec) (c : Call Body) (expected : Int)
    (rows : List ProbeExecution) : Prop where
  matched : ∀ row ∈ rows, row.verdict = .matched → Believed rr replies spec c expected
  busy : Busy rr cache spec c → rows = []

/-- Replies that are not those of a busy verifier leave a row, and the row is no match unless they
are believed. -/
def Recorded (rr : RemoteProbeRunner Body) (replies : List (Nat × Clients.Reply Body))
    (cache : Cache) (spec : ProbeRunSpec) (c : Call Body) (expected : Int)
    (rows : List ProbeExecution) : Prop :=
  ¬ Busy rr cache spec c → ∃ row, rows = [row] ∧ (¬ Believed rr replies spec c expected →
    row.verdict = .infrastructure ∨ row.verdict = .mismatched)

/-- What an action meets: the call of the runner has the outcome `run`, and a transaction that
commits has stored its values. -/
structure Meets (db : Database) (run : Except Json.Exc Outcome) (step : Prog.Step Store Input Op) :
    Prop where
  call : step.op = .skip → step.answer.fault = none →
    ∃ out, run = .ok out ∧ step.answer.probe = out.probeRun
  stored : ∀ o t, step.op = .commit o t → step.answer.fault = none →
    ∀ cell ∈ db.cells t, ¬ db.refuses cell

/-- Nothing else stands in the way of the action: the slot is granted, the call raises only what
leaves the runner, and only a value that is refused fails a transaction. -/
structure Spared (db : Database) (run : Except Json.Exc Outcome) (step : Prog.Step Store Input Op) :
    Prop where
  granted : step.answer.yes = true
  call : step.op = .skip → step.answer.fault ≠ none → ∃ e, run = .error e
  stored : ∀ o t, step.op = .commit o t → step.answer.fault ≠ none →
    ∃ cell ∈ db.cells t, db.refuses cell

variable {rr : RemoteProbeRunner Body} {replies : List (Nat × Clients.Reply Body)} {cache : Cache}
  {spec : ProbeRunSpec} {c : Call Body} {expected : Int}

theorem FailsClosed.nil : FailsClosed rr replies cache spec c expected [] where
  matched := fun _ hrow => absurd hrow List.not_mem_nil
  busy := fun _ => rfl

/-- A result that is a match is believed. -/
theorem believed_of_matched (hcache : rr.Reached c.asked replies cache) {result : ProbeRunResult}
    (hrun : rr.run cache spec c = .ok (.result result)) (h : result.verdict expected = .matched) :
    Believed rr replies spec c expected := by
  unfold ProbeRunResult.verdict at h
  split_ifs at h with hinfra hexit
  have hsound : result.infrastructureFailed = false := Bool.eq_false_iff.mpr hinfra
  obtain ⟨caps, resp, hv, rfl⟩ := RemoteProbeRunner.run_result hcache hrun hsound
  refine ⟨caps, resp, hv, ?_, hexit.2, hexit.1⟩
  simpa [ProbeRunResult.infrastructureFailed, ProbeResponse.result] using hsound

/-- What a run that is not busy adds is recorded when it adds the row of its result. -/
theorem recorded_iff (hcache : rr.Reached c.asked replies cache) {result : ProbeRunResult}
    (hrun : rr.run cache spec c = .ok (.result result)) {row : ProbeExecution}
    (hrow : row.verdict = result.verdict expected) {p : Prop} [Decidable p] :
    FailsClosed rr replies cache spec c expected (if p then [row] else []) ∧
      (Recorded rr replies cache spec c expected (if p then [row] else []) ↔ p) := by
  have hfree : ¬ Busy rr cache spec c := by
    intro hbusy
    cases (RemoteProbeRunner.run_busy.mpr hbusy).symm.trans hrun
  have hbelieved : row.verdict = .matched → Believed rr replies spec c expected :=
    fun hm => believed_of_matched hcache hrun (hrow.symm.trans hm)
  split
  · next hp =>
      refine ⟨⟨?_, fun hbusy => absurd hbusy hfree⟩, iff_of_true (fun _ => ⟨row, rfl, fun hno => ?_⟩) hp⟩
      · intro row' hrow'
        rw [List.mem_singleton.mp hrow']
        exact hbelieved
      · cases hverdict : row.verdict with
        | matched => exact absurd (hbelieved hverdict) hno
        | infrastructure => exact Or.inl rfl
        | mismatched => exact Or.inr rfl
  · next hp =>
      refine ⟨.nil, iff_of_false (fun h => ?_) hp⟩
      obtain ⟨row', hrows, -⟩ := h hfree
      cases hrows

end FailsClosed

/-- **Probe verdicts fail closed, but not every reply is recorded.** Whatever the verifier replies
to `GET /capabilities` and `POST /probe`, no row of `_execute_probe` is a match that the replies do
not vouch for, and a busy verifier leaves no row. Where nothing else stands in the way, the other
replies are recorded if and only if they can be. -/
theorem recordProbe_fails_closed_iff {Body : Type} {db : Database} (rr : RemoteProbeRunner Body)
    {replies : List (Nat × Clients.Reply Body)} {cache : Cache} (c : Call Body) (r : Runner)
    (st : CaseState) (attempt : Option Nat) (o : Origin) (snapshot : Snapshot) (target : ProbeTarget)
    (commitSha : String) {s s' : Store} {l : List (Input × Store)} {res : Except Err ProbeExecution}
    (hcache : rr.Reached c.asked replies cache)
    (hrun : (recordProbe r st attempt (snapshot.id, snapshot.row) target commitSha).Runs
      Op.apply Aside s l res s')
    (hmeets : ∀ step ∈ (recordProbe r st attempt (snapshot.id, snapshot.row) target
        commitSha).stepsBy undisturbed l,
      Meets db (rr.run cache (probeSpec o snapshot target commitSha) c) step) :
    ∃ rows, s'.core.executions = s.core.executions ++ rows ∧
      FailsClosed rr replies cache (probeSpec o snapshot target commitSha) c
        (expectedExitCode snapshot.row target) rows ∧
      ((∀ step ∈ (recordProbe r st attempt (snapshot.id, snapshot.row) target
            commitSha).stepsBy undisturbed l,
          Spared db (rr.run cache (probeSpec o snapshot target commitSha) c) step) →
        (Recorded rr replies cache (probeSpec o snapshot target commitSha) c
            (expectedExitCode snapshot.row target) rows ↔
          rr.Recordable db cache (probeSpec o snapshot target commitSha)
            (expectedExitCode snapshot.row target) c)) := by
  obtain ⟨rows, hrows, hrecording⟩ := recordProbe_recording hrun
  refine ⟨rows, hrows, ?_⟩
  rw [recordable_iff]
  revert hmeets
  generalize (recordProbe r st attempt (snapshot.id, snapshot.row) target
    commitSha).stepsBy undisturbed l = steps at hrecording ⊢
  intro hmeets
  cases hrecording with
  | @unstarted x t hop hcells hwhy =>
      refine ⟨.nil, fun hspared => ?_⟩
      have hx := hspared x List.mem_cons_self
      rcases hwhy with hfault | hno
      · obtain ⟨cell, hcell, -⟩ := hx.stored _ _ hop hfault
        rw [hcells] at hcell
        cases hcell
      · rw [hx.granted] at hno
        cases hno
  | @unanswered x y hop hwhy =>
      refine ⟨.nil, fun hspared => ?_⟩
      have hy : y ∈ [x, y] := List.mem_cons_of_mem _ List.mem_cons_self
      rcases hwhy with hfault | ⟨hfault, hbusy⟩
      · -- an exception that the runner does not catch
        obtain ⟨e, he⟩ := (hspared y hy).call hop hfault
        rw [he]
        refine iff_of_false (fun h => ?_) not_false
        obtain ⟨row, hnil, -⟩ := h (fun hb => by
          cases (RemoteProbeRunner.run_busy.mpr hb).symm.trans he)
        cases hnil
      · obtain ⟨out, hout, hprobe⟩ := (hmeets y hy).call hop hfault
        cases out with
        | result result =>
            rw [hprobe] at hbusy
            cases hbusy
        | busy =>
            rw [hout]
            exact iff_of_true (fun h => absurd (RemoteProbeRunner.run_busy.mp hout) h) trivial
  | @answered x y z hexecuted hop =>
      have hy : y ∈ [x, y, z] := List.mem_cons_of_mem _ List.mem_cons_self
      have hz : z ∈ [x, y, z] := List.mem_cons_of_mem _ (List.mem_cons_of_mem _ List.mem_cons_self)
      obtain ⟨out, hout, hprobe⟩ := (hmeets y hy).call hexecuted.call hexecuted.answered
      cases out with
      | busy =>
          have hfree := hexecuted.free
          rw [hprobe] at hfree
          cases hfree
      | result result =>
          have hresult : y.answer.probe.toProbeRunResult = result := by rw [hprobe]; rfl
          rw [hresult] at hop ⊢
          have hverdict : (executionRow attempt (snapshot.id, snapshot.row) target commitSha result
              z.store.now).verdict = result.verdict (expectedExitCode snapshot.row target) := rfl
          obtain ⟨hclosed, hiff⟩ := recorded_iff hcache hout hverdict (p := z.answer.fault = none)
          refine ⟨hclosed, fun hspared => hiff.trans ?_⟩
          rw [hout]
          have hcells : db.cells { r.txn with executions := [executionRow attempt
              (snapshot.id, snapshot.row) target commitSha result z.store.now] } =
              db.text (some 64) commitSha :: db.text (some 64) snapshot.row.scriptHash ::
                .integer (expectedExitCode snapshot.row target) :: db.result result := by
            simp [Database.cells, Runner.txn, execution_executionRow]
          constructor
          · intro hfault cell hcell
            refine (hmeets z hz).stored _ _ hop hfault cell ?_
            rw [hcells]
            exact hcell
          · intro hstores
            by_contra hfault
            obtain ⟨cell, hcell, hrefused⟩ := (hspared z hz).stored _ _ hop hfault
            rw [hcells] at hcell
            exact hstores cell hcell hrefused

/-! ### A probe that reproduces the defect, and one that prints U+0000 -/

/-- Replies that carry what they decode to. -/
def demoRunner : RemoteProbeRunner (Capabilities ⊕ ProbeResponse) where
  wire := {
    capabilities := fun body => match body with
      | .inl caps => .ok caps
      | .inr _ => .error (.value "ValidationError")
    response := fun body => match body with
      | .inl _ => .error (.value "ValidationError")
      | .inr resp => .ok resp
    detail := fun _ => .ok ""
    repr := fun _ => "" }
  requireIsolation := true

def demoSnapshot : Snapshot where
  id := 0
  row := ⟨"apache/superset#4213@sha256:5e884898da280471", "2fd4e1c6", "5e884898", 1, 0⟩
  repository := "apache/superset"
  issueNumber := 4213
  manifestHash := "03ac6742"
  timeoutSeconds := 600
  tools := ["git"]
  setupTimeoutSeconds := 1800

def demoOrigin : Origin := ⟨900, 65536, "case", "snapshot", 0, fun _ => "9f2d"⟩

abbrev demoProbeSpec : ProbeRunSpec := probeSpec demoOrigin demoSnapshot .base "2fd4e1c6"

/-- The script exits with this code and prints this. -/
def demoCall (exitCode : Int) (stdout : String) : Call (Capabilities ⊕ ProbeResponse) where
  started := 0
  asked := 0
  ended := 20
  capabilities := .response 200 (.inl {
    protocolVersion := protocolVersion
    isolation := ⟨10001, false, some true, some "0000000000000000", some 256, some 2147483648,
      false, [], some false⟩
    tools := [("git", true)], repositoryAllowlist := ["apache/superset"]
    registryPresent := true, execution := "runner" })
  probe := .response 200 (.inr {
    requestId := "9f2d", repository := "apache/superset", commitSha := "2fd4e1c6"
    scriptHash := "5e884898", commandIdentity := commandIdentity demoProbeSpec
    exitCode := some exitCode, stdout := stdout, stderr := "", outputTruncated := false
    timedOut := false, durationMs := 5, infrastructureError := none, failureStage := none
    toolVersions := [] })

def demoWorker : Runner := { cfg := demoSettings, owner := 1, claim := some 1, rounds := 0 }

abbrev demoProgram : P ProbeExecution :=
  recordProbe demoWorker .probeValidatingBase none (demoSnapshot.id, demoSnapshot.row) .base
    "2fd4e1c6"

def demoResult (exitCode : Int) (stdout : String) : ProbeRunResult where
  commandIdentity := commandIdentity demoProbeSpec
  exitCode := some exitCode
  stdout := stdout
  durationMs := 5

theorem demoRunner_run (exitCode : Int) (stdout : String) :
    demoRunner.run none demoProbeSpec (demoCall exitCode stdout) =
      .ok (.result (demoResult exitCode stdout)) := by
  rfl

/-- The store when the slot is granted, and when the result has come. -/
def demoGranted : Store := (Op.commit 1 { demoWorker.txn with
  waiting := some .clear, parksIn := some .probeValidatingBase }).apply {}

def demoAnswered : Store := Op.skip.apply demoGranted

def demoRow (exitCode : Int) (stdout : String) : ProbeExecution :=
  executionRow none (demoSnapshot.id, demoSnapshot.row) .base "2fd4e1c6" (demoResult exitCode stdout)
    demoAnswered.now

/-- The answers to the three actions; the last one, the `INSERT` of the row, meets `fault`. -/
def demoAnswers (exitCode : Int) (stdout : String) (fault : Option Fault) : List (Input × Store) :=
  [({}, {}), ({ probe := { demoResult exitCode stdout with } }, demoGranted),
    ({ fault := fault }, demoAnswered)]

theorem demoProgram_runs (exitCode : Int) (stdout : String) (fault : Option Fault) :
    ∃ res s', demoProgram.Runs Op.apply Aside {} (demoAnswers exitCode stdout fault) res s' ∧
      s'.core.executions = if fault = none then [demoRow exitCode stdout] else [] := by
  cases fault with
  | none =>
    refine ⟨.ok (demoRow exitCode stdout), (Op.commit 1 { demoWorker.txn with
            executions := [demoRow exitCode stdout] }).apply demoAnswered, ?_, rfl⟩
    exact .act _ rfl (.act _ rfl (.act _ rfl (.ret _ _)))
  | some f =>
    refine ⟨.error f.err, Op.skip.apply demoAnswered, ?_, rfl⟩
    exact .act _ rfl (.act _ rfl (.act _ rfl (.raise _ _)))

theorem demoProgram_steps (exitCode : Int) (stdout : String) (fault : Option Fault) :
      demoProgram.stepsBy undisturbed (demoAnswers exitCode stdout fault) =
        [⟨{}, {}, .commit 1 { demoWorker.txn with
            waiting := some .clear, parksIn := some .probeValidatingBase }⟩,
          ⟨{ probe := { demoResult exitCode stdout with } }, demoGranted, .skip⟩,
          ⟨{ fault := fault }, demoAnswered, .commit 1 { demoWorker.txn with
            executions := [demoRow exitCode stdout] }⟩] := by
  refine congrArg₂ List.cons rfl (congrArg₂ List.cons rfl (congrArg₂ List.cons rfl ?_))
  exact Prog.stepsBy_nil _

/-- The values of the row. -/
def demoCells (exitCode : Int) (stdout : String) : List Cell :=
  demoDatabase.cells { demoWorker.txn with executions := [demoRow exitCode stdout] }

theorem demoProgram_met {exitCode : Int} {stdout : String} {fault : Option Fault}
    (h : fault = none ↔ ∀ cell ∈ demoCells exitCode stdout, ¬ Refused cell) :
    ∀ step ∈ demoProgram.stepsBy undisturbed (demoAnswers exitCode stdout fault),
      Meets demoDatabase (demoRunner.run none demoProbeSpec (demoCall exitCode stdout)) step ∧
      Spared demoDatabase (demoRunner.run none demoProbeSpec (demoCall exitCode stdout)) step := by
  intro step hstep
  rw [demoProgram_steps] at hstep
  rw [demoRunner_run]
  simp only [List.mem_cons, List.not_mem_nil, or_false] at hstep
  rcases hstep with rfl | rfl | rfl
  · refine ⟨⟨fun hop => ?_, ?_⟩, ⟨rfl, fun hop => ?_, fun _ _ _ hfault => absurd rfl hfault⟩⟩
    · cases hop
    · intro o t hop _ cell hcell
      obtain ⟨-, rfl⟩ := Op.commit.inj hop
      exact absurd hcell List.not_mem_nil
    · cases hop
  · refine ⟨⟨fun _ _ => ⟨_, rfl, rfl⟩, fun o t hop => ?_⟩,
      ⟨rfl, fun _ hfault => absurd rfl hfault, fun o t hop => ?_⟩⟩
    · cases hop
    · cases hop
  · refine ⟨⟨fun hop => ?_, ?_⟩, ⟨rfl, fun hop => ?_, ?_⟩⟩
    · cases hop
    · intro o t hop hfault
      obtain ⟨-, rfl⟩ := Op.commit.inj hop
      exact h.mp hfault
    · cases hop
    · intro o t hop hfault
      obtain ⟨-, rfl⟩ := Op.commit.inj hop
      by_contra hno
      exact hfault (h.mpr (fun cell hcell hrefused => hno ⟨cell, hcell, hrefused⟩))

theorem demoCall_free (exitCode : Int) (stdout : String) :
    ¬ Busy demoRunner none demoProbeSpec (demoCall exitCode stdout) := by
  intro hbusy
  cases (RemoteProbeRunner.run_busy.mpr hbusy).symm.trans (demoRunner_run exitCode stdout)

/-- A script that reproduces the defect is recorded, and one that prints U+0000 is not. -/
theorem recordProbe_fails_closed_iff_demo :
    demoRunner.Recordable demoDatabase none demoProbeSpec 1 (demoCall 1 "defect") ∧
      ¬ demoRunner.Recordable demoDatabase none demoProbeSpec 1 (demoCall 0 "\x00") := by
  constructor
  · obtain ⟨res, s', hrun, hrows⟩ := demoProgram_runs 1 "defect" none
    have hmet := @demoProgram_met 1 "defect" none (iff_of_true rfl (by decide +kernel))
    obtain ⟨rows, hadded, -, hiff⟩ := recordProbe_fails_closed_iff demoRunner (demoCall 1 "defect")
      demoWorker .probeValidatingBase none demoOrigin demoSnapshot .base "2fd4e1c6" (.init 0) hrun
      (fun step hstep => (hmet step hstep).1)
    refine (hiff fun step hstep => (hmet step hstep).2).mp (fun _ => ⟨demoRow 1 "defect", ?_, ?_⟩)
    · exact hadded.symm.trans hrows
    · exact fun hno => absurd (believed_of_matched (.init 0) (demoRunner_run 1 "defect") rfl) hno
  · obtain ⟨res, s', hrun, hrows⟩ := demoProgram_runs 0 "\x00" (some .data)
    have hmet := @demoProgram_met 0 "\x00" (some .data) (iff_of_false nofun (by decide +kernel))
    obtain ⟨rows, hadded, -, hiff⟩ := recordProbe_fails_closed_iff demoRunner (demoCall 0 "\x00")
      demoWorker .probeValidatingBase none demoOrigin demoSnapshot .base "2fd4e1c6" (.init 0) hrun
      (fun step hstep => (hmet step hstep).1)
    intro hrecordable
    obtain ⟨row, hrow, -⟩ := (hiff fun step hstep => (hmet step hstep).2).mpr hrecordable
      (demoCall_free 0 "\x00")
    rw [hrows] at hadded
    rw [hrow] at hadded
    cases hadded

/-- The script prints U+0000 and exits with a code that was not expected: no row is left. -/
theorem nul_unrecorded :
    ∃ res s', demoProgram.Runs Op.apply Aside {} (demoAnswers 0 "\x00" (some .data)) res s' ∧
      (∀ step ∈ demoProgram.stepsBy undisturbed (demoAnswers 0 "\x00" (some .data)),
        Meets demoDatabase (demoRunner.run none demoProbeSpec (demoCall 0 "\x00")) step ∧
        Spared demoDatabase (demoRunner.run none demoProbeSpec (demoCall 0 "\x00")) step) ∧
      ¬ Recorded demoRunner [] none demoProbeSpec (demoCall 0 "\x00") 1 s'.core.executions := by
  obtain ⟨res, s', hrun, hrows⟩ := demoProgram_runs 0 "\x00" (some .data)
  refine ⟨res, s', hrun, demoProgram_met (iff_of_false nofun (by decide +kernel)), ?_⟩
  intro h
  obtain ⟨row, hrow, -⟩ := h (demoCall_free 0 "\x00")
  rw [hrows] at hrow
  cases hrow

end Remediator.Probes
