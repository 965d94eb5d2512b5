import Remediator.Approvals

set_option autoImplicit false

/-! # The remediation pipeline

`remediator/worker/remediation.py`: from an approved round to a verified pull request. Zero
cost stages first (dispatch preconditions, the probe at the pinned base commit), then the Devin
session, then the stages that corroborate its result.
-/

namespace Remediator

open Interleave

/-! ## Shared endings -/

/-- The latest remediation attempt, as an object of this session: `mem` is the object the
session already holds. -/
def latestRemediationAttempt (mem : Option AttemptObj) (s : Store) : Option AttemptObj :=
  (newestAttempt (fun a => decide (a.kind = .remediation)) s.core.attempts).map (fun a =>
    match mem with
    | some m => if m.id = a.id then m else a
    | none => a)

/-- What a stage leaves behind: its copy of the state and the attempt object. -/
abbrev StageResult := CaseState × Option AttemptObj

/-- The attempt with its failure recorded. -/
def markFailure (stage : FailureStage) (cls : FailureClass) (a : Attempt) : Attempt :=
  { a with failureStage := some stage, failureClass := some cls }

/-- `RemediationPipeline._fail` on an attempt, inside the transaction `t`. -/
def Runner.failStage (r : Runner) (st : CaseState) (a : AttemptObj) (stage : FailureStage)
    (cls : FailureClass) (t : Txn) (s : Store) : Txn × StageResult :=
  let row := markFailure stage cls a.row
  let (t, st) := failCase r.claim st { t with writes := t.writes ++ [a.write row] } s
  (t, st, some ⟨a.id, row⟩)

/-- `RemediationPipeline._fail` before an attempt exists. -/
def Runner.failDispatch (r : Runner) (st : CaseState) : P CaseState :=
  tx r.owner (fun _ s => .ok (failCase r.claim st r.txn s))

/-- `_human_block` on an attempt, inside the transaction `t`. -/
def Runner.blockStage (r : Runner) (st : CaseState) (a : AttemptObj) (stage : FailureStage)
    (t : Txn) : Txn × StageResult :=
  let row := markFailure stage .policy a.row
  ({ t with
      writes := t.writes ++ [a.write row]
      failureReason := some (some .other)
      moves := t.moves ++ [r.move st .remediationHumanBlocked]
      newOutbox := t.newOutbox ++ [notice] }, .remediationHumanBlocked, some ⟨a.id, row⟩)

/-- `_human_block` before an attempt exists. -/
def Runner.humanBlock (r : Runner) (st : CaseState) (reason : Reason) : P CaseState :=
  tx r.owner (fun _ _ => .ok ({ r.txn with
    failureReason := some (some reason)
    moves := [r.move st .remediationHumanBlocked]
    newOutbox := [notice] }, .remediationHumanBlocked))

/-- `_notify`: a progress update of the newest round's Slack message. -/
def Runner.notify (r : Runner) : P Unit :=
  tx r.owner (fun _ s => .ok ({ r.txn with
    newOutbox := match openRequest s with
      | some (id, req) => statusUpdate id req
      | none => [] }, ()))

/-- `_MILESTONE_STATES`. -/
def CaseState.milestone : CaseState → Bool
  | .remediationCreateIntent | .remediating | .remediationReconcilingCreate | .prDiscovered
  | .probeValidatingHead | .prValidated | .ciPending => true
  | _ => false

/-- `_milestone`. -/
def Runner.milestone (r : Runner) (before now : CaseState) : P Unit :=
  if now ≠ before ∧ now.milestone then r.notify else pure ()

/-! ## Dispatch preconditions -/

/-- `_approved_request`: the id of the round that authorises the dispatch. -/
def approvedRequest (approvals : List ApprovalRequest) (as : List Attempt) :
    Option (Nat × ApprovalRequest) :=
  match approvals.getLast? with
  | some r =>
      if r.decision = .approved ∧ isCurrentRequest approvals as (approvals.length - 1) r = true ∧
          r.deliveryStatus = .confirmed ∧ r.labelConfirmedAt.isSome then
        some (approvals.length - 1, r)
      else none
  | none => none

/-- `_validated_triage`. -/
def validatedTriage (cfg : Settings) (as : List Attempt) (r : ApprovalRequest) : Option Doc :=
  match (as[r.attemptId]?).bind (·.structuredOutput) with
  | some output =>
      match cfg.validateTriage output with
      | some raw => if cfg.triageResultHash raw = r.triageResultHash then some raw else none
      | none => none
  | none => none

/-- The round that passes both checks. -/
def authorised (cfg : Settings) (approvals : List ApprovalRequest) (as : List Attempt) :
    Option (Nat × ApprovalRequest) :=
  (approvedRequest approvals as).filter (fun x => (validatedTriage cfg as x.2).isSome)

/-- `latest_probe_snapshot`. -/
def latestProbeSnapshot (c : Core) : Option (Nat × ProbeSnapshot) :=
  c.snapshots.getLast?.map (fun p => (c.snapshots.length - 1, p))

/-- `_probe_policy_decision`. -/
def probePolicyDecision (c : Core) (hash : String) : Option ProbePolicyDecision :=
  c.decisions.find? (fun d => decide (d.triageResultHash = hash))

/-- `_dispatch_without_probe`. -/
def Runner.dispatchWithoutProbe (r : Runner) (st : CaseState) (hash : String) : P CaseState := do
  let existing ← tx r.owner (fun _ s => .ok (r.txn, (probePolicyDecision s.core hash).isSome))
  let sha ← if existing then pure none else do
    match ← ask (fun i => if i.yes then some i.sha else none) with
    | some sha => pure (some sha)
    | none => throw .transientVerification
  tx r.owner (fun _ s =>
    match sha with
    | some sha =>
        -- the unique constraint on (case, triage hash)
        if (probePolicyDecision s.core hash).isSome then .error .integrity
        else .ok (withoutProbe [⟨hash, sha⟩])
    | none => .ok (withoutProbe []))
where
  withoutProbe (decisions : List ProbePolicyDecision) : Txn × CaseState :=
    ({ r.txn with
        decisions := decisions
        failureReason := some none
        moves := [⟨st, .remediationCreateIntent, .worker, r.claim, true⟩] },
      .remediationCreateIntent)

/-- Its last transaction, with the commit it has asked for. -/
def Runner.decideWithoutProbe (r : Runner) (st : CaseState) (hash : String)
    (sha : Option String) : Input → Store → Except Err (Txn × CaseState) := fun _ s =>
  match sha with
  | some sha =>
      if (probePolicyDecision s.core hash).isSome then .error .integrity
      else .ok (dispatchWithoutProbe.withoutProbe r st [⟨hash, sha⟩])
  | none => .ok (dispatchWithoutProbe.withoutProbe r st [])

/-- `_dispatch`. -/
def Runner.dispatch (r : Runner) (st : CaseState) : P CaseState := do
  if r.cfg.repositoryAllowed = false then r.failDispatch st
  else
    match ← tx r.owner (fun _ s =>
        .ok (r.txn, authorised r.cfg s.approvals s.core.attempts)) with
    | none => r.failDispatch st
    | some (_, request) =>
        if Devin.normalize r.cfg.githubBaseRef = "" then r.failDispatch st
        else
          let issue ← getIssue r.cfg
          if issue.retryable then throw .transientVerification
          else if issue.refused ∨ r.cfg.remediationLabel ∉ issue.labels then r.failDispatch st
          else if issue.state ≠ "open" then r.humanBlock st .other
          else
            let busy ← tx r.owner (fun _ s => .ok (r.txn,
              s.core.attempts.any (activeOfKind .remediation) ||
                s.core.evidence.any (fun e => e.valid)))
            if busy then r.humanBlock st .other
            else
              match ← ask (fun i => i.registry) with
              | .missing =>
                  if r.cfg.probeRequired then r.humanBlock st .missingProbe
                  else r.dispatchWithoutProbe st request.triageResultHash
              | .invalid => r.humanBlock st .other
              | .probe p =>
                  tx r.owner (fun _ _ => .ok ({ r.txn with
                    snapshots := [p]
                    moves := [r.move st .probeValidatingBase] }, .probeValidatingBase))

/-- `_resume_missing_probe_block`. -/
def Runner.resumeMissingProbe (r : Runner) (st : CaseState) (reason : Option Reason) :
    P CaseState :=
  if r.cfg.probeRequired ∨ reason ≠ some .missingProbe then pure st
  else tx r.owner (fun _ _ => .ok ({ r.txn with
    moves := [r.move st .remediationApproved], failureReason := some none },
    .remediationApproved))

/-! ## The probe -/

/-- The exit code that the snapshot expects of the target. -/
def expectedExitCode (snapshot : ProbeSnapshot) : ProbeTarget → Int
  | .base => snapshot.expectedBaseExitCode
  | .head => snapshot.expectedHeadExitCode

/-- The verdict on a result. -/
def ProbeRunResult.verdict (result : ProbeRunResult) (expected : Int) : ProbeVerdict :=
  if result.infrastructureFailed then .infrastructure
  else if result.exitCode = some expected ∧ result.timedOut = false then .matched
  else .mismatched

/-- The row of a result. -/
def executionRow (attempt : Option Nat) (snapshot : Nat × ProbeSnapshot) (target : ProbeTarget)
    (commitSha : String) (result : ProbeRunResult) (now : Nat) : ProbeExecution where
  attemptId := attempt
  probeSnapshotId := snapshot.1
  target := target
  commitSha := commitSha
  scriptHash := snapshot.2.scriptHash
  runnerMode := result.runnerMode
  commandIdentity := result.commandIdentity
  expectedExitCode := expectedExitCode snapshot.2 target
  exitCode := result.exitCode
  verdict := result.verdict (expectedExitCode snapshot.2 target)
  timedOut := result.timedOut
  durationMs := some result.durationMs
  stdout := result.stdout
  stderr := result.stderr
  outputTruncated := result.outputTruncated
  error := result.infrastructureError
  failureStage := result.failureStage
  toolVersions := if result.toolVersions = [] then none else some result.toolVersions
  finishedAt := now

/-- `_execute_probe` up to its row, which the caller inserts. `CapacityWait` leaves the case
parked. -/
def Runner.executeProbe (r : Runner) (st : CaseState) (attempt : Option Nat)
    (snapshot : Nat × ProbeSnapshot) (target : ProbeTarget) (commitSha : String) :
    P (Nat → ProbeExecution) := do
  let granted ← r.acquireSlot st .probe
  if granted = false then throw .capacityWait
  else
    let run ← ask (fun i => i.probe)
    if run.busy then throw .transientVerification
    else pure (executionRow attempt snapshot target commitSha run.toProbeRunResult)

/-- `_probe_base`. -/
def Runner.probeBase (r : Runner) (st : CaseState) : P CaseState := do
  match ← tx r.owner (fun _ s => .ok (r.txn, latestProbeSnapshot s.core)) with
  | none => r.failDispatch st
  | some snapshot =>
      let run ← r.executeProbe st none snapshot .base snapshot.2.baseSha
      let execution ← tx r.owner (fun _ s =>
        .ok ({ r.txn with executions := [run s.now] }, run s.now))
      match execution.verdict with
      | .infrastructure =>
          tx r.owner (fun _ _ => .ok ({ r.txn with
            failureReason := some (some .other)
            moves := [r.move st .probeInfrastructureBlocked] }, .probeInfrastructureBlocked))
      | .matched =>
          tx r.owner (fun _ _ => .ok ({ r.txn with
            moves := [r.move st .remediationCreateIntent] }, .remediationCreateIntent))
      | .mismatched =>
          if execution.exitCode = some snapshot.2.expectedHeadExitCode ∧
              execution.timedOut = false then
            r.humanBlock st .other
          else r.failDispatch st

/-- `_matched_base_execution`: the newest unconsumed `BASE` run that reproduced the defect. -/
def matchedBaseExecution (c : Core) (snapshot : Nat × ProbeSnapshot) : Option Nat :=
  ((List.range c.executions.length).filter (fun i =>
    match c.executions[i]? with
    | some e => decide (e.probeSnapshotId = snapshot.1) && decide (e.target = .base) &&
        decide (e.verdict = .matched) && decide (e.commitSha = snapshot.2.baseSha) &&
        decide (e.scriptHash = snapshot.2.scriptHash) && e.attemptId.isNone
    | none => false)).getLast?

/-! ## The session -/

/-- What `_load_context` finds. -/
def dispatchContext (cfg : Settings) (s : Store) : Option RemediationContext :=
  match authorised cfg s.approvals s.core.attempts with
  | none => none
  | some (id, req) =>
      match latestProbeSnapshot s.core with
      | none =>
          (probePolicyDecision s.core req.triageResultHash).map (fun d =>
            ⟨id, req.triageResultHash, d.baseSha, none, none⟩)
      | some probe =>
          (matchedBaseExecution s.core probe).map (fun e =>
            ⟨id, req.triageResultHash, probe.2.baseSha, some probe, some e⟩)

/-- `_load_context`. -/
def Runner.loadContext (r : Runner) : P (Option RemediationContext) :=
  tx r.owner (fun _ s =>
    .ok (r.txn, dispatchContext r.cfg s))

/-- The termination branch of `_run_session` without a pending attempt. -/
def Runner.terminateCase (r : Runner) (st : CaseState) : P CaseState := do
  let (ws, confirmed) ← terminateRunningAttempts r.owner
  if confirmed then
    tx r.owner (fun _ _ =>
      let dst := (phaseForState st).cancelled
      .ok ({ r.txn with writes := ws, moves := [r.move st dst] }, dst))
  else
    tx r.owner (fun _ _ => .ok ({ r.txn with
      writes := ws, failureReason := some (some .cancelRequested) }, st))

/-- `_acquire_resource_keys` of a probe manifest. -/
def Runner.acquireResourceKeys (r : Runner) (st : CaseState) : P Unit := do
  let granted ← r.acquireSlot st .resource
  if granted = false then throw .capacityWait else pure ()

/-- `_run_session` from `runner.run` on. -/
def Runner.runAttempt (r : Runner) (st : CaseState) : P StageResult := do
  let (st, out) ← r.run .remediation st
  match out.result, out.attempt with
  | .finished, some a =>
      tx r.owner (fun _ _ =>
        let row := { a.row with status := .succeeded, devinPullRequests := out.pullRequests }
        .ok ({ r.txn with
               writes := [a.write row], moves := [r.move st .outputValidating] },
          .outputValidating, some ⟨a.id, row⟩))
  | _, a => pure (st, a)

/-- `_run_session`. Without a dispatch context no session may be created, but an active attempt
may own one and is still run. -/
def Runner.runSession (r : Runner) (st : CaseState) : P StageResult := do
  let ctx ← r.loadContext
  let refused ← if ctx.isSome ∨ st = .remediationTerminationPending then pure false
    else tx r.owner (fun _ s =>
      .ok (r.txn, !s.core.attempts.any (activeOfKind .remediation)))
  if refused then
    let st ← r.failDispatch st
    pure (st, none)
  else
    let r := { r with remediation := ctx }
    let cancel ← if st = .remediationTerminationPending then
        tx r.owner (fun _ s => .ok (r.txn,
          !s.core.attempts.any (fun a => decide (a.status = .terminationPending))))
      else pure false
    if cancel then
      let st ← r.terminateCase st
      pure (st, none)
    else
      if (ctx.bind (·.probe)).isSome then r.acquireResourceKeys st
      r.runAttempt st

end Remediator
