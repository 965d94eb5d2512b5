import Remediator.Worker.Loop

set_option autoImplicit false

/-! # The operator

`remediator/api/operator.py`: the actions that change a case, its attempts or the outbox. None
of them holds the claim of the case. What an action read before its commit may be out of date
when it commits; only the state of the case is compared.
-/

namespace Remediator

open Interleave

/-- `_notify_remediation`. -/
def notifyRemediation (s : Store) : List OutboxRow :=
  match openRequest s with
  | some (id, r) => statusUpdate id r
  | none => []

/-- A transition of an operator. -/
def operatorMove (st dst : CaseState) : Move := ⟨st, dst, .operator, none, false⟩

/-- `session.get(Case, ..)`. -/
def readState (o : Owner) : P CaseState :=
  tx o (fun _ s => if s.case.created then .ok ({}, s.case.state) else .error .other)

/-! ## Cancel -/

/-- `_may_own_session`. -/
def mayOwnSession (as : List Attempt) : Bool :=
  as.any (fun a => a.status.isOpen && a.createSentAt.isSome)

/-- Where `_case_action` moves a case that is to be cancelled. -/
def cancelTarget (st : CaseState) (owns : Bool) : CaseState :=
  if owns then
    if st.remediationPhase then .remediationTerminationPending else .terminationPending
  else if st.remediationPhase ∧ st.terminal = false then .remediationCancelled
  else .cancelled

/-- `cancel_case`: the state, the attempts and the commit are separate statements. -/
def cancelCase (o : Owner) : P Unit := do
  let st ← readState o
  let owns ← if st = .triaging ∨ st = .remediating then pure true
    else tx o (fun _ s => .ok ({}, mayOwnSession s.core.attempts))
  tx o (fun _ s => .ok ({
    moves := [operatorMove st (cancelTarget st owns)]
    newOutbox := if st.remediationPhase then notifyRemediation s else [] }, ()))

/-! ## Retry -/

/-- The attempts `_acknowledge_unresolved` asks the operator about. -/
def unacknowledged (a : Attempt) : Bool :=
  decide (a.createState = .unresolved) &&
    (decide (a.status = .blocked) || decide (a.status = .reconciling)) &&
    decide (a.reconciliationReason ≠ some .createAck)

/-- The rows `_acknowledge_unresolved` changes. -/
def acknowledgeWrites (as : List Attempt) : List (Write Attempt) :=
  attemptWrites unacknowledged (fun row => { row with reconciliationReason := some .createAck }) as

/-- `_refuse_unreconciled_blocked`. -/
def unreconciled (as : List Attempt) : Bool :=
  as.any (fun a => decide (a.kind = .triage) && decide (a.status = .blocked) &&
    a.devinSessionId.isSome && decide (a.reconciliationReason ≠ some .reconciledGone) &&
    decide (a.reconciliationReason ≠ some .reconciledNoOutput))

def countKind (kind : AttemptKind) (as : List Attempt) : Nat :=
  (as.filter (fun a => decide (a.kind = kind))).length

/-- The checks of a retry, on what the action reads; the result is the target state. -/
def retryTarget (cfg : Settings) (st : CaseState) (as : List Attempt) : Option CaseState :=
  if st.remediationPhase then
    if st.remediationRetryable = false ∨ as.any (activeOfKind .remediation) ∨
        cfg.maxAttemptsPerKind ≤ countKind .remediation as then none
    else some .remediationApproved
  else if st = .humanBlocked ∧ unreconciled as then none
  else if cfg.maxAttemptsPerKind ≤ countKind .triage as ∧ 0 < countKind .triage as then none
  else if cfg.maxAttemptsPerKind ≤ countKind .remediation as ∧ 0 < countKind .remediation as then
    none
  else some .received

/-- `retry_case`: the checks, and then the commit. `confirm_no_session` is the answer `yes`. -/
def retryCase (cfg : Settings) (o : Owner) : P Unit := do
  let st ← readState o
  let (dst, ws) ← tx o (fun i s =>
    let ws := acknowledgeWrites s.core.attempts
    match retryTarget cfg st s.core.attempts with
    | none => .error .invalidTransition
    | some dst =>
        if ws.isEmpty = false ∧ i.yes = false then .error .invalidTransition
        else .ok ({}, dst, ws))
  tx o (fun _ s => .ok ({
    writes := ws
    moves := [operatorMove st dst]
    newOutbox := if st.remediationPhase then notifyRemediation s else [] }, ()))

/-! ## Reconcile -/

/-- `reconcile_session`: the retained sessions of a blocked triage are read again. -/
def reconcileSession (cfg : Settings) (o : Owner) (rounds : Nat) : P Unit := do
  let st ← readState o
  if st ≠ .humanBlocked then throw .invalidTransition
  else Runner.reconcileBlockedTriage { cfg := cfg, owner := o, claim := none, rounds := rounds } st

/-! ## Re-running a verification step -/

/-- `_verified_attempt_action`, under the lock of the case. -/
def verifiedAttemptAction (dst : CaseState) (sources : List CaseState) (stage : FailureStage)
    (infrastructureOnly : Bool) (s : Store) : Except Err Txn :=
  if s.case.state ∉ sources then .error .invalidTransition
  else
    match latestRemediationAttempt none s with
    | none => .error .invalidTransition
    | some a =>
        if a.row.headSha.isNone ∨ a.row.prUrl.isNone ∨ a.row.status.active ∨
            a.row.failureStage ≠ some stage ∨
            (infrastructureOnly ∧ a.row.failureClass ≠ some .infrastructure) then
          .error .invalidTransition
        else
          .ok { writes := [a.write { a.row with
                  failureStage := none, failureClass := none
                  ciDeadlineAt := if dst = .ciPending then none else a.row.ciDeadlineAt }]
                failureReason := some none
                moves := [operatorMove s.case.state dst]
                newOutbox := notifyRemediation s }

/-- `retry_ci`. -/
def retryCi (o : Owner) : P Unit :=
  tx o (fun _ s =>
    (verifiedAttemptAction .ciPending [.ciFailed, .remediationFailed] .ci false s).map
      (fun t => (t, ())))

/-- `retry_probe`: the base probe of a blocked case, else the head probe of the attempt. -/
def retryProbe (o : Owner) : P Unit :=
  tx o (fun _ s =>
    if s.case.state = .probeInfrastructureBlocked then
      if s.core.attempts.any (activeOfKind .remediation) then .error .invalidTransition
      else .ok ({
        failureReason := some none
        moves := [operatorMove s.case.state .probeValidatingBase]
        newOutbox := notifyRemediation s }, ())
    else
      (verifiedAttemptAction .probeValidatingHead [.remediationFailed] .probeHead true s).map
        (fun t => (t, ())))

/-! ## The outbox -/

/-- `retry_outbox`. -/
def retryOutbox (o : Owner) (id : Nat) : P Unit :=
  tx o (fun _ s =>
    match s.outbox[id]? with
    | none => .error .other
    | some row =>
        if row.status ≠ .failed then .error .other
        else
          .ok ({ outboxWrites := [⟨id, row, { row with
                   status := .pending, attemptsCount := 0, claimedBy := none
                   leaseExpiresAt := none }⟩]
                 approvalWrites := (row.approvalRequestId.bind (fun rid =>
                   s.approvals[rid]?.map (fun r => (⟨rid, r, requeued row.kind r⟩ :
                     Write ApprovalRequest)))).toList }, ()))
where
  requeued (kind : OutboxKind) (r : ApprovalRequest) : ApprovalRequest :=
    match kind with
    | .githubApplyLabel =>
        if r.deliveryStatus = .failed then { r with deliveryStatus := .pending } else r
    | .slackApprovalRequest =>
        if r.notificationStatus = .failed then { r with notificationStatus := .pending } else r
    | .githubRejectionComment | .notification => r

end Remediator
