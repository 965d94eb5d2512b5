import Remediator.Lifecycle

set_option autoImplicit false

/-! # Rows

`remediator/models.py`, restricted to the columns that some modelled function reads. The
model follows one case, so the foreign keys to the case are implicit; a row's id is its
position in its table. Timestamps are natural numbers.
-/

namespace Remediator

/-- A JSON document, as its canonical text. -/
abbrev Doc := String

/-- The identity a worker loop writes to `claimed_by`. -/
abbrev Owner := Nat

/-- The position of a remote Devin session; the client sees it as an opaque id. -/
abbrev SessionId := Nat

/-! ## Attempts -/

/-- `AttemptStatus`. -/
inductive AttemptStatus
  | running
  | succeeded
  | failed
  | blocked
  | cancelled
  | reconciling
  | terminationPending
  | timedOut
  deriving DecidableEq

/-- `ACTIVE_ATTEMPT_STATUSES`. -/
def AttemptStatus.active : AttemptStatus → Bool
  | running | reconciling | terminationPending => true
  | _ => false

/-- Active or `BLOCKED`: the attempt may still stand for a remote session. -/
def AttemptStatus.isOpen : AttemptStatus → Bool
  | running | reconciling | terminationPending | blocked => true
  | _ => false

/-- `CreateState`: the outcome of the single `POST /sessions` of an attempt. -/
inductive CreateState
  | pending
  | notSent
  | created
  | uncertain
  | reconciled
  | apiError
  | unresolved
  deriving DecidableEq

/-- `operation_key` and `remediation_operation_key`: the exact tag of the session. -/
inductive OperationKey
  | triage (ordinal : Nat)
  | remediation (triageResultHash baseSha : String) (ordinal : Nat)
  deriving DecidableEq

/-- What the code distinguishes in `attempts.reconciliation_reason` and
`cases.failure_reason`; the rest of the text is for humans. -/
inductive Reason
  /-- starts with `CANCEL_TERMINATION_REASON` -/
  | cancelRequested
  /-- starts with `WORKER_ERROR_TERMINATION_PREFIX` -/
  | workerError
  /-- `UNRESOLVED_CREATE_ACK` -/
  | createAck
  /-- starts with `RECONCILED_NO_OUTPUT_PREFIX`, the session no longer exists -/
  | reconciledGone
  /-- starts with `RECONCILED_NO_OUTPUT_PREFIX` otherwise -/
  | reconciledNoOutput
  /-- starts with `MISSING_PROBE_BLOCK_PREFIX`, nothing is registered for the issue -/
  | missingProbe
  | other
  deriving DecidableEq

/-- `ProbeStatus`. -/
inductive ProbeStatus
  | verified
  | notConfigured
  deriving DecidableEq

/-- `attempts.failure_stage`. -/
inductive FailureStage
  | session
  | output
  | pr
  | probeHead
  | ci
  deriving DecidableEq

/-- `FAILURE_CLASS_*`. -/
inductive FailureClass
  | infrastructure
  | verification
  | policy
  | session
  deriving DecidableEq

structure Attempt where
  kind : AttemptKind
  ordinal : Nat
  operationKey : OperationKey
  startedAt : Nat
  approvalRequestId : Option Nat := none
  triageResultHash : Option String := none
  probeSnapshotId : Option Nat := none
  probeStatus : ProbeStatus := .verified
  baseSha : Option String := none
  createState : CreateState := .pending
  status : AttemptStatus := .running
  devinSessionId : Option SessionId := none
  createSentAt : Option Nat := none
  timeoutAt : Option Nat := none
  finishedAt : Option Nat := none
  structuredOutput : Option Doc := none
  reconciliationReason : Option Reason := none
  devinPullRequests : List String := []
  prUrl : Option String := none
  prNumber : Option Nat := none
  branch : Option String := none
  headSha : Option String := none
  ciDeadlineAt : Option Nat := none
  failureStage : Option FailureStage := none
  failureClass : Option FailureClass := none

/-- `Attempt.without_probe`. -/
def Attempt.withoutProbe (a : Attempt) : Bool := decide (a.probeStatus = .notConfigured)

/-- A column as the unit of work writes it: only an attribute that differs from what the
session loaded is in the `UPDATE`. -/
def pick {α : Type} [DecidableEq α] (loaded changed row : α) : α :=
  if loaded = changed then row else changed

/-- The row after the unit of work has flushed the object `changed`, loaded as `loaded`. The
first nine columns are never assigned after the insert. -/
def Attempt.merge (loaded changed row : Attempt) : Attempt where
  kind := row.kind
  ordinal := row.ordinal
  operationKey := row.operationKey
  startedAt := row.startedAt
  approvalRequestId := row.approvalRequestId
  triageResultHash := row.triageResultHash
  probeSnapshotId := row.probeSnapshotId
  probeStatus := row.probeStatus
  baseSha := row.baseSha
  createState := pick loaded.createState changed.createState row.createState
  status := pick loaded.status changed.status row.status
  devinSessionId := pick loaded.devinSessionId changed.devinSessionId row.devinSessionId
  createSentAt := pick loaded.createSentAt changed.createSentAt row.createSentAt
  timeoutAt := pick loaded.timeoutAt changed.timeoutAt row.timeoutAt
  finishedAt := pick loaded.finishedAt changed.finishedAt row.finishedAt
  structuredOutput := pick loaded.structuredOutput changed.structuredOutput row.structuredOutput
  reconciliationReason :=
    pick loaded.reconciliationReason changed.reconciliationReason row.reconciliationReason
  devinPullRequests :=
    pick loaded.devinPullRequests changed.devinPullRequests row.devinPullRequests
  prUrl := pick loaded.prUrl changed.prUrl row.prUrl
  prNumber := pick loaded.prNumber changed.prNumber row.prNumber
  branch := pick loaded.branch changed.branch row.branch
  headSha := pick loaded.headSha changed.headSha row.headSha
  ciDeadlineAt := pick loaded.ciDeadlineAt changed.ciDeadlineAt row.ciDeadlineAt
  failureStage := pick loaded.failureStage changed.failureStage row.failureStage
  failureClass := pick loaded.failureClass changed.failureClass row.failureClass

/-! ## Approval requests -/

/-- `ApprovalDecision`. -/
inductive ApprovalDecision
  | pending
  | approved
  | rejected
  | expired
  | superseded
  deriving DecidableEq

/-- `DeliveryStatus`. -/
inductive DeliveryStatus
  | notRequested
  | pending
  | labelApplied
  | confirmed
  | failed
  deriving DecidableEq

/-- `NotificationStatus`. -/
inductive NotificationStatus
  | pending
  | sending
  | sent
  | failed
  deriving DecidableEq

structure ApprovalRequest where
  attemptId : Nat
  triageResultHash : String
  tokenExpiresAt : Nat
  createdAt : Nat
  actionTokenHash : Option String := none
  notificationStatus : NotificationStatus := .pending
  slackMessage : Bool := false
  decision : ApprovalDecision := .pending
  decidedBySlackUserId : Option String := none
  deliveryStatus : DeliveryStatus := .notRequested
  labelRequestedAt : Option Nat := none
  labelAppliedAt : Option Nat := none
  labelConfirmedAt : Option Nat := none
  commentRequestedAt : Option Nat := none
  githubCommentId : Option Nat := none

/-- As `Attempt.merge`, for an approval request. -/
def ApprovalRequest.merge (loaded changed row : ApprovalRequest) : ApprovalRequest where
  attemptId := row.attemptId
  triageResultHash := row.triageResultHash
  createdAt := row.createdAt
  tokenExpiresAt := pick loaded.tokenExpiresAt changed.tokenExpiresAt row.tokenExpiresAt
  actionTokenHash := pick loaded.actionTokenHash changed.actionTokenHash row.actionTokenHash
  notificationStatus :=
    pick loaded.notificationStatus changed.notificationStatus row.notificationStatus
  slackMessage := pick loaded.slackMessage changed.slackMessage row.slackMessage
  decision := pick loaded.decision changed.decision row.decision
  decidedBySlackUserId :=
    pick loaded.decidedBySlackUserId changed.decidedBySlackUserId row.decidedBySlackUserId
  deliveryStatus := pick loaded.deliveryStatus changed.deliveryStatus row.deliveryStatus
  labelRequestedAt := pick loaded.labelRequestedAt changed.labelRequestedAt row.labelRequestedAt
  labelAppliedAt := pick loaded.labelAppliedAt changed.labelAppliedAt row.labelAppliedAt
  labelConfirmedAt := pick loaded.labelConfirmedAt changed.labelConfirmedAt row.labelConfirmedAt
  commentRequestedAt :=
    pick loaded.commentRequestedAt changed.commentRequestedAt row.commentRequestedAt
  githubCommentId := pick loaded.githubCommentId changed.githubCommentId row.githubCommentId

/-- `ActionOutcome`. -/
inductive ActionOutcome
  | approved
  | rejected
  | duplicate
  | alreadyDecided
  | unknownToken
  | expiredToken
  | staleToken
  | unauthorized
  | incompatibleState
  | unknownAction
  deriving DecidableEq

/-- `SlackActionInput`, less the free text of the reason. -/
structure SlackActionInput where
  token : String
  slackUserId : String
  actionId : String
  actionTs : String
  responseUrl : Option String := none
  deriving DecidableEq

/-- `SlackAction`. -/
structure SlackAction where
  approvalRequestId : Nat
  dedupeKey : String
  slackUserId : String
  actionId : String
  actionTs : String
  outcome : ActionOutcome
  deriving DecidableEq

/-! ## Probe evidence, pull requests and CI -/

/-- `ProbeTarget`. -/
inductive ProbeTarget
  | base
  | head
  deriving DecidableEq

/-- `ProbeVerdict`. -/
inductive ProbeVerdict
  | matched
  | mismatched
  | infrastructure
  deriving DecidableEq

structure ProbeSnapshot where
  probeIdentifier : String
  baseSha : String
  scriptHash : String
  expectedBaseExitCode : Int
  expectedHeadExitCode : Int
  deriving DecidableEq

/-- `ProbeRunResult`. -/
structure ProbeRunResult where
  runnerMode : String := "remote"
  commandIdentity : String := ""
  exitCode : Option Int := none
  stdout : String := ""
  stderr : String := ""
  outputTruncated : Bool := false
  timedOut : Bool := false
  durationMs : Int := 0
  infrastructureError : Option String := none
  failureStage : Option String := none
  toolVersions : List (String × String) := []

/-- `infrastructure_failed`. -/
def ProbeRunResult.infrastructureFailed (result : ProbeRunResult) : Bool :=
  result.infrastructureError.isSome

structure ProbeExecution where
  attemptId : Option Nat
  probeSnapshotId : Nat
  target : ProbeTarget
  commitSha : String
  scriptHash : String
  runnerMode : String
  commandIdentity : String
  expectedExitCode : Int
  exitCode : Option Int
  verdict : ProbeVerdict
  timedOut : Bool
  durationMs : Option Int
  stdout : String
  stderr : String
  outputTruncated : Bool
  error : Option String
  failureStage : Option String
  toolVersions : Option (List (String × String))
  finishedAt : Nat

structure PullRequestEvidence where
  attemptId : Nat
  prUrl : String
  headSha : String
  valid : Bool
  deriving DecidableEq

/-- `ci_snapshots.overall`. -/
inductive CiOverall
  | pending
  | absent
  | passed
  | failed
  | timedOut
  deriving DecidableEq

structure CiSnapshot where
  attemptId : Nat
  headSha : String
  overall : CiOverall
  deriving DecidableEq

structure ProbePolicyDecision where
  triageResultHash : String
  baseSha : String
  deriving DecidableEq

/-! ## Case, webhook events and the outbox -/

/-- The columns `mark_waiting` and `clear_waiting` assign. -/
structure Waiting where
  waitingFor : Option String := none
  waitingSince : Option Nat := none
  deriving DecidableEq

/-- As `Attempt.merge`, for the waiting columns of the case. -/
def Waiting.merge (loaded changed row : Waiting) : Waiting where
  waitingFor := pick loaded.waitingFor changed.waitingFor row.waitingFor
  waitingSince := pick loaded.waitingSince changed.waitingSince row.waitingSince

/-- The case row; `created` is false until the first delivery inserts it. -/
structure Case where
  created : Bool := false
  state : CaseState := .received
  stateEnteredAt : Nat := 0
  completedAt : Option Nat := none
  claimedBy : Option Owner := none
  leaseExpiresAt : Option Nat := none
  failureReason : Option Reason := none
  waiting : Waiting := {}

/-- `EventStatus`. -/
inductive EventStatus
  | pending
  | processing
  | processed
  | failed
  deriving DecidableEq

/-- A delivery for the issue. `remediationLabel` says that it is a `labeled` event of the
remediation label, `issueLabels` is the label snapshot of its payload (`none` when it has
none), and `eligible` is the verdict of the rubric on its issue. -/
structure WebhookEvent where
  remediationLabel : Bool
  issueLabels : Option (List String)
  eligible : Bool
  status : EventStatus := .pending
  claimedBy : Option Owner := none
  leaseExpiresAt : Option Nat := none
  attemptsCount : Nat := 0
  processedAt : Option Nat := none
  hasCase : Bool := false

/-- As `Attempt.merge`, for a webhook event. -/
def WebhookEvent.merge (loaded changed row : WebhookEvent) : WebhookEvent where
  remediationLabel := row.remediationLabel
  issueLabels := row.issueLabels
  eligible := row.eligible
  status := pick loaded.status changed.status row.status
  claimedBy := pick loaded.claimedBy changed.claimedBy row.claimedBy
  leaseExpiresAt := pick loaded.leaseExpiresAt changed.leaseExpiresAt row.leaseExpiresAt
  attemptsCount := pick loaded.attemptsCount changed.attemptsCount row.attemptsCount
  processedAt := pick loaded.processedAt changed.processedAt row.processedAt
  hasCase := pick loaded.hasCase changed.hasCase row.hasCase

/-- `OutboxStatus`. -/
inductive OutboxStatus
  | pending
  | sent
  | failed
  deriving DecidableEq

/-- The outbox kinds whose handler writes to the approval request or the case; every other
kind only delivers text. -/
inductive OutboxKind
  | slackApprovalRequest
  | githubApplyLabel
  | githubRejectionComment
  | notification
  deriving DecidableEq

structure OutboxRow where
  kind : OutboxKind
  approvalRequestId : Option Nat
  status : OutboxStatus := .pending
  /-- the worker process, not the loop -/
  claimedBy : Option Nat := none
  leaseExpiresAt : Option Nat := none
  attemptsCount : Nat := 0

/-- As `Attempt.merge`, for an outbox row. -/
def OutboxRow.merge (loaded changed row : OutboxRow) : OutboxRow where
  kind := row.kind
  approvalRequestId := row.approvalRequestId
  status := pick loaded.status changed.status row.status
  claimedBy := pick loaded.claimedBy changed.claimedBy row.claimedBy
  leaseExpiresAt := pick loaded.leaseExpiresAt changed.leaseExpiresAt row.leaseExpiresAt
  attemptsCount := pick loaded.attemptsCount changed.attemptsCount row.attemptsCount

/-- Who committed a transition. -/
inductive Actor
  | worker
  | operator
  | slack
  | github
  deriving DecidableEq

/-- `StateTransition`. -/
structure StateTransition where
  src : CaseState
  dst : CaseState
  actor : Actor
  deriving DecidableEq

/-! ## Merging -/

section

variable {α : Type} [DecidableEq α]

@[simp] theorem pick_self (loaded row : α) : pick loaded loaded row = row := by simp [pick]

@[simp] theorem pick_row (row changed : α) : pick row changed row = changed := by
  simp only [pick]
  split
  · next h => exact h
  · rfl

theorem pick_eq_or (loaded changed row : α) :
    pick loaded changed row = row ∨ pick loaded changed row = changed ∧ loaded ≠ changed := by
  simp only [pick]
  split
  · exact Or.inl rfl
  · next h => exact Or.inr ⟨rfl, h⟩

end

end Remediator
