import Mathlib.Algebra.Ring.Nat
import Remediator.Lib.Machine
import Remediator.Models

set_option autoImplicit false

/-! # Outbox rows under concurrent dispatchers

`remediator/worker/outbox.py` and `retry_outbox` of `remediator/api/operator.py`, at the level of
the columns of `notification_outbox`. Every loop of every worker process claims a due row in one
transaction and dispatches it in the next ones: it locks and loads the row, runs the handler, and
writes `SENT`, or rolls back and writes the retry bookkeeping in a transaction of its own. Three
of the handlers commit in the middle, and the row lock is gone from their first commit on.

A step is one transaction, or one thing that happens between two of them; a process may die at
any time. What the handlers and everybody else write to approval requests and cases is left open
(`other`). Times are whole seconds.
-/

namespace Remediator.Outbox

/-! ## Rows -/

/-- The kinds of outbox rows; `recordOnly` is a kind of `OUTBOX_RECORD_ONLY_KINDS`. -/
inductive Kind
  | slackApprovalRequest
  | slackStatusUpdate
  | slackRemediationUpdate
  | slackEphemeralResponse
  | githubApplyLabel
  | githubRejectionComment
  | githubNotFeasible
  | recordOnly
  | unknown
  deriving DecidableEq

/-- The handlers that commit in the middle. -/
def Kind.commits : Kind → Bool
  | slackApprovalRequest | githubApplyLabel | githubRejectionComment => true
  | _ => false

/-- `NotificationOutbox`, without the payload. -/
structure Row where
  kind : Kind
  approvalRequestId : Option Nat
  createdAt : Nat
  status : OutboxStatus := .pending
  attemptsCount : Nat := 0
  nextAttemptAt : Nat
  lastAttemptAt : Option Nat := none
  lastError : Option String := none
  claimedBy : Option Nat := none
  leaseExpiresAt : Option Nat := none
  sentAt : Option Nat := none
  deriving DecidableEq

/-- The row after a flush: a column that was not assigned keeps what the table has. -/
def Row.merge (loaded changed row : Row) : Row where
  kind := row.kind
  approvalRequestId := row.approvalRequestId
  createdAt := row.createdAt
  status := pick loaded.status changed.status row.status
  attemptsCount := pick loaded.attemptsCount changed.attemptsCount row.attemptsCount
  nextAttemptAt := pick loaded.nextAttemptAt changed.nextAttemptAt row.nextAttemptAt
  lastAttemptAt := pick loaded.lastAttemptAt changed.lastAttemptAt row.lastAttemptAt
  lastError := pick loaded.lastError changed.lastError row.lastError
  claimedBy := pick loaded.claimedBy changed.claimedBy row.claimedBy
  leaseExpiresAt := pick loaded.leaseExpiresAt changed.leaseExpiresAt row.leaseExpiresAt
  sentAt := pick loaded.sentAt changed.sentAt row.sentAt

/-- A row of the table with its history: how often it was claimed, how often its handler was
started since it was created or re-queued, and how often it was re-queued. -/
structure Entry where
  row : Row
  claims : Nat := 0
  starts : Nat := 0
  requeues : Nat := 0
  deriving DecidableEq

/-- `ApprovalRequest`, as far as the terminal failure of a row reads and writes it. -/
structure Request where
  caseId : Nat
  notificationStatus : NotificationStatus
  deliveryStatus : DeliveryStatus
  labelAppliedAt : Option Nat
  slackMessageTs : Option String
  deriving DecidableEq

/-- An approval event about a row, with the number of re-queues the row had seen. -/
structure Event where
  request : Nat
  name : String
  row : Nat
  requeues : Nat
  error : Option String
  deriving DecidableEq

/-- The part of `Settings` the dispatcher reads, and what `_validate_bounds` checks of it. -/
structure Settings where
  outboxMaxAttempts : Nat
  outboxLeaseSeconds : Nat
  outboxBaseBackoffSeconds : Nat
  outboxMaxBackoffSeconds : Nat
  maxAttempts_pos : 0 < outboxMaxAttempts

/-- The defaults. -/
def defaultSettings : Settings where
  outboxMaxAttempts := 5
  outboxLeaseSeconds := 120
  outboxBaseBackoffSeconds := 2
  outboxMaxBackoffSeconds := 300
  maxAttempts_pos := by decide

/-- `backoff_delay`, with the random number it draws. -/
def backoffDelay (cfg : Settings) (attempts jitter : Nat) : Nat :=
  min (cfg.outboxBaseBackoffSeconds * 2 ^ (attempts - 1) + jitter) cfg.outboxMaxBackoffSeconds

/-! ## Dispatches -/

/-- A loop of a worker process. `claimed_by` holds the process only. -/
structure Loop where
  worker : Nat
  slot : Nat
  deriving DecidableEq

/-- Where a dispatch stands: the claim is committed; the handler runs on the row as it was
loaded, with or without the row lock; the handler failed and was rolled back. -/
inductive Stage
  | claimed
  | handling (loaded : Row) (locked : Bool)
  | failing (error : String) (permanent : Bool) (retryAfter : Option Nat)

def Stage.isClaimed : Stage → Bool
  | claimed => true
  | _ => false

def Stage.locks : Stage → Bool
  | handling _ locked => locked
  | _ => false

/-- A dispatch in progress, with the number its claim had among the claims of the row. -/
structure Dispatch where
  loop : Loop
  row : Nat
  claim : Nat
  stage : Stage

structure State where
  now : Nat := 0
  rows : List Entry := []
  requests : List Request := []
  cases : List CaseState := []
  events : List Event := []
  dispatches : List Dispatch := []

/-- The dispatch of a loop. -/
def State.dispatchOf (s : State) (ℓ : Loop) : Option Dispatch :=
  s.dispatches.find? (fun d => decide (d.loop = ℓ))

/-- Another transaction than those of `ℓ` holds the row lock. -/
def State.lockedByOther (s : State) (ℓ : Option Loop) (k : Nat) : Bool :=
  s.dispatches.any (fun d => decide (d.row = k) && decide (some d.loop ≠ ℓ) && d.stage.locks)

/-- The state without the dispatch of a loop. -/
def State.finish (s : State) (ℓ : Loop) : State :=
  { s with dispatches := s.dispatches.filter (fun d => decide (d.loop ≠ ℓ)) }

/-- The state with another dispatch for its loop. -/
def State.progress (s : State) (d : Dispatch) : State :=
  { s with dispatches := d :: s.dispatches.filter (fun e => decide (e.loop ≠ d.loop)) }

def State.setEntry (s : State) (k : Nat) (e : Entry) : State := { s with rows := s.rows.set k e }

/-- `session.add` of a new row. -/
def State.enqueue (s : State) (kind : Kind) (request : Option Nat) : State :=
  { s with rows := s.rows ++
      [{ row := { kind, approvalRequestId := request, createdAt := s.now, nextAttemptAt := s.now } }] }

/-! ## `claim` -/

/-- The `WHERE` clause of `claim`, and `SKIP LOCKED`. -/
def claimable (s : State) (k : Nat) : Bool :=
  match s.rows[k]? with
  | none => false
  | some e =>
      decide (e.row.status = .pending) && decide (e.row.nextAttemptAt ≤ s.now) &&
        (match e.row.leaseExpiresAt with
          | none => true
          | some t => decide (t < s.now)) &&
        !s.lockedByOther none k

/-- The order of `claim`: by `next_attempt_at`, then by `created_at`. -/
def dueBefore (s : State) (j k : Nat) : Bool :=
  match s.rows[j]?, s.rows[k]? with
  | some a, some b =>
      decide (a.row.nextAttemptAt < b.row.nextAttemptAt) ||
        (decide (a.row.nextAttemptAt = b.row.nextAttemptAt) &&
          decide (a.row.createdAt < b.row.createdAt))
  | _, _ => false

/-- The first of some rows. -/
def firstDue (s : State) : List Nat → Option Nat
  | [] => none
  | k :: ks =>
      match firstDue s ks with
      | none => some k
      | some j => if dueBefore s j k then some j else some k

/-- The row that `claim` picks. -/
def nextDue (s : State) : Option Nat :=
  firstDue s ((List.range s.rows.length).filter (claimable s))

/-- What `claim` writes. -/
def claimRow (cfg : Settings) (now worker : Nat) (row : Row) : Row :=
  { row with
    attemptsCount := row.attemptsCount + 1
    lastAttemptAt := some now
    claimedBy := some worker
    leaseExpiresAt := some (now + cfg.outboxLeaseSeconds) }

/-! ## The end of a dispatch -/

/-- `f"skipped: {exc}"`, or no error. -/
def sentError : Option String → Option String
  | none => none
  | some reason => some ("skipped: " ++ reason)

/-- What `dispatch` assigns when the handler returned, or skipped the row. -/
def sentRow (now : Nat) (skipped : Option String) (loaded : Row) : Row :=
  { loaded with
    lastError := sentError skipped
    status := .sent
    sentAt := some now
    claimedBy := none
    leaseExpiresAt := none }

/-- `terminal` of `_fail`. -/
def terminal (cfg : Settings) (permanent : Bool) (row : Row) : Bool :=
  permanent || decide (cfg.outboxMaxAttempts ≤ row.attemptsCount)

/-- What `_fail` writes to the row. -/
def failRow (cfg : Settings) (now jitter : Nat) (error : String) (permanent : Bool)
    (retryAfter : Option Nat) (row : Row) : Row :=
  let row := { row with
    lastError := some (String.ofList (error.toList.take 2000))
    claimedBy := none
    leaseExpiresAt := none }
  if terminal cfg permanent row then
    { row with status := .failed }
  else
    let delay := backoffDelay cfg row.attemptsCount jitter
    let delay := match retryAfter with
      | none => delay
      | some hinted => max delay (min hinted cfg.outboxMaxBackoffSeconds)
    { row with nextAttemptAt := now + delay }

/-- The event that `_on_terminal_failure` records for a row with an approval request. -/
def failureEvent : Kind → (labelApplied : Bool) → Option String
  | .slackApprovalRequest, _ => some "slack_notification_failed"
  | .githubApplyLabel, true => some "approval_comment_failed"
  | .githubApplyLabel, false => some "label_delivery_failed"
  | .githubRejectionComment, _ => some "rejection_comment_failed"
  | .slackStatusUpdate, _ | .slackRemediationUpdate, _ => some "slack_update_failed"
  | .slackEphemeralResponse, _ => some "slack_response_failed"
  | .githubNotFeasible, _ | .recordOnly, _ | .unknown, _ => none

/-- What `_on_terminal_failure` writes to the approval request. -/
def failRequest (kind : Kind) (r : Request) : Request :=
  match kind with
  | .slackApprovalRequest => { r with notificationStatus := .failed }
  | .githubApplyLabel =>
      if r.labelAppliedAt.isSome then r else { r with deliveryStatus := .failed }
  | _ => r

/-- The case of a failed label delivery leaves its approval. -/
def deliveryFailedCase (s : State) (r : Request) : State :=
  if s.cases[r.caseId]? = some .awaitingRemediationApproval then
    { s with cases := s.cases.set r.caseId .approvalDeliveryFailed }
  else s

/-- `enqueue_slack_status_update`. -/
def enqueueSlackStatusUpdate (s : State) (id : Nat) (r : Request) : State :=
  if r.slackMessageTs.isSome then s.enqueue .slackStatusUpdate (some id) else s

/-- What `_on_terminal_failure` writes to the approval request, and the event it records. -/
def recordFailure (s : State) (k : Nat) (e : Entry) (error : String) (id : Nat) (r : Request) :
    State :=
  { s with
    requests := s.requests.set id (failRequest e.row.kind r)
    events := s.events ++ (failureEvent e.row.kind r.labelAppliedAt.isSome).toList.map
      (fun name => ⟨id, name, k, e.requeues, some error⟩) }

/-- `_on_terminal_failure`. -/
def onTerminalFailure (s : State) (k : Nat) (e : Entry) (error : String) : State :=
  match e.row.approvalRequestId with
  | none => s
  | some id =>
      match s.requests[id]? with
      | none => s
      | some r =>
          if e.row.kind = .githubApplyLabel ∧ r.labelAppliedAt.isNone then
            enqueueSlackStatusUpdate (deliveryFailedCase (recordFailure s k e error id r) r) id r
          else recordFailure s k e error id r

/-! ## `retry_outbox` -/

/-- What `retry_outbox` writes to a `FAILED` row. -/
def requeueRow (now : Nat) (row : Row) : Row :=
  { row with
    status := .pending
    attemptsCount := 0
    nextAttemptAt := now
    claimedBy := none
    leaseExpiresAt := none }

/-- What `retry_outbox` writes to the approval request. -/
def requeueRequest (kind : Kind) (r : Request) : Request :=
  let r := if kind = .githubApplyLabel ∧ r.deliveryStatus = .failed then
      { r with deliveryStatus := .pending }
    else r
  if kind = .slackApprovalRequest ∧ r.notificationStatus = .failed then
    { r with notificationStatus := .pending }
  else r

/-- The approval request of a row that is re-queued. -/
def requeueApproval (s : State) (k : Nat) (e : Entry) : State :=
  match e.row.approvalRequestId with
  | none => s
  | some id =>
      match s.requests[id]? with
      | none => s
      | some r =>
          { s with
            requests := s.requests.set id (requeueRequest e.row.kind r)
            events := s.events ++ [⟨id, "operator_retry", k, e.requeues, none⟩] }

/-! ## Steps -/

inductive Act
  /-- a transaction adds a row -/
  | create (kind : Kind) (request : Option Nat)
  | claim (ℓ : Loop)
  /-- the first transaction of `dispatch`: lock, load, and start the handler -/
  | start (ℓ : Loop)
  /-- the first commit of the handler -/
  | commit (ℓ : Loop)
  | succeed (ℓ : Loop) (skipped : Option String)
  /-- the handler raised, and its transaction was rolled back -/
  | fail (ℓ : Loop) (error : String) (permanent : Bool) (retryAfter : Option Nat)
  /-- the transaction of `_fail` -/
  | settle (ℓ : Loop) (jitter : Nat)
  | die (ℓ : Loop)
  | requeue (k : Nat)
  /-- what other transactions did to approval requests and cases -/
  | other (requests : List Request) (cases : List CaseState)
  | tick (seconds : Nat)

/-- A row may be added for an approval request that exists. -/
def mayCreate (s : State) : Option Nat → Bool
  | none => true
  | some id => decide (id < s.requests.length)

def claimStep (cfg : Settings) (s : State) (ℓ : Loop) : Option State :=
  if (s.dispatchOf ℓ).isSome then none
  else do
    let k ← nextDue s
    let e ← s.rows[k]?
    let e := { e with row := claimRow cfg s.now ℓ.worker e.row, claims := e.claims + 1 }
    some ((s.setEntry k e).progress ⟨ℓ, k, e.claims, .claimed⟩)

/-- A row that another claim has taken over is left alone. -/
def startDispatch (s : State) (d : Dispatch) (e : Entry) : State :=
  if e.row.claimedBy ≠ some d.loop.worker then s.finish d.loop
  else
    (s.setEntry d.row { e with starts := e.starts + 1 }).progress
      { d with stage := .handling e.row true }

def settleDispatch (cfg : Settings) (s : State) (d : Dispatch) (e : Entry) (error : String)
    (permanent : Bool) (retryAfter : Option Nat) (jitter : Nat) : State :=
  let s := s.finish d.loop
  let failed :=
    s.setEntry d.row { e with row := failRow cfg s.now jitter error permanent retryAfter e.row }
  if terminal cfg permanent e.row then onTerminalFailure failed d.row e error else failed

/-- One step of a dispatch in progress, on the row as it is in the table. -/
def dispatchStep (cfg : Settings) (s : State) (d : Dispatch) (e : Entry) : Act → Option State
  | .start _ =>
      match d.stage with
      | .claimed => some (startDispatch s d e)
      | _ => none
  | .commit _ =>
      match d.stage with
      | .handling loaded _ =>
          if loaded.kind.commits then some (s.progress { d with stage := .handling loaded false })
          else none
      | _ => none
  | .succeed _ skipped =>
      match d.stage with
      | .handling loaded _ =>
          some ((s.finish d.loop).setEntry d.row
            { e with row := Row.merge loaded (sentRow s.now skipped loaded) e.row })
      | _ => none
  | .fail _ error permanent retryAfter =>
      match d.stage with
      | .handling _ _ => some (s.progress { d with stage := .failing error permanent retryAfter })
      | _ => none
  | .settle _ jitter =>
      match d.stage with
      | .failing error permanent retryAfter =>
          some (settleDispatch cfg s d e error permanent retryAfter jitter)
      | _ => none
  | .die _ => some (s.finish d.loop)
  | _ => none

/-- Whether the step needs the row lock. -/
def Act.needsLock : Act → Bool
  | .start _ | .succeed _ _ | .settle _ _ => true
  | _ => false

/-- A step of the dispatch of a loop waits for the row lock if it needs it. -/
def loopStep (cfg : Settings) (s : State) (ℓ : Loop) (a : Act) : Option State := do
  let d ← s.dispatchOf ℓ
  let e ← s.rows[d.row]?
  if a.needsLock && s.lockedByOther (some ℓ) d.row then none else dispatchStep cfg s d e a

def requeueStep (s : State) (k : Nat) : Option State := do
  let e ← s.rows[k]?
  if s.lockedByOther none k then none
  else if e.row.status ≠ .failed then some s
  else some (requeueApproval (s.setEntry k
    { e with row := requeueRow s.now e.row, starts := 0, requeues := e.requeues + 1 }) k e)

/-- The loop whose dispatch takes the step. -/
def Act.loop : Act → Option Loop
  | .start ℓ | .commit ℓ | .succeed ℓ _ | .fail ℓ _ _ _ | .settle ℓ _ | .die ℓ => some ℓ
  | _ => none

def step (cfg : Settings) (s : State) (a : Act) : Option State :=
  match a with
  | .create kind request => if mayCreate s request then some (s.enqueue kind request) else none
  | .claim ℓ => claimStep cfg s ℓ
  | .requeue k => requeueStep s k
  | .other requests cases =>
      if s.requests.length ≤ requests.length then some { s with requests, cases } else none
  | .tick seconds => some { s with now := s.now + seconds }
  | .start ℓ | .commit ℓ | .succeed ℓ _ | .fail ℓ _ _ _ | .settle ℓ _ | .die ℓ =>
      loopStep cfg s ℓ a

end Remediator.Outbox
