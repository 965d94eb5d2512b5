import Mathlib.Data.List.Basic
import Mathlib.Tactic.Common
import Remediator.Capacity
import Remediator.Devin.Status

set_option autoImplicit false

/-! # The store of one case

Everything that is kept about one case: its rows in the database, the Devin sessions that
exist remotely, and a *history* that no program reads. Workers, the API and the outbox act on
the store by transactions (`Txn`) and by calls to Devin; each of them is atomic.

The history remembers what the statements of the theorems talk about: the tokens issued, the rounds
admitted, and the *incidents* of the run. An incident is a step of a kind that
some guarantee of the program does not survive; it is computed from the step and the store
before it.
-/

namespace Remediator

/-! ## Rows that only the holder of the case claim is meant to write -/

structure Core where
  attempts : List Attempt := []
  snapshots : List ProbeSnapshot := []
  executions : List ProbeExecution := []
  evidence : List PullRequestEvidence := []
  ciSnapshots : List CiSnapshot := []
  decisions : List ProbePolicyDecision := []

/-- A `BASE` run of the newest probe that reproduced the defect is not linked to an attempt. -/
def Core.freeRun (c : Core) : Bool :=
  c.snapshots.getLast?.any (fun p => c.executions.any (fun x =>
    decide (x.probeSnapshotId = c.snapshots.length - 1) && decide (x.target = .base) &&
      decide (x.verdict = .matched) && decide (x.commitSha = p.baseSha) &&
      decide (x.scriptHash = p.scriptHash) && x.attemptId.isNone))

/-- The state that the case was last moved from to `REMEDIATION_CREATE_INTENT`. -/
def intentFrom (log : List StateTransition) : Option CaseState :=
  (log.filter (fun x => decide (x.dst = .remediationCreateIntent))).getLast?.map (·.src)

/-! ## The remote side -/

/-- A session that a `POST` created, tagged with the operation key of `attempt`. -/
structure Session where
  attempt : Nat
  /-- a 404 was seen or a `DELETE` succeeded -/
  gone : Bool := false
  /-- the last reported status is one `classify` marks `remote_terminal` -/
  ended : Bool := false
  deriving DecidableEq

/-- The outcome of `create_session`. After a transport error the session may exist
(`landed`), or come into being later (`late`). -/
inductive PostResult
  | created
  | apiError
  | transportError (landed late : Bool)
  deriving DecidableEq

/-- The outcome of `get_session`. -/
inductive GetResult
  | notFound
  | error
  | snapshot (snap : Devin.SessionSnapshot)

/-- The outcome of `terminate_session`. -/
inductive DeleteResult
  | deleted
  | notFound
  | error
  deriving DecidableEq

/-- Why a session is read: to act on its status, to ingest the output it may have, or to make
sure that it has none. -/
inductive GetPurpose
  | settle
  | reconcile
  | inspect
  deriving DecidableEq

/-- Why sessions are looked up by tag: to attach, or to terminate what is found. -/
inductive FindPurpose
  | attach
  | terminate
  deriving DecidableEq

/-! ## The history -/

inductive Incident
  /-- `confirm_label_webhook` passes its checks on a copy of the case that is out of date -/
  | confirmationLost
  /-- the case is failed, or moved by somebody who holds no claim, while it is parked -/
  | movedWaiting
  /-- the attempts of the case are written while it is parked -/
  | writtenWaiting
  /-- the case is parked by a job whose copy of the state is out of date, or while an attempt is
  active or under way -/
  | parkedAway
  /-- a job takes up the case while another one works on it -/
  | crowded
  /-- `create_session` is called for an attempt that the job has not inserted itself, or has called
  it for before -/
  | foundPosted
  /-- `label_requested_at` is written while the label is on the issue -/
  | labelPresent
  /-- a dispatcher is gone, or the row of the label settled, after `label_applied_at` was
  committed and before the deliveries were replayed -/
  | replayLost
  /-- a case waits for its label, and a delivery of it is judged on an older copy of the case or
  while the newest round is not the current one -/
  | misjudged
  /-- the case comes to wait for an approval without a new round -/
  | reopened
  /-- the case is dispatched without a probe while a run of its newest probe is free -/
  | bareWithRun
  /-- a job that is to end the sessions of the case finds none of the kind and creates one, while a
  run of the newest probe is free that the last dispatch was not for -/
  | createdTerminating
  deriving DecidableEq

structure History where
  /-- attempts whose `POST` may still create a session -/
  limbo : Nat → Bool := fun _ => false
  /-- the action tokens that were generated, with their rounds -/
  issued : List (String × Nat) := []
  /-- the rounds whose confirmation moved the case to `REMEDIATION_APPROVED` -/
  admitted : List Nat := []
  /-- who has applied the label for which round, and has not replayed the deliveries yet -/
  replaying : List (Owner × Nat) := []
  /-- the job that works on the case -/
  atWork : Option Owner := none
  /-- the attempts that `create_session` was called for, oldest first -/
  posts : List Nat := []
  /-- the attempt that a job has inserted and not called `create_session` for -/
  inserted : Owner → Option Nat := fun _ => none
  incident : Incident → Bool := fun _ => false

/-- The remediation label of the issue on GitHub. -/
structure IssueLabel where
  present : Bool := false
  /-- `labeled` deliveries that GitHub has emitted and that have not arrived -/
  inFlight : Nat := 0
  /-- when the label was added last -/
  addedAt : Nat := 0
  deriving DecidableEq

/-- GitHub emits a delivery exactly when a label that was absent is added. -/
def IssueLabel.set (now : Nat) (on : Bool) (l : IssueLabel) : IssueLabel :=
  if on then
    if l.present then l else ⟨true, l.inFlight + 1, now⟩
  else { l with present := false }

structure Store where
  now : Nat := 0
  case : Case := {}
  /-- the waiting columns of the copy of the case that a job works on -/
  copies : Owner → Waiting := fun _ => {}
  core : Core := {}
  approvals : List ApprovalRequest := []
  slackActions : List SlackAction := []
  events : List WebhookEvent := []
  outbox : List OutboxRow := []
  log : List StateTransition := []
  sessions : List Session := []
  label : IssueLabel := {}
  history : History := {}

/-! ## Transactions -/

/-- A call of `transition`: `src` is the state of the caller's copy of the case. -/
structure Move where
  src : CaseState
  dst : CaseState
  actor : Actor
  /-- `expected_claimed_by` -/
  claim : Option Owner := none
  probeNotConfigured : Bool := false

/-- A new attempt row; `link` is the `BASE` execution that it consumes. -/
structure NewAttempt where
  row : Attempt
  link : Option Nat := none

/-- An object the unit of work flushes: the row's id, the object as loaded and as changed. -/
structure Write (α : Type) where
  id : Nat
  loaded : α
  changed : α

/-- `mark_waiting` and `clear_waiting`. -/
inductive WaitingCall
  | mark (denied : Capacity.Denied)
  | clear

/-- The waiting columns of the session's copy of the case after the call. -/
def WaitingCall.assign (now : Nat) (copy : Waiting) : WaitingCall → Waiting
  | .mark denied => ⟨some denied.label, copy.waitingSince.or (some now)⟩
  | .clear => {}

/-- The write set of a transaction. -/
structure Txn where
  create : Bool := false
  claim : Option (Option Owner × Option Nat) := none
  failureReason : Option (Option Reason) := none
  waiting : Option WaitingCall := none
  /-- the state of the copy of the case that a slot is asked for with -/
  parksIn : Option CaseState := none
  moves : List Move := []
  writes : List (Write Attempt) := []
  insert : Option NewAttempt := none
  snapshots : List ProbeSnapshot := []
  executions : List ProbeExecution := []
  evidence : List PullRequestEvidence := []
  ciSnapshots : List CiSnapshot := []
  decisions : List ProbePolicyDecision := []
  newApprovals : List ApprovalRequest := []
  approvalWrites : List (Write ApprovalRequest) := []
  slackActions : List SlackAction := []
  eventWrites : List (Write WebhookEvent) := []
  newOutbox : List OutboxRow := []
  outboxWrites : List (Write OutboxRow) := []
  /-- the job reads the state of the case it is going to work on -/
  starts : Bool := false
  /-- the job finds no attempt to go on with and is going to create one: the state of its copy of
  the case -/
  creates : Option CaseState := none
  /-- the transaction contains a `fail_case` -/
  failing : Bool := false
  /-- an action token that this transaction stores the hash of, and its round -/
  issues : Option (String × Nat) := none
  /-- a `labeled` delivery is judged for the newest round: the state of the caller's copy of the
  case, if there is one, and whether that round is the current one -/
  judges : Option (Option CaseState × Bool) := none
  /-- the state of the copy of the case that `confirm_label_webhook` accepts a delivery with -/
  confirmsFrom : Option CaseState := none
  /-- a round whose deliveries are replayed -/
  replays : Option Nat := none

/-- The conditional update of one `transition`. -/
def Move.ok (m : Move) (c : Case) : Bool :=
  decide (c.state = m.src) && decide (m.dst ∈ m.src.allowed m.probeNotConfigured) &&
    (m.claim.isNone || decide (c.claimedBy = m.claim))

def movesOk : List Move → Case → Bool
  | [], _ => true
  | m :: ms, c => m.ok c && movesOk ms { c with state := m.dst }

/-- The state after the moves. -/
def movesEnd (ms : List Move) (st : CaseState) : CaseState := ms.foldl (fun _ m => m.dst) st

/-- Flush the changed objects. -/
def flush {α : Type} (merge : α → α → α → α) (ws : List (Write α)) (rows : List α) : List α :=
  ws.foldl (fun rows w => rows.modify w.id (merge w.loaded w.changed)) rows

def Txn.attempts (t : Txn) (c : Core) : List Attempt := flush Attempt.merge t.writes c.attempts

/-- The unique indexes on `attempts`: ordinal and operation key per kind, and one unfinished
attempt per kind. -/
def Txn.unique (t : Txn) (c : Core) : Bool :=
  match t.insert with
  | none => true
  | some n => (t.attempts c).all (fun a =>
      !(decide (a.kind = n.row.kind) && decide (a.ordinal = n.row.ordinal)) &&
        !decide (a.operationKey = n.row.operationKey) &&
        !(decide (a.kind = n.row.kind) && a.finishedAt.isNone && n.row.finishedAt.isNone))

def Txn.applyCase (t : Txn) (now : Nat) (copy : Waiting) (c : Case) : Case where
  created := c.created || t.create
  state := movesEnd t.moves c.state
  stateEnteredAt := if t.moves.isEmpty then c.stateEnteredAt else now
  completedAt := if t.moves.isEmpty then c.completedAt
    else if (movesEnd t.moves c.state).terminal then some now else none
  claimedBy := (t.claim.map (·.1)).getD c.claimedBy
  leaseExpiresAt := (t.claim.map (·.2)).getD c.leaseExpiresAt
  failureReason := t.failureReason.getD c.failureReason
  waiting := match t.waiting with
    | some call => Waiting.merge copy (call.assign now copy) c.waiting
    | none => c.waiting

def Txn.applyCore (t : Txn) (c : Core) : Core where
  attempts := t.attempts c ++ t.insert.toList.map (·.row)
  snapshots := c.snapshots ++ t.snapshots
  executions :=
    (match t.insert.bind (·.link) with
      | some e => c.executions.modify e (fun x => { x with attemptId := some c.attempts.length })
      | none => c.executions) ++ t.executions
  evidence := c.evidence ++ t.evidence
  ciSnapshots := c.ciSnapshots ++ t.ciSnapshots
  decisions := c.decisions ++ t.decisions

/-- The transaction writes rows of the core. -/
def Txn.touchesCore (t : Txn) : Bool :=
  !t.writes.isEmpty || t.insert.isSome || !t.snapshots.isEmpty || !t.executions.isEmpty ||
    !t.evidence.isEmpty || !t.ciSnapshots.isEmpty || !t.decisions.isEmpty

/-! ## Operations -/

inductive Op
  | skip
  | commit (o : Owner) (t : Txn)
  | post (o : Owner) (attempt : Nat) (result : PostResult)
  | get (sid : SessionId) (purpose : GetPurpose) (result : GetResult)
  | delete (sid : SessionId) (result : DeleteResult)
  | find (attempt : Nat) (purpose : FindPurpose) (found : List SessionId)
  | leave (o : Owner)
  | tick (seconds : Nat)
  | heartbeat (o : Owner) (seconds : Nat)
  | land (attempt : Nat)
  | receive (e : WebhookEvent)
  | setLabel (on : Bool)
  | deliver (e : WebhookEvent)

/-- The rounds after the transaction. -/
def Txn.applyApprovals (t : Txn) (rs : List ApprovalRequest) : List ApprovalRequest :=
  flush ApprovalRequest.merge t.approvalWrites rs ++ t.newApprovals

/-- The transaction moves the case to `REMEDIATION_APPROVED` for a label webhook. -/
def Txn.approves (t : Txn) : Bool :=
  t.moves.any (fun m => decide (m.dst = .remediationApproved) && decide (m.actor = .github))

/-- The rounds that the transaction makes `CONFIRMED`. -/
def Txn.confirmed (t : Txn) (s : Store) : List Nat :=
  (List.range (t.applyApprovals s.approvals).length).filter (fun id =>
    decide (((t.applyApprovals s.approvals)[id]?).map (·.deliveryStatus) = some .confirmed) &&
      !decide ((s.approvals[id]?).map (·.deliveryStatus) = some .confirmed))

/-- The outbox after the transaction. -/
def Txn.applyOutbox (t : Txn) (rows : List OutboxRow) : List OutboxRow :=
  flush OutboxRow.merge t.outboxWrites rows ++ t.newOutbox

/-- The rows that deliver the label of the round are sent or failed. -/
def labelSettled (outbox : List OutboxRow) (round : Nat) : Bool :=
  outbox.all (fun row => !(decide (row.kind = .githubApplyLabel) &&
    decide (row.approvalRequestId = some round)) || decide (row.status ≠ .pending))

/-- The write records that the label is on the issue. -/
def appliesLabel (w : Write ApprovalRequest) : Bool :=
  w.loaded.labelAppliedAt.isNone && w.changed.labelAppliedAt.isSome

/-- Who has to replay deliveries after the transaction of `o`. -/
def Txn.replaying (o : Owner) (t : Txn) (waiting : List (Owner × Nat)) : List (Owner × Nat) :=
  waiting.filter (fun x => !(decide (x.1 = o) && decide (t.replays = some x.2))) ++
    (t.approvalWrites.filter appliesLabel).map (fun w => (o, w.id))

/-- The states in which a `labeled` delivery can confirm a round. -/
def CaseState.awaitsLabel (st : CaseState) : Bool :=
  decide (st = .awaitingRemediationApproval) || decide (st = .approvalDeliveryFailed)

/-- The kinds of slot that processing a case in this state asks for. -/
def CaseState.asksFor : CaseState → Capacity.LeaseKind → Bool
  | .triageCreateIntent, .triage | .triaging, .triage => true
  | .probeValidatingBase, .probe | .probeValidatingHead, .probe => true
  | .remediationCreateIntent, .remediation | .remediationReconcilingCreate, .remediation
  | .remediating, .remediation => true
  | .remediationCreateIntent, .resource | .remediationReconcilingCreate, .resource
  | .remediating, .resource | .remediationTerminationPending, .resource => true
  | _, _ => false

/-- The case waits for the end of its sessions. -/
def CaseState.terminating (st : CaseState) : Bool :=
  decide (st = .terminationPending) || decide (st = .remediationTerminationPending)

/-- The state stands for an attempt that is under way: its processing asks for a slot of a session
only if it finds that the attempt is gone. -/
def CaseState.underWay (st : CaseState) : Bool := decide (st = .reconcilingCreate) || st.terminating

/-- The incidents of a transaction. -/
def Txn.incident (o : Owner) (t : Txn) (s : Store) : Incident → Bool
  | .confirmationLost => t.confirmsFrom.any (fun st => decide (st ≠ s.case.state))
  | .movedWaiting => decide (s.case.waiting ≠ {}) &&
      (t.failing || t.moves.any (fun m => m.claim.isNone))
  | .writtenWaiting => decide (s.case.waiting ≠ {}) && (!t.writes.isEmpty || t.insert.isSome)
  | .parkedAway => match t.waiting with
      | some (.mark _) => decide (t.parksIn ≠ some s.case.state) || s.case.state.underWay ||
          s.core.attempts.any (fun a => a.status.active)
      | _ => false
  | .crowded => t.starts && s.history.atWork.isSome
  | .labelPresent => s.label.present && t.approvalWrites.any (fun w =>
      decide (w.loaded.labelRequestedAt ≠ w.changed.labelRequestedAt))
  | .replayLost => (t.replaying o s.history.replaying).any (fun x =>
      labelSettled (t.applyOutbox s.outbox) x.2 &&
        !(s.history.replaying.contains x && labelSettled s.outbox x.2))
  | .foundPosted => false
  | .misjudged => t.judges.any (fun x => s.case.state.awaitsLabel &&
      (decide (x.1 ≠ some s.case.state) || !x.2))
  | .reopened => t.newApprovals.isEmpty &&
      t.moves.any (fun m => decide (m.dst = .awaitingRemediationApproval))
  | .bareWithRun => s.core.freeRun && t.moves.any (fun m =>
      decide (m.dst = .remediationCreateIntent) && decide (m.src = .remediationApproved))
  | .createdTerminating => decide (t.creates = some .remediationTerminationPending) &&
      s.core.freeRun && decide (intentFrom s.log ≠ some .probeValidatingBase)

def Op.incident (s : Store) (op : Op) (k : Incident) : Bool :=
  match op with
  | .commit o t => t.incident o s k
  | .post o a _ => decide (k = .foundPosted) && decide (s.history.inserted o ≠ some a)
  | .leave o => decide (k = .replayLost) && s.history.replaying.any (fun x => decide (x.1 = o))
  | _ => false

def Txn.applyHistory (o : Owner) (t : Txn) (s : Store) (h : History) : History :=
  { h with
    issued := h.issued ++ t.issues.toList
    admitted := if t.approves then h.admitted ++ t.confirmed s else h.admitted
    replaying := t.replaying o h.replaying
    atWork := if t.starts then some o else h.atWork
    inserted := fun o' => if o' = o ∧ t.insert.isSome then some s.core.attempts.length
      else h.inserted o' }

/-- The effect of a transaction. -/
def Txn.apply (o : Owner) (t : Txn) (s : Store) : Store where
  now := s.now + 1
  case := t.applyCase s.now (s.copies o) s.case
  copies := fun o' =>
    if o' = o then
      match t.waiting with
      | some call => call.assign s.now (s.copies o)
      | none => if t.starts then s.case.waiting else s.copies o
    else s.copies o'
  core := t.applyCore s.core
  approvals := t.applyApprovals s.approvals
  slackActions := s.slackActions ++ t.slackActions
  events := flush WebhookEvent.merge t.eventWrites s.events
  outbox := t.applyOutbox s.outbox
  log := s.log ++ t.moves.map (fun m => ⟨m.src, m.dst, m.actor⟩)
  sessions := s.sessions
  label := s.label
  history := t.applyHistory o s s.history

/-- The effect of an operation, without its incidents. -/
def Op.effect (s : Store) : Op → Store
  | .skip => { s with now := s.now + 1 }
  | .commit o t => t.apply o s
  | .post o a r =>
      { s with
        now := s.now + 1
        sessions := s.sessions ++ (match r with
          | .created | .transportError true _ => [{ attempt := a }]
          | _ => [])
        history := { s.history with
          limbo := fun a' => if a' = a then decide (r = .transportError false true)
            else s.history.limbo a'
          posts := s.history.posts ++ [a]
          inserted := fun o' => if o' = o then none else s.history.inserted o' } }
  | .get sid _ r =>
      { s with
        now := s.now + 1
        sessions := s.sessions.modify sid (fun y =>
          match r with
          | .notFound => { y with gone := true }
          | .error => y
          | .snapshot snap => { y with ended := (Devin.disposition snap).remoteTerminal }) }
  | .delete sid r =>
      { s with
        now := s.now + 1
        sessions := s.sessions.modify sid (fun y =>
          if r = .error then y else { y with gone := true }) }
  | .find _ _ _ => { s with now := s.now + 1 }
  | .leave o =>
      { s with
        now := s.now + 1
        history := { s.history with
          replaying := s.history.replaying.filter (fun x => decide (x.1 ≠ o))
          atWork := if s.history.atWork = some o then none else s.history.atWork
          inserted := fun o' => if o' = o then none else s.history.inserted o' } }
  | .tick n => { s with now := s.now + n }
  | .heartbeat o n =>
      { s with
        now := s.now + 1
        case := if s.case.claimedBy = some o then
            { s.case with leaseExpiresAt := some (s.now + n) }
          else s.case
        events := s.events.map (fun e =>
          if e.claimedBy = some o then { e with leaseExpiresAt := some (s.now + n) } else e) }
  | .land a =>
      { s with
        now := s.now + 1
        sessions := s.sessions ++ [{ attempt := a }]
        history := { s.history with
          limbo := fun a' => if a' = a then false else s.history.limbo a' } }
  | .receive e => { s with now := s.now + 1, events := s.events ++ [e] }
  | .setLabel on => { s with now := s.now + 1, label := s.label.set s.now on }
  | .deliver e =>
      { s with
        now := s.now + 1
        events := s.events ++ [e]
        label := { s.label with inFlight := s.label.inFlight - 1 } }

/-- One operation on the store. -/
def Op.apply (op : Op) (s : Store) : Store :=
  let s' := op.effect s
  { s' with history := { s'.history with
      incident := fun k => s.history.incident k || op.incident s k } }

end Remediator
