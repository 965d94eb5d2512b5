import Remediator.Worker.Outbox

set_option autoImplicit false

/-! # The worker loop

`remediator/worker/__init__.py`: one iteration of a loop claims an event, a case or an outbox
row, runs it and releases it. A loop that goes on is a new job under the same name; a process
that dies is a job that stops anywhere.
-/

namespace Remediator

open Interleave

/-- One loop of a worker process: `owner` is its `claim_id`, `process` the `worker_id` that the
outbox uses. -/
structure Worker where
  cfg : Settings
  owner : Owner
  process : Nat
  /-- number of rounds each unbounded loop is followed for -/
  rounds : Nat

/-- The runner of the jobs of this loop. -/
def Worker.runner (w : Worker) : Runner :=
  { cfg := w.cfg, owner := w.owner, claim := some w.owner, rounds := w.rounds }

def Worker.dispatcher (w : Worker) : Dispatcher := ⟨w.cfg, w.owner, w.process⟩

/-- The transactions around a job carry no case claim. -/
def Worker.txn (_ : Worker) : Txn := {}

/-! ## Claiming -/

/-- The event `_claim_event` selects. -/
def nextEvent (s : Store) : Option EventObj :=
  (s.events.findIdx? (fun e => decide (e.status = .pending) ||
    (decide (e.status = .processing) && e.leaseExpiresAt.all (fun t => decide (t < s.now))))).bind
    (fun id => s.events[id]?.map (fun row => ⟨id, row⟩))

/-- What `_claim_event` does with the event it selected; `capped` carries the state of the case
of an event that used up its attempts. -/
inductive EventClaim
  | nothing
  | claimed (id : Nat)
  | capped (e : EventObj) (st : Option CaseState)

/-- The select of `_claim_event`, with the commit of a successful claim. -/
def Worker.selectEvent (w : Worker) : P EventClaim :=
  tx w.owner (fun _ s =>
    match nextEvent s with
    | none => .ok (w.txn, .nothing)
    | some e =>
        if w.cfg.eventMaxAttempts < e.row.attemptsCount + 1 then
          .ok (w.txn, .capped e (if e.row.hasCase ∧ s.case.created then some s.case.state else none))
        else
          .ok ({ w.txn with eventWrites := [e.write { e.row with
                   attemptsCount := e.row.attemptsCount + 1
                   status := .processing
                   claimedBy := some w.owner
                   leaseExpiresAt := some (s.now + w.cfg.workerLeaseSeconds) }] },
            .claimed e.id))

/-- The end of an event that used up its attempts: it fails, and the case with it. -/
def Worker.capEvent (w : Worker) (e : EventObj) (st : Option CaseState) : P Unit := do
  match st with
  | none => tx w.owner (fun _ s => .ok ({ w.txn with eventWrites := [e.write (gaveUp s)] }, ()))
  | some st =>
      let (ws, _) ← terminateRunningAttempts w.owner
      tx w.owner (fun _ s =>
        .ok ((failCase none st { w.txn with
          writes := ws, eventWrites := [e.write (gaveUp s)] } s).1, ()))
where
  gaveUp (s : Store) : WebhookEvent :=
    { e.row with
      attemptsCount := e.row.attemptsCount + 1, status := .failed, processedAt := some s.now }

/-- `_claim_event`, followed for at most `n` events. -/
def Worker.claimEvent (w : Worker) : Nat → P (Option Nat)
  | 0 => throw .halt
  | n + 1 => do
      match ← w.selectEvent with
      | .nothing => pure none
      | .claimed id => pure (some id)
      | .capped e st =>
          w.capEvent e st
          w.claimEvent n

/-- `CLAIMABLE_STATES`. -/
def CaseState.claimable (st : CaseState) : Bool :=
  match st with
  | .received | .triageCreateIntent | .triaging | .reconcilingCreate | .terminationPending => true
  | st => st.remediationWork

/-- `RECONCILABLE_BLOCKED_ATTEMPT`. -/
def reconcilableBlocked (as : List Attempt) : Bool :=
  as.any (fun a => decide (a.kind = .triage) && decide (a.status = .blocked) &&
    a.devinSessionId.isSome && decide (a.reconciliationReason ≠ some .reconciledGone))

/-- The state part of the predicate of `_claim_case`. -/
def claimableCase (cfg : Settings) (s : Store) : Bool :=
  s.case.state.claimable ||
    (decide (s.case.state = .humanBlocked) && reconcilableBlocked s.core.attempts) ||
    (!cfg.probeRequired && decide (s.case.state = .remediationHumanBlocked) &&
      decide (s.case.failureReason = some .missingProbe))

/-- `active_event`: a delivery of the case is waiting or being processed. -/
def activeEvent (s : Store) : Bool :=
  s.events.any (fun e => e.hasCase && (decide (e.status = .pending) ||
    (decide (e.status = .processing) && e.leaseExpiresAt.any (fun t => decide (s.now ≤ t)))))

/-- `_claim_case`. -/
def Worker.claimCase (w : Worker) : P Bool :=
  tx w.owner (fun _ s =>
    if s.case.created ∧ claimableCase w.cfg s ∧
        s.case.leaseExpiresAt.all (fun t => decide (t < s.now)) ∧ activeEvent s = false then
      .ok ({ w.txn with
        claim := some (some w.owner, some (s.now + w.cfg.workerLeaseSeconds)) }, true)
    else .ok (w.txn, false))

/-! ## Releasing -/

/-- The backoff of `_release_case`. -/
def releaseBackoff (cfg : Settings) (s : Store) : Option Nat :=
  if s.case.waiting.waitingFor.isSome then some (s.now + cfg.capacityWaitBackoffSeconds)
  else
    match s.case.state with
    | .terminationPending | .remediationTerminationPending =>
        some (s.now + cfg.devinPollIntervalSeconds)
    | .ciPending => some (s.now + cfg.ciPollIntervalSeconds)
    | .humanBlocked | .remediationHumanBlocked =>
        some (s.now + cfg.humanBlockedReconcileIntervalSeconds)
    | _ => none

/-- `_release_case`. -/
def Worker.releaseCase (w : Worker) : P Unit :=
  tx w.owner (fun _ s => .ok ({ w.txn with
    claim := if s.case.claimedBy = some w.owner then some (none, releaseBackoff w.cfg s)
      else none }, ()))

/-- `_release_event_case` and `_release_event`. -/
def Worker.releaseEvent (w : Worker) (id : Nat) : P Unit := do
  let hasCase ← tx w.owner (fun _ s => .ok (w.txn, (s.events[id]?.map (·.hasCase)).getD false))
  if hasCase then w.releaseCase
  tx w.owner (fun _ s => .ok ({ w.txn with
    eventWrites := ((s.events[id]?).bind (fun row =>
      if row.claimedBy = some w.owner then
        some (⟨id, row, { row with claimedBy := none, leaseExpiresAt := none }⟩ :
          Write WebhookEvent)
      else none)).toList }, ()))

/-! ## Exceptions of a job -/

/-- `_cancel_unsent_attempts`. -/
def cancelUnsentAttempts (now : Nat) (as : List Attempt) : List (Write Attempt) :=
  attemptWrites (fun a => a.status.active && a.createSentAt.isNone)
    (fun row => { row with status := .cancelled, finishedAt := some now }) as

/-- `_mark_failed`: a lost transition is swallowed, and nothing of it is kept. -/
def Worker.markFailed (w : Worker) (t : Txn) (s : Store) : Txn :=
  let t' := (failCase (some w.owner) s.case.state t s).1
  if movesOk t'.moves s.case then t' else t

/-- The exception handlers of `_iterate` for the job of a case. -/
def Worker.onCaseError (w : Worker) (e : Err) : P Unit :=
  match e with
  | .invalidTransition => do
      tx w.owner (fun _ s => .ok ({ w.runner.txn with
        writes := cancelUnsentAttempts s.now s.core.attempts }, ()))
      w.releaseCase
  | .transientDb => pure ()
  | .data => throw .data
  | .integrity => throw .integrity
  | _ => tx w.owner (fun _ s => .ok (w.markFailed w.runner.txn s, ()))

/-- The exception handlers of `_iterate` for the job of an event. -/
def Worker.onEventError (w : Worker) (id : Nat) (e : Err) : P Unit :=
  match e with
  | .invalidTransition =>
      tx w.owner (fun _ s =>
        match s.events[id]? with
        | none => .ok (w.txn, ())
        | some row =>
            .ok ({ w.runner.txn with
              eventWrites := [⟨id, row, processed s.now row⟩]
              writes := if row.hasCase then cancelUnsentAttempts s.now s.core.attempts
                else [] }, ()))
  | .transientDb => pure ()
  | .data => throw .data
  | .integrity => throw .integrity
  | _ =>
      tx w.owner (fun _ s =>
        match s.events[id]? with
        | none => .ok (w.txn, ())
        | some row =>
            let t := { w.runner.txn with eventWrites := [⟨id, row, { row with
              status := .failed, processedAt := some s.now }⟩] }
            .ok (if row.hasCase then w.markFailed t s else t, ()))

/-! ## One iteration -/

/-- `try … finally`. -/
def withFinally (p fin : P Unit) : P Unit := do
  rescue p (fun e => do
    fin
    throw e)
  fin

/-- `_run_job` of a claimed case: it works on a fresh read of the case. -/
def Worker.runCase (w : Worker) : P Unit := do
  let (st, reason) ← tx w.owner (fun _ s =>
    .ok ({ w.runner.txn with starts := true }, s.case.state, s.case.failureReason))
  w.runner.processCase st reason

/-- `_iterate`. -/
def Worker.iterate (w : Worker) : P Unit := do
  match ← w.claimEvent w.rounds with
  | some id =>
      withFinally (rescue (w.runner.processEvent id) (w.onEventError id)) (w.releaseEvent id)
  | none =>
      if ← w.claimCase then
        withFinally (rescue w.runCase w.onCaseError) w.releaseCase
      else
        match ← w.dispatcher.claim with
        | some id => w.dispatcher.dispatch id
        | none => pure ()

end Remediator
