import Remediator.Program

set_option autoImplicit false

/-! # The session runner

`remediator/worker/devin_runner.py`: one bounded Devin session for an attempt of the case. A
durable intent row is committed before the single `POST`; an uncertain `POST` is reconciled by
the operation tag and never repeated; polling is bounded by a deadline.

Each program takes the runner's own copy of the case state and of the attempt, and returns
them: `expire_on_commit` is off, so a copy does not follow the database. Capacity leases and
consumption reports are not part of this store; whether a slot is granted is an answer of the
environment.
-/

namespace Remediator

open Interleave

/-- An attempt object of the session: the row's id and the copy of the row. -/
structure AttemptObj where
  id : Nat
  row : Attempt

/-- The object is flushed with these columns. -/
def AttemptObj.write (a : AttemptObj) (changed : Attempt) : Write Attempt := ⟨a.id, a.row, changed⟩

/-- `RemediationContext`: what a remediation attempt is authorised against. -/
structure RemediationContext where
  approval : Nat
  triageResultHash : String
  baseSha : String
  probe : Option (Nat × ProbeSnapshot)
  baseExecution : Option Nat

/-- `RemediationContext.probe_not_configured`. -/
def RemediationContext.probeNotConfigured (ctx : RemediationContext) : Bool := ctx.probe.isNone

/-- `RunResult`. -/
inductive RunResult
  | finished
  | failed
  | humanBlocked
  | timedOut
  | terminationPending
  | waitingForCapacity
  deriving DecidableEq

/-- `RunOutcome`; a placeholder attempt is `none`. -/
structure RunOutcome where
  result : RunResult
  attempt : Option AttemptObj := none
  pullRequests : List String := []

/-- What the runner of a job is built with. -/
structure Runner where
  cfg : Settings
  owner : Owner
  /-- `claimed_by` -/
  claim : Option Owner
  remediation : Option RemediationContext := none
  /-- number of rounds the poll loop is followed for -/
  rounds : Nat

/-! ## Failing the case -/

/-- The attempts that satisfy `p`, oldest first. -/
def attemptObjs (p : Attempt → Bool) (as : List Attempt) : List AttemptObj :=
  (as.zipIdx.map (fun x => (⟨x.2, x.1⟩ : AttemptObj))).filter (fun a => p a.row)

/-- The newest attempt that satisfies `p`: `ORDER BY started_at DESC`. Rows are inserted in the
order of their start. -/
def newestAttempt (p : Attempt → Bool) (as : List Attempt) : Option AttemptObj :=
  (attemptObjs p as).getLast?

/-- Change the attempts that satisfy `p`. -/
def attemptWrites (p : Attempt → Bool) (f : Attempt → Attempt) (as : List Attempt) :
    List (Write Attempt) :=
  (attemptObjs p as).map (fun a => a.write (f a.row))

/-- `active_attempts_with_session`. -/
def activeWithSession (a : Attempt) : Bool := a.status.active && a.createSentAt.isSome

/-- Park the live attempts of a failing case as `TERMINATION_PENDING`. -/
def parkWrites (as : List Attempt) : List (Write Attempt) :=
  attemptWrites activeWithSession (fun row => { row with
    status := .terminationPending, reconciliationReason := some .workerError }) as

/-- The record-only outbox row of a lifecycle event. -/
def notice : OutboxRow := { kind := .notification, approvalRequestId := none }

/-- `fail_case`, inside the transaction `t`: the case fails, or is parked in
`TERMINATION_PENDING` while an active attempt may own a session. The second component is the
state of the caller's copy afterwards. -/
def failCase (claim : Option Owner) (st : CaseState) (t : Txn) (s : Store) : Txn × CaseState :=
  let t := { t with failureReason := some (some .other), failing := true }
  if st.terminal then (t, st)
  else
    let phase := phaseForState st
    let live := parkWrites (t.attempts s.core)
    if live.isEmpty then
      ({ t with moves := t.moves ++ [⟨st, phase.failed, .worker, claim, false⟩]
                newOutbox := t.newOutbox ++ [notice] },
        phase.failed)
    else
      let t := { t with writes := t.writes ++ live }
      if st = phase.terminationPending then (t, st)
      else ({ t with moves := t.moves ++ [⟨st, phase.terminationPending, .worker, claim, false⟩] },
        phase.terminationPending)

/-- A transaction of the runner. -/
def Runner.txn (_ : Runner) : Txn := {}

/-- `_transition` of the runner and of the pipeline. -/
def Runner.move (r : Runner) (st dst : CaseState) : Move := ⟨st, dst, .worker, r.claim, false⟩

def Runner.timeoutSeconds (r : Runner) : AttemptKind → Nat
  | .triage => r.cfg.triageTimeoutSeconds
  | .remediation => r.cfg.remediationTimeoutSeconds

/-- `DevinRunner._fail`. -/
def Runner.fail (r : Runner) (st : CaseState) (a : AttemptObj) : P (CaseState × RunOutcome) :=
  tx r.owner (fun _ s =>
    let row := { a.row with
      status := .failed
      finishedAt := some s.now
      failureStage := if a.row.kind = .remediation then some .session else a.row.failureStage
      failureClass := if a.row.kind = .remediation then some .session else a.row.failureClass }
    let (t, st) := failCase r.claim st { r.txn with writes := [a.write row] } s
    .ok (t, st, ⟨.failed, some ⟨a.id, row⟩, []⟩))

/-! ## Termination -/

/-- `_mark_terminated`: the confirmed end of a session. -/
def Runner.markTerminated (r : Runner) (st : CaseState) (a : AttemptObj) :
    P (CaseState × RunOutcome) :=
  tx r.owner (fun _ s =>
    let phase := phaseForKind a.row.kind
    let expired := a.row.timeoutAt.any (fun t => decide (t ≤ s.now))
    let (status, dst, result) : AttemptStatus × CaseState × RunResult :=
      if a.row.reconciliationReason = some .cancelRequested ∧ expired = false then
        (.cancelled, phase.cancelled, .failed)
      else if a.row.reconciliationReason = some .workerError ∧ expired = false then
        (.failed, phase.failed, .failed)
      else (.timedOut, phase.timedOut, .timedOut)
    let row := { a.row with
      status := status, reconciliationReason := none, finishedAt := some s.now }
    .ok ({ r.txn with
           writes := [a.write row], moves := [r.move st dst], failureReason := some (some .other),
           newOutbox := [notice] }, dst, ⟨result, some ⟨a.id, row⟩, []⟩))

/-- `_terminate_by_tag`, once the sessions are looked up: `none` when a `DELETE` raises. -/
def deleteAll : List SessionId → P Bool
  | [] => pure true
  | x :: xs => do
      match ← terminateSession x with
      | .error => pure false
      | _ => deleteAll xs

/-- The sessions that carry the tag of the attempt are looked up and deleted: whether that is
confirmed. -/
def deleteTagged (a : Nat) : P Bool := do
  match ← findSessionsByTag a .terminate with
  | none => pure false
  | some found => deleteAll found

/-- `_terminate_by_tag`. -/
def Runner.terminateByTag (r : Runner) (st : CaseState) (a : AttemptObj) :
    P (CaseState × RunOutcome) := do
  let confirmed ← deleteTagged a.id
  if confirmed then r.markTerminated st a
  else
    tx r.owner (fun _ _ =>
      let row := { a.row with reconciliationReason := some .other }
      .ok ({ r.txn with writes := [a.write row], failureReason := some (some .other) }, st,
        ⟨.terminationPending, some ⟨a.id, row⟩, []⟩))

/-- `_settle`. -/
def Runner.settle (r : Runner) (st : CaseState) (a : AttemptObj) (snap : Devin.SessionSnapshot)
    (d : Devin.Disposition) : P (CaseState × RunOutcome) :=
  match d with
  | .finished =>
      tx r.owner (fun _ s =>
        let row := { a.row with
          structuredOutput := snap.structuredOutput, finishedAt := some s.now }
        .ok ({ r.txn with
               writes := [a.write row] },
          st, ⟨.finished, some ⟨a.id, row⟩, snap.pullRequests⟩))
  | .waitingForHuman =>
      tx r.owner (fun _ s =>
        let dst := (phaseForKind a.row.kind).humanBlocked
        let row := { a.row with status := .blocked, finishedAt := some s.now }
        .ok ({ r.txn with
               writes := [a.write row], moves := [r.move st dst],
               failureReason := some (some .other), newOutbox := [notice] },
          dst, ⟨.humanBlocked, some ⟨a.id, row⟩, []⟩))
  | _ => r.fail st a

/-- The `DELETE` at the end of `_handle_timeout`. -/
def Runner.terminate (r : Runner) (st : CaseState) (a : AttemptObj) (sid : SessionId) :
    P (CaseState × RunOutcome) := do
  match ← terminateSession sid with
  | .error =>
      tx r.owner (fun _ _ =>
        let dst := (phaseForKind a.row.kind).terminationPending
        let reason := match a.row.reconciliationReason with
          | some .cancelRequested => Reason.cancelRequested
          | some .workerError => .workerError
          | _ => .other
        let row := { a.row with
          status := .terminationPending, reconciliationReason := some reason }
        .ok ({ r.txn with
               writes := [a.write row], moves := if st = dst then [] else [r.move st dst],
               failureReason := some (some .other) },
          dst, ⟨.terminationPending, some ⟨a.id, row⟩, []⟩))
  | _ => r.markTerminated st a

/-- `attempt.status = RUNNING`, before an outcome is settled. -/
def Runner.rerun (r : Runner) (a : AttemptObj) : P AttemptObj :=
  tx r.owner (fun _ _ =>
    let row := { a.row with status := .running }
    .ok ({ r.txn with writes := [a.write row] }, ⟨a.id, row⟩))

/-- `_handle_timeout`: the session is read once more and then terminated. -/
def Runner.handleTimeout (r : Runner) (st : CaseState) (a : AttemptObj) (sid : SessionId) :
    P (CaseState × RunOutcome) := do
  match ← getSession sid .settle with
  | .notFound => r.markTerminated st a
  | .error => r.terminate st a sid
  | .snapshot snap =>
      let mapping := Devin.disposition snap
      match mapping.disposition with
      | .failed =>
          if st = (phaseForKind a.row.kind).terminationPending then r.markTerminated st a
          else do
            let a ← r.rerun a
            r.settle st a snap .failed
      | .finished => do
          let a ← r.rerun a
          r.settle st a snap .finished
      | .waitingForHuman => do
          let a ← r.rerun a
          r.settle st a snap .waitingForHuman
      | _ =>
          if mapping.remoteTerminal then r.markTerminated st a else r.terminate st a sid

/-! ## Attaching and reconciling -/

/-- `_attach`: record the session on the attempt and move the case to its running state. When
the transition is lost the attempt is closed, the session is given up and the job ends. -/
def Runner.attach (r : Runner) (st : CaseState) (a : AttemptObj) (sid : SessionId)
    (create : CreateState) : P (CaseState × AttemptObj) :=
  rescue
    (tx r.owner (fun _ s =>
      let dst := (phaseForKind a.row.kind).running
      let row := { a.row with
        createState := create, status := .running, devinSessionId := some sid
        reconciliationReason := none
        timeoutAt := some (s.now + r.timeoutSeconds a.row.kind) }
      .ok ({ r.txn with writes := [a.write row], moves := [r.move st dst] }, dst, ⟨a.id, row⟩)))
    (fun e =>
      if e = .invalidTransition then do
        tx r.owner (fun _ s =>
          .ok ({ r.txn with
                 writes := (s.core.attempts[a.id]?.map (fun row => (⟨a.id, row, { row with
                   createState := create, devinSessionId := some sid, status := .cancelled
                   finishedAt := some s.now }⟩ : Write Attempt))).toList }, ()))
        let _ ← terminateSession sid
        throw .invalidTransition
      else throw e)

/-- The lookups of `_reconcile_create`: at most `n` of them, until one lists a session. -/
def lookups (a : Nat) : Nat → P (List SessionId)
  | 0 => pure []
  | n + 1 => do
      match ← findSessionsByTag a .attach with
      | some (x :: xs) => pure (x :: xs)
      | _ => lookups a n

/-- The end of `_reconcile_create` when no single session was found. -/
def Runner.unresolved (r : Runner) (st : CaseState) (a : AttemptObj) : P (CaseState × RunOutcome) :=
  tx r.owner (fun _ s =>
    let dst := (phaseForKind a.row.kind).humanBlocked
    let row := { a.row with
      createState := .unresolved, status := .blocked, reconciliationReason := some .other
      finishedAt := some s.now }
    .ok ({ r.txn with
           writes := [a.write row], moves := [r.move st dst],
           failureReason := some (some .other), newOutbox := [notice] },
      dst, ⟨.humanBlocked, some ⟨a.id, row⟩, []⟩))

/-- `_reconcile_create`: find out what an uncertain create did; never repeat it. -/
def Runner.reconcileCreate (r : Runner) (st : CaseState) (a : AttemptObj) :
    P (CaseState × (AttemptObj ⊕ RunOutcome)) := do
  let (st, a) ← tx r.owner (fun _ _ =>
    let phase := phaseForKind a.row.kind
    let row := { a.row with
      status := .reconciling
      createState := if a.row.createState = .pending then .uncertain else a.row.createState
      reconciliationReason := if a.row.createState = .pending then some .other
        else a.row.reconciliationReason }
    .ok ({ r.txn with
           writes := [a.write row],
           moves := if st = phase.intent then [r.move st phase.reconciling] else [] },
      if st = phase.intent then phase.reconciling else st, (⟨a.id, row⟩ : AttemptObj)))
  match ← lookups a.id (max 1 r.cfg.reconcileMaxAttempts) with
  | [sid] =>
      let (st, a) ← r.attach st a sid .reconciled
      pure (st, .inl a)
  | _ =>
      let (st, out) ← r.unresolved st a
      pure (st, .inr out)

/-! ## Creating -/

/-- `allocate_attempt_ordinal`. -/
def allocateAttemptOrdinal (kind : AttemptKind) (as : List Attempt) : Nat :=
  let mine := as.filter (fun a => decide (a.kind = kind))
  max ((mine.map (·.ordinal)).foldl max 0) mine.length + 1

/-- The earlier attempts `_settle_previous_sessions` looks at. -/
def unsettled (kind : AttemptKind) (a : Attempt) : Bool :=
  decide (a.kind = kind) && (decide (a.status = .blocked) || decide (a.status = .reconciling))

/-- Close an earlier attempt; an existing `finished_at` is kept. -/
def closePrevious (now : Nat) (a : AttemptObj) : Write Attempt :=
  a.write { a.row with status := .cancelled, finishedAt := a.row.finishedAt.or (some now) }

/-- The loop of `_settle_previous_sessions`: the objects changed so far, and whether the retry
is refused. -/
def settlePrevious (now : Nat) : List AttemptObj → List (Write Attempt) →
    P (List (Write Attempt) × Bool)
  | [], ws => pure (ws, false)
  | a :: as, ws =>
      if a.row.createState = .unresolved then
        if a.row.reconciliationReason ≠ some .createAck then pure (ws, true)
        else settlePrevious now as (ws ++ [closePrevious now a])
      else
        match a.row.devinSessionId with
        | none => settlePrevious now as ws
        | some sid => do
            match ← getSession sid .inspect with
            | .notFound => settlePrevious now as (ws ++ [closePrevious now a])
            | .error => pure (ws, true)
            | .snapshot snap =>
                if snap.structuredOutput.isSome then pure (ws, true)
                else
                  match ← terminateSession sid with
                  | .error => pure (ws, true)
                  | _ => settlePrevious now as (ws ++ [closePrevious now a])

/-- A placeholder outcome: the case was failed and no attempt exists. -/
def Runner.refuse (r : Runner) (st : CaseState) (ws : List (Write Attempt)) :
    P (CaseState × (AttemptObj ⊕ RunOutcome)) :=
  tx r.owner (fun _ s =>
    let (t, st) := failCase r.claim st { r.txn with writes := ws } s
    .ok (t, st, .inr ⟨.failed, none, []⟩))

/-- The new attempt row of `_create`. -/
def Runner.newAttempt (r : Runner) (kind : AttemptKind) (ordinal now : Nat) :
    Option RemediationContext → NewAttempt
  | none =>
      { row := {
          kind := kind, ordinal := ordinal, operationKey := .triage ordinal, startedAt := now
          timeoutAt := some (now + r.timeoutSeconds kind) } }
  | some ctx =>
      { row := {
          kind := kind, ordinal := ordinal
          operationKey := .remediation ctx.triageResultHash ctx.baseSha ordinal, startedAt := now
          timeoutAt := some (now + r.timeoutSeconds kind)
          approvalRequestId := some ctx.approval
          triageResultHash := some ctx.triageResultHash
          probeSnapshotId := ctx.probe.map (·.1)
          probeStatus := if ctx.probeNotConfigured then .notConfigured else .verified
          baseSha := some ctx.baseSha }
        link := ctx.baseExecution }

/-- The transaction that commits the durable intent row. -/
def Runner.insertAttempt (r : Runner) (kind : AttemptKind) (ordinal : Nat)
    (ctx : Option RemediationContext) : P AttemptObj :=
  tx r.owner (fun _ s =>
    let new := r.newAttempt kind ordinal s.now ctx
    .ok ({ r.txn with insert := some new }, ⟨s.core.attempts.length, new.row⟩))

/-- The end of an attempt whose request could not be built or was rejected. -/
def Runner.failCreate (r : Runner) (st : CaseState) (a : AttemptObj) (create : CreateState) :
    P (CaseState × (AttemptObj ⊕ RunOutcome)) :=
  tx r.owner (fun _ s =>
    let row := { a.row with createState := create, status := .failed, finishedAt := some s.now }
    let (t, st) := failCase r.claim st { r.txn with writes := [a.write row] } s
    .ok (t, st, .inr ⟨.failed, some ⟨a.id, row⟩, []⟩))

/-- `_create` from the inserted row on: build the request, commit `create_sent_at`, `POST`. -/
def Runner.send (r : Runner) (st : CaseState) (a : AttemptObj) :
    P (CaseState × (AttemptObj ⊕ RunOutcome)) := do
  let built ← ask (fun i => r.cfg.repositoryAllowed && i.yes)
  if built = false then r.failCreate st a .notSent
  else
    let a ← tx r.owner (fun _ s =>
      let row := { a.row with createSentAt := some s.now }
      .ok ({ r.txn with writes := [a.write row] }, (⟨a.id, row⟩ : AttemptObj)))
    match ← createSession r.owner a.id with
    | (.apiError, _) => r.failCreate st a .apiError
    | (.transportError _ _, _) =>
        let (st, a) ← tx r.owner (fun _ _ =>
          let dst := (phaseForKind a.row.kind).reconciling
          let row := { a.row with
            createState := .uncertain, status := .reconciling
            reconciliationReason := some .other }
          .ok ({ r.txn with writes := [a.write row], moves := [r.move st dst] }, dst,
            (⟨a.id, row⟩ : AttemptObj)))
        r.reconcileCreate st a
    | (.created, sid) =>
        let (st, a) ← r.attach st a sid .created
        pure (st, .inl a)

/-- `_create`. -/
def Runner.create (r : Runner) (kind : AttemptKind) (st : CaseState) :
    P (CaseState × (AttemptObj ⊕ RunOutcome)) := do
  let (ordinal, previous, now) ← tx r.owner (fun _ s =>
    .ok ({}, allocateAttemptOrdinal kind s.core.attempts,
      attemptObjs (unsettled kind) s.core.attempts, s.now))
  if r.cfg.maxAttemptsPerKind < ordinal then r.refuse st []
  else
    let (ws, refused) ← settlePrevious now previous []
    if refused then r.refuse st ws
    else
      tx r.owner (fun _ _ => .ok ({ r.txn with writes := ws }, ()))
      if kind = .remediation ∧ r.remediation.isNone then r.refuse st []
      else
        let ctx := if kind = .remediation then r.remediation else none
        if ctx.any (fun c => c.triageResultHash.length ≠ 64 || c.baseSha.length ≠ 40) then
          throw .other
        else
          let a ← r.insertAttempt kind ordinal ctx
          r.send st a

/-! ## Polling -/

/-- The top of the poll loop: `_cancel_requested` re-reads the state of the case. -/
inductive PollCheck
  | cancel (st : CaseState) (a : AttemptObj)
  | expired (st : CaseState)
  | goOn (st : CaseState)

def Runner.pollCheck (r : Runner) (a : AttemptObj) : P PollCheck :=
  tx r.owner (fun _ s =>
    let st := s.case.state
    if st = .terminationPending ∨ st = .remediationTerminationPending then
      let row := { a.row with
        status := .terminationPending, reconciliationReason := some .cancelRequested }
      .ok ({ r.txn with writes := [a.write row] }, .cancel st ⟨a.id, row⟩)
    else if a.row.timeoutAt.any (fun t => decide (t ≤ s.now)) then .ok ({}, .expired st)
    else .ok ({}, .goOn st))

/-- A poll that leaves the attempt active. -/
def Runner.recordPoll (r : Runner) (a : AttemptObj) (status : AttemptStatus)
    (reason : Option Reason) : P AttemptObj :=
  tx r.owner (fun _ _ =>
    let row := { a.row with status := status, reconciliationReason := reason }
    .ok ({ r.txn with writes := [a.write row] }, ⟨a.id, row⟩))

/-- `_poll`, followed for at most `n` rounds. -/
def Runner.poll (r : Runner) (sid : SessionId) : Nat → CaseState → AttemptObj →
    P (CaseState × RunOutcome)
  | 0, _, _ => throw .halt
  | n + 1, _, a => do
      match ← r.pollCheck a with
      | .cancel st a => r.handleTimeout st a sid
      | .expired st => r.handleTimeout st a sid
      | .goOn st =>
          match ← getSession sid .settle with
          | .notFound => r.fail st a
          | .error =>
              let a ← r.recordPoll a .reconciling (some .other)
              r.poll sid n st a
          | .snapshot snap =>
              match (Devin.disposition snap).disposition with
              | .unknown =>
                  let a ← r.recordPoll a .reconciling (some .other)
                  r.poll sid n st a
              | .live =>
                  let a ← r.recordPoll a .running none
                  r.poll sid n st a
              | d =>
                  let a ← r.recordPoll a .running none
                  r.settle st a snap d

/-- `_poll`; an attempt without a deadline gets one. -/
def Runner.startPoll (r : Runner) (st : CaseState) (a : AttemptObj) : P (CaseState × RunOutcome) := do
  match a.row.devinSessionId with
  | none => throw .other
  | some sid =>
      let a ← if a.row.timeoutAt.isSome then pure a
        else tx r.owner (fun _ _ =>
          let row := { a.row with timeoutAt := some (a.row.startedAt + r.timeoutSeconds a.row.kind) }
          .ok ({ r.txn with writes := [a.write row] }, (⟨a.id, row⟩ : AttemptObj)))
      r.poll sid r.rounds st a

/-! ## Running -/

/-- The select at the top of `run`. -/
def activeOfKind (kind : AttemptKind) (a : Attempt) : Bool :=
  decide (a.kind = kind) && a.status.active

/-- `_lease_kind`. -/
def leaseKind : AttemptKind → Capacity.LeaseKind
  | .remediation => .remediation
  | .triage => .triage

/-- Ask for a slot: `mark_waiting` on a refusal, `clear_waiting` otherwise. -/
def Runner.acquireSlot (r : Runner) (st : CaseState) (kind : Capacity.LeaseKind) : P Bool :=
  tx r.owner (fun i _ => .ok ({ r.txn with
    waiting := some (if i.yes then .clear else .mark { i.denied with kind := kind })
    parksIn := some st }, i.yes))

/-- `DevinRunner.run`. -/
def Runner.run (r : Runner) (kind : AttemptKind) (st : CaseState) : P (CaseState × RunOutcome) := do
  let phase := phaseForKind kind
  match ← tx r.owner (fun _ s =>
      let active := newestAttempt (activeOfKind kind) s.core.attempts
      .ok ({ r.txn with creates := if active.isNone then some st else none }, active)) with
  | none =>
      let granted ← r.acquireSlot st (leaseKind kind)
      if granted = false then pure (st, ⟨.waitingForCapacity, none, []⟩)
      else
        match ← r.create kind st with
        | (st, .inr out) => pure (st, out)
        | (st, .inl a) => r.startPoll st a
  | some a =>
      if a.row.status = .terminationPending then
        match a.row.devinSessionId with
        | none => r.terminateByTag st a
        | some sid => r.handleTimeout st a sid
      else if a.row.devinSessionId.isNone then
        match ← r.reconcileCreate st a with
        | (st, .inr out) => pure (st, out)
        | (st, .inl a) => r.startPoll st a
      else
        let st ← tx r.owner (fun _ _ =>
          if st = phase.reconciling ∨ st = phase.intent then
            .ok ({ r.txn with moves := [r.move st phase.running] }, phase.running)
          else .ok ({}, st))
        r.startPoll st a

/-! ## Retained sessions -/

/-- `blocked_attempts_with_session`. -/
def blockedWithSession (kind : AttemptKind) (a : Attempt) : Bool :=
  decide (a.kind = kind) && decide (a.status = .blocked) && a.devinSessionId.isSome

/-- Record on the attempt what the re-read of its session said. -/
def Runner.annotate (r : Runner) (a : AttemptObj) (reason : Reason) : P AttemptObj :=
  tx r.owner (fun _ _ =>
    let row := { a.row with reconciliationReason := some reason }
    .ok ({ r.txn with writes := [a.write row] }, ⟨a.id, row⟩))

/-- The loop of `reconcile_blocked`: every retained session is read once; the objects as they
are afterwards, with the snapshots that carry output. -/
def Runner.readRetained (r : Runner) : List AttemptObj →
    P (List (AttemptObj × Option Devin.SessionSnapshot))
  | [] => pure []
  | a :: as => do
      match a.row.devinSessionId with
      | none => throw .other
      | some sid =>
          match ← getSession sid .reconcile with
          | .snapshot snap =>
              if snap.structuredOutput.isSome then
                let rest ← r.readRetained as
                pure ((a, some snap) :: rest)
              else
                let a ← r.annotate a .reconciledNoOutput
                let rest ← r.readRetained as
                pure ((a, none) :: rest)
          | .notFound =>
              let a ← r.annotate a .reconciledGone
              let rest ← r.readRetained as
              pure ((a, none) :: rest)
          | .error =>
              let a ← r.annotate a .other
              let rest ← r.readRetained as
              pure ((a, none) :: rest)

/-- `_output_is_valid`. -/
def outputIsValid (cfg : Settings) (kind : AttemptKind) (output : Option Doc) : Bool :=
  match kind with
  | .triage => (output.bind cfg.validateTriage).isSome
  | .remediation => true

/-- The output `reconcile_blocked` ingests: the newest valid one, else the newest. -/
def chooseOutput (cfg : Settings) (kind : AttemptKind)
    (read : List (AttemptObj × Option Devin.SessionSnapshot)) :
    Option (AttemptObj × Devin.SessionSnapshot) :=
  let withOutput := read.filterMap (fun x => x.2.map (fun snap => (x.1, snap)))
  (withOutput.find? (fun x => outputIsValid cfg kind x.2.structuredOutput)).or withOutput.head?

/-- `reconcile_blocked`: re-read the retained sessions of a blocked case; never `POST`. -/
def Runner.reconcileBlocked (r : Runner) (kind : AttemptKind) (st : CaseState) :
    P (Option (CaseState × RunOutcome)) := do
  let phase := phaseForKind kind
  let candidates ← tx r.owner (fun _ s =>
    .ok (r.txn,
      (attemptObjs (blockedWithSession kind) s.core.attempts).reverse))
  let read ← r.readRetained candidates
  match chooseOutput r.cfg kind read with
  | none => pure none
  | some (a, snap) =>
      let (st, a) ← tx r.owner (fun _ _ =>
        let row := { a.row with status := .running, reconciliationReason := none }
        let others := (read.map (·.1)).filter (fun x => decide (x.id ≠ a.id))
        .ok ({ r.txn with
               writes := others.map (fun x => x.write { x.row with status := .cancelled })
                 ++ [a.write row]
               failureReason := some none
               moves := if st = phase.humanBlocked then [r.move st phase.running] else [] },
          if st = phase.humanBlocked then phase.running else st, (⟨a.id, row⟩ : AttemptObj)))
      let res ← r.settle st a snap .finished
      pure (some res)

/-! ## Terminating every attempt -/

/-- The sessions an open attempt owns or may own are terminated: `none` when one termination
could not be confirmed. -/
def terminateOne (a : AttemptObj) : P Bool := do
  match a.row.devinSessionId with
  | some sid =>
      match ← terminateSession sid with
      | .error => pure false
      | _ => pure true
  | none =>
      if a.row.createSentAt.isSome then deleteTagged a.id else pure true

/-- The loop of `terminate_running_attempts`: the objects changed, and whether every
termination is confirmed. -/
def terminateLoop (now : Nat) : List AttemptObj → P (List (Write Attempt) × Bool)
  | [] => pure ([], true)
  | a :: as => do
      if ← terminateOne a then
        let (ws, ok) ← terminateLoop now as
        pure (a.write { a.row with
          status := .cancelled, reconciliationReason := none, finishedAt := some now } :: ws, ok)
      else
        let (ws, _) ← terminateLoop now as
        pure (a.write { a.row with
          status := .terminationPending
          reconciliationReason := some .cancelRequested } :: ws, false)

/-- `terminate_running_attempts`; the caller commits the changed objects. -/
def terminateRunningAttempts (o : Owner) : P (List (Write Attempt) × Bool) := do
  let (attempts, now) ← tx o (fun _ s =>
    .ok ({}, attemptObjs (fun a => a.status.isOpen) s.core.attempts, s.now))
  terminateLoop now attempts

end Remediator
