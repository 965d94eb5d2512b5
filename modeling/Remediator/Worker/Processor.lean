import Remediator.Worker.Stages

set_option autoImplicit false

/-! # Processing a case and an event

`remediator/worker/processor.py`.
-/

namespace Remediator

open Interleave

/-! ## Triage -/

/-- `_finish_triage`. The case is never left in `TRIAGED`: both transitions are one commit. -/
def Runner.finishTriage (r : Runner) (st : CaseState) (out : RunOutcome) : P Unit :=
  match out.result, out.attempt with
  | .finished, some a =>
      tx r.owner (fun _ s =>
        match a.row.structuredOutput.bind r.cfg.validateTriage with
        | none =>
            let row := { a.row with status := .failed, structuredOutput := none }
            .ok ((failCase r.claim st { r.txn with writes := [a.write row] } s).1, ())
        | some raw =>
            let row := { a.row with status := .succeeded, structuredOutput := some raw }
            let t := { r.txn with
              writes := [a.write row]
              moves := [r.move st .triaged, r.move .triaged .awaitingRemediationApproval] }
            .ok (createApprovalRequest r.cfg a.id raw t s, ()))
  | _, _ => pure ()

/-- `_source_issue`: the newest delivery of the case. -/
def sourceEvent (s : Store) : Option WebhookEvent := (s.events.filter (·.hasCase)).getLast?

/-- `_evaluate_eligibility`: two commits; returns whether the case goes on to triage. -/
def Runner.evaluateEligibility (r : Runner) (st : CaseState) : P Bool := do
  let eligible ← tx r.owner (fun _ s =>
    match sourceEvent s with
    | none => .error .other
    | some e => .ok ({ r.txn with moves := [r.move st .eligibilityEvaluated] }, e.eligible))
  if eligible then
    tx r.owner (fun _ _ => .ok ({ r.txn with
      moves := [r.move .eligibilityEvaluated .triageCreateIntent] }, true))
  else
    tx r.owner (fun _ _ => .ok ({ r.txn with
      moves := [r.move .eligibilityEvaluated .policyRejected], newOutbox := [notice] }, false))

/-- `runner.run(TRIAGE)` and `_finish_triage`. -/
def Runner.runTriage (r : Runner) (st : CaseState) : P Unit := do
  let (st, out) ← r.run .triage st
  r.finishTriage st out

/-- `_active_kind`. -/
def activeKind (s : Store) : Option AttemptKind :=
  (newestAttempt (fun a => a.status.active) s.core.attempts).map (·.row.kind)

/-- `reconcile_blocked_triage`. -/
def Runner.reconcileBlockedTriage (r : Runner) (st : CaseState) : P Unit := do
  match ← r.reconcileBlocked .triage st with
  | none => pure ()
  | some (st, out) => r.finishTriage st out

/-- The `TERMINATION_PENDING` branch of `process_case`. -/
def Runner.processTermination (r : Runner) (st : CaseState) : P Unit := do
  match ← tx r.owner (fun _ s => .ok (r.txn,
      (s.core.attempts.find? (fun a => decide (a.status = .terminationPending))).map (·.kind))) with
  | none =>
      let _ ← r.terminateCase st
      pure ()
  | some kind =>
      let (st, out) ← r.run kind st
      if kind = .triage then r.finishTriage st out else pure ()

/-- The triage part of `process_case`. -/
def Runner.processTriage (r : Runner) (st : CaseState) : P Unit :=
  match st with
  | .received => do
      if ← r.evaluateEligibility st then r.runTriage .triageCreateIntent else pure ()
  | .triageCreateIntent | .triaging => r.runTriage st
  | .reconcilingCreate => do
      let kind ← tx r.owner (fun _ s => .ok (r.txn, activeKind s))
      if kind = some .triage then r.runTriage st else pure ()
  | .humanBlocked => r.reconcileBlockedTriage st
  | .terminationPending => r.processTermination st
  | _ => pure ()

/-- `process_case`. -/
def Runner.processCase (r : Runner) (st : CaseState) (reason : Option Reason) : P Unit :=
  if st.remediationPhase then
    if st.remediationWork ∨ (r.cfg.probeRequired = false ∧ st = .remediationHumanBlocked ∧
        reason = some .missingProbe) then
      r.process st reason
    else pure ()
  else r.processTriage st

/-! ## Events -/

/-- The event object of the job's session. -/
structure EventObj where
  id : Nat
  row : WebhookEvent

def EventObj.write (e : EventObj) (changed : WebhookEvent) : Write WebhookEvent :=
  ⟨e.id, e.row, changed⟩

/-- `event.status = PROCESSED`. -/
def processed (now : Nat) (e : WebhookEvent) : WebhookEvent :=
  { e with status := .processed, processedAt := some now }

/-- A delivery of the remediation label: `confirm_label_webhook` locks the case and its newest
round, but `st` is what the case was loaded with. -/
def Runner.processLabelEvent (r : Runner) (e : EventObj) (st : Option CaseState) : P Unit :=
  tx r.owner (fun _ s =>
    let t : Txn := { r.txn with
      judges := some (st, (openRequest s).any (fun x =>
        isCurrentRequest s.approvals s.core.attempts x.1 x.2))
      eventWrites := [e.write (processed s.now { e.row with
        hasCase := e.row.hasCase || st.isSome })] }
    match st, openRequest s with
    | some st, some (id, req) =>
        .ok ((confirmLabelWebhook r.cfg st id req e.row.issueLabels t s).1, ())
    | _, _ => .ok (t, ()))

/-- What `process_event` goes on with after it has loaded the case. -/
inductive EventWork
  | done
  | label (e : EventObj) (st : Option CaseState)
  | case (e : EventObj)

/-- The first transaction of `process_event`. A lost insert race finds the case of the winner. -/
def Runner.openEvent (r : Runner) (id : Nat) : P EventWork :=
  tx r.owner (fun _ s =>
    match s.events[id]? with
    | none => .ok (r.txn, .done)
    | some row =>
        let e : EventObj := ⟨id, row⟩
        if row.remediationLabel then
          .ok (r.txn, .label e (if s.case.created then some s.case.state else none))
        else if s.case.created ∧ s.case.state ≠ .received then
          .ok ({ r.txn with
            eventWrites := [e.write (processed s.now { row with hasCase := true })] }, .done)
        else
          let linked := { row with hasCase := true }
          .ok ({ r.txn with
              create := true
              starts := true
              claim := if s.case.claimedBy.isNone then
                  some (r.claim, some (s.now + r.cfg.workerLeaseSeconds))
                else none
              eventWrites := [e.write linked] }, .case ⟨id, linked⟩))

/-- `process_event`. -/
def Runner.processEvent (r : Runner) (id : Nat) : P Unit := do
  match ← r.openEvent id with
  | .done => pure ()
  | .label e st => r.processLabelEvent e st
  | .case e =>
      r.processCase .received none
      tx r.owner (fun _ s =>
        .ok ({ r.txn with eventWrites := [e.write (processed s.now e.row)] }, ()))

end Remediator
