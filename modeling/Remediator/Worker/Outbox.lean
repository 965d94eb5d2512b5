import Remediator.Worker.Processor

set_option autoImplicit false

/-! # The outbox dispatcher

`remediator/worker/outbox.py`: a claimed row is handed to the handler of its kind; a handler
commits in the middle, and what it changed since its last commit is committed together with the
row, or rolled back when it fails.
-/

namespace Remediator

open Interleave

/-- The identity of a dispatcher: the owner of the transactions, and the worker process that
`claimed_by` names. -/
structure Dispatcher where
  cfg : Settings
  owner : Owner
  worker : Nat

/-- The transactions of the dispatcher carry no case claim. -/
def Dispatcher.txn (_ : Dispatcher) : Txn := {}

/-- How a handler ends; `sent` carries what it has not committed yet. -/
inductive Handled
  | sent (pending : List (Write ApprovalRequest)) (outbox : List OutboxRow)
  | failed (permanent : Bool)

/-- A round object of the session: as it was loaded or last flushed, and as it is now. -/
structure RequestObj where
  id : Nat
  loaded : ApprovalRequest
  row : ApprovalRequest

def RequestObj.write (r : RequestObj) : Write ApprovalRequest := ⟨r.id, r.loaded, r.row⟩

/-- Assign the columns of the object. -/
def RequestObj.set (r : RequestObj) (row : ApprovalRequest) : RequestObj := { r with row := row }

/-- The object after a commit. -/
def RequestObj.flushed (r : RequestObj) : RequestObj := { r with loaded := r.row }

/-- Commit the object with these columns, and what else the session has changed. -/
def Dispatcher.commit (d : Dispatcher) (r : RequestObj) (also : List (Write ApprovalRequest))
    (change : Input → Store → ApprovalRequest) : P RequestObj :=
  tx d.owner (fun i s =>
    let r := r.set (change i s)
    .ok ({ d.txn with approvalWrites := also ++ [r.write] }, r.flushed))

/-- `_load_request`: the round of the row, with the state of the case. -/
def loadRequest (row : OutboxRow) (s : Store) : Option (RequestObj × CaseState) :=
  row.approvalRequestId.bind (fun id =>
    s.approvals[id]?.map (fun r => (⟨id, r, r⟩, s.case.state)))

/-! ## The Slack message of a round -/

/-- How a call to GitHub or Slack is taken: it may fail, for now or for good. -/
def taken {α : Type} (a : α) : Answer Unit → α ⊕ Bool
  | .ok _ => .inl a
  | .retryable => .inr false
  | .refused => .inr true

/-- The token and the `SENDING` marker are committed before the message is posted. -/
def Dispatcher.storeToken (d : Dispatcher) (r : RequestObj) : P RequestObj :=
  tx d.owner (fun i _ =>
    let r := r.set { r.row with
      actionTokenHash := some (hashActionToken d.cfg i.token), notificationStatus := .sending }
    .ok ({ d.txn with approvalWrites := [r.write], issues := some (i.token, r.id) }, r.flushed))

/-- `_slack_approval_request`. -/
def Dispatcher.slackApprovalRequest (d : Dispatcher) (row : OutboxRow) : P Handled := do
  match ← tx d.owner (fun _ s => .ok (d.txn, loadRequest row s)) with
  | none => pure (.failed true)
  | some (r, st) =>
      if r.row.notificationStatus = .sent ∨ r.row.decision ≠ .pending ∨
          st ≠ .awaitingRemediationApproval then
        pure (.sent [] [])
      else
        let earlier ← if r.row.actionTokenHash.isSome then ask (fun i => taken i.found i.call)
          else pure (.inl false)
        match earlier with
        | .inr permanent => pure (.failed permanent)
        | .inl true => pure (.sent [(r.set (notified r.row)).write] [])
        | .inl false =>
            let r ← d.storeToken r
            match ← ask (fun i => i.call) with
            | .ok _ => pure (.sent [(r.set (notified r.row)).write] [])
            | .retryable => pure (.failed false)
            | .refused => pure (.failed true)
where
  /-- `_mark_notified`. -/
  notified (r : ApprovalRequest) : ApprovalRequest :=
    { r with notificationStatus := .sent, slackMessage := true }

/-! ## The remediation label -/

/-- The checks of `_github_apply_label` before it asks GitHub. -/
def mayLabel (cfg : Settings) (r : RequestObj) (st : CaseState) (s : Store) : Bool :=
  decide (r.row.decision = .approved) &&
    decide (cfg.triageResultHash
        (((s.core.attempts[r.row.attemptId]?).bind (·.structuredOutput)).getD "{}") =
      r.row.triageResultHash) &&
    isCurrentRequest s.approvals s.core.attempts r.id r.row &&
    (decide (st = .awaitingRemediationApproval) || decide (st = .approvalDeliveryFailed) ||
      (decide (st = .remediationApproved) && r.row.labelAppliedAt.isSome)) &&
    cfg.repositoryAllowed

/-- Deliveries `replay_label_webhooks_after_delivery` looks at. -/
def replayable (since : Nat) (e : WebhookEvent) : Bool :=
  e.remediationLabel && decide (e.status = .processed) &&
    e.processedAt.any (fun t => decide (since ≤ t))

/-- The loop of `replay_label_webhooks_after_delivery` over the deliveries of the case. A
confirmation whose transition is lost stays on the object. -/
def replayLoop (cfg : Settings) (st : CaseState) (s : Store) :
    List WebhookEvent → RequestObj → Option Txn × RequestObj
  | [], r => (none, r)
  | e :: es, r =>
      match confirmLabelWebhook cfg st r.id r.row e.issueLabels {} s with
      | (t, true) =>
          (some t, r.set { r.row with
            deliveryStatus := .confirmed, labelConfirmedAt := some s.now })
      | (t, false) =>
          replayLoop cfg st s es (if t.approvalWrites.isEmpty then r else r.set { r.row with
            deliveryStatus := .confirmed, labelConfirmedAt := some s.now })

/-- The newest round, which `confirm_label_webhook` works on: the object of the session when it
is the round that is delivered, else a fresh one. -/
def replayTarget (r : RequestObj) (s : Store) : RequestObj :=
  match openRequest s with
  | some (id, row) => if id = r.id then r else ⟨id, row, row⟩
  | none => r

/-- `replay_label_webhooks_after_delivery`. The result is the object of the round, and what is
left to commit of another one. -/
def Dispatcher.replay (d : Dispatcher) (r : RequestObj) (st : CaseState) :
    P (RequestObj × List (Write ApprovalRequest)) :=
  tx d.owner (fun _ s =>
    let events := s.events.filter (replayable (r.row.labelRequestedAt.getD 0))
    let x := replayTarget r s
    let judges := if events = [] then none
      else some (some st, isCurrentRequest s.approvals s.core.attempts x.id x.row)
    match replayLoop d.cfg st s events x with
    | (some t, x') =>
        .ok ({ t with approvalWrites := [x'.write], judges := judges, replays := some r.id },
          if x'.id = r.id then x'.flushed else r, [])
    | (none, x') =>
        -- nothing is committed here; an object that differs now carries a confirmation that
        -- lost its transition
        .ok ({ d.txn with
            judges := judges
            confirmsFrom := if x'.row.deliveryStatus = x.row.deliveryStatus then none else some st
            replays := some r.id },
          if x'.id = r.id then (x', []) else (r, [x'.write])))

/-- The label is requested, unless an earlier request is found to have landed. -/
def Dispatcher.requestLabel (d : Dispatcher) (r : RequestObj) (labels : List String) :
    P (RequestObj ⊕ Bool) := do
  if r.row.labelRequestedAt.isSome ∧ d.cfg.remediationLabel ∈ labels then pure (.inl r)
  else
    let r ← d.commit r [] (fun _ s => { r.row with labelRequestedAt := some s.now })
    let answer ← addLabel d.cfg
    pure (taken r answer)

/-- The label part of `_github_apply_label`; on the right, whether a failure is permanent. -/
def Dispatcher.applyLabel (d : Dispatcher) (r : RequestObj) (st : CaseState)
    (labels : List String) : P ((RequestObj × List (Write ApprovalRequest)) ⊕ Bool) := do
  if r.row.labelAppliedAt.isSome then pure (.inl (r, []))
  else
    match ← d.requestLabel r labels with
    | .inr permanent => pure (.inr permanent)
    | .inl r =>
        let r ← d.commit r [] (fun _ s => { r.row with
          labelAppliedAt := some s.now, deliveryStatus := .labelApplied })
        let x ← d.replay r st
        pure (.inl x)

/-- `_ensure_comment`: the intent is committed before the comment is posted. -/
def Dispatcher.ensureComment (d : Dispatcher) (r : RequestObj)
    (also : List (Write ApprovalRequest)) :
    P ((RequestObj × List (Write ApprovalRequest)) ⊕ Bool) := do
  if r.row.githubCommentId.isSome then pure (.inl (r, also))
  else
    let x ← if r.row.commentRequestedAt.isSome then pure (r, also)
      else do
        let r ← d.commit r also (fun _ s => { r.row with commentRequestedAt := some s.now })
        pure (r, [])
    let answer ← ask (fun i => i.call)
    pure (taken x answer)

/-- `_github_apply_label`. -/
def Dispatcher.githubApplyLabel (d : Dispatcher) (row : OutboxRow) : P Handled := do
  match ← tx d.owner (fun _ s => .ok (d.txn, (loadRequest row s).filter (fun x =>
      mayLabel d.cfg x.1 x.2 s))) with
  | none => pure (.failed true)
  | some (r, st) =>
      let issue ← getIssue d.cfg
      if issue.retryable then pure (.failed false)
      else if issue.refused ∨ issue.state ≠ "open" then pure (.failed true)
      else
        match ← d.applyLabel r st issue.labels with
        | .inr permanent => pure (.failed permanent)
        | .inl (r, also) =>
            match ← d.ensureComment r also with
            | .inr permanent => pure (.failed permanent)
            | .inl (r, also) =>
                let r := r.set (commented r.row)
                pure (.sent (also ++ [r.write]) (statusUpdate r.id r.row))
where
  /-- The end of `_github_apply_label`. -/
  commented (r : ApprovalRequest) : ApprovalRequest :=
    { r with
      githubCommentId := r.githubCommentId.or (some 0)
      deliveryStatus := if r.deliveryStatus = .failed then .labelApplied else r.deliveryStatus }

/-- `_github_rejection_comment`. -/
def Dispatcher.githubRejectionComment (d : Dispatcher) (row : OutboxRow) : P Handled := do
  match ← tx d.owner (fun _ s => .ok (d.txn, loadRequest row s)) with
  | none => pure (.failed true)
  | some (r, _) =>
      if r.row.decision ≠ .rejected then pure (.failed true)
      else if r.row.githubCommentId.isSome then pure (.sent [] [])
      else if d.cfg.repositoryAllowed = false then pure (.failed true)
      else
        match ← d.ensureComment r [] with
        | .inr permanent => pure (.failed permanent)
        | .inl (r, also) =>
            pure (.sent (also ++ [(r.set { r.row with githubCommentId := some 0 }).write]) [])

/-! ## Dispatch -/

/-- `_handle`; the other kinds only deliver text. -/
def Dispatcher.handle (d : Dispatcher) (row : OutboxRow) : P Handled :=
  match row.kind with
  | .slackApprovalRequest => d.slackApprovalRequest row
  | .githubApplyLabel => d.githubApplyLabel row
  | .githubRejectionComment => d.githubRejectionComment row
  | .notification => do
      match ← ask (fun i => i.call) with
      | .ok _ => pure (.sent [] [])
      | .retryable => pure (.failed false)
      | .refused => pure (.failed true)

/-- `_fail` and `_on_terminal_failure`. -/
def Dispatcher.fail (d : Dispatcher) (id : Nat) (permanent : Bool) : P Unit :=
  tx d.owner (fun _ s =>
    match s.outbox[id]? with
    | none => .ok (d.txn, ())
    | some row =>
        let released := { row with claimedBy := none, leaseExpiresAt := none }
        if permanent ∨ d.cfg.outboxMaxAttempts ≤ row.attemptsCount then
          let t := { d.txn with outboxWrites := [⟨id, row, { released with status := .failed }⟩] }
          match row.approvalRequestId.bind (fun r => s.approvals[r]?.map (fun x => (r, x))) with
          | none => .ok (t, ())
          | some (rid, r) =>
              match row.kind with
              | .slackApprovalRequest =>
                  .ok ({ t with
                    approvalWrites := [⟨rid, r, { r with notificationStatus := .failed }⟩] }, ())
              | .githubApplyLabel =>
                  if r.labelAppliedAt.isSome then .ok (t, ())
                  else
                    .ok ({ t with
                      approvalWrites := [⟨rid, r, { r with deliveryStatus := .failed }⟩]
                      moves := if s.case.state = .awaitingRemediationApproval then
                          [⟨s.case.state, .approvalDeliveryFailed, .worker, none, false⟩]
                        else []
                      newOutbox := statusUpdate rid r }, ())
              | .githubRejectionComment | .notification => .ok (t, ())
        else .ok ({ d.txn with outboxWrites := [⟨id, row, released⟩] }, ()))

/-- `dispatch` of a claimed row. -/
def Dispatcher.dispatch (d : Dispatcher) (id : Nat) : P Unit := do
  match ← tx d.owner (fun _ s => .ok (d.txn, s.outbox[id]?)) with
  | none => pure ()
  | some row =>
      if row.claimedBy ≠ some d.worker then pure ()
      else
        match ← rescue (d.handle row) (fun e => pure (.failed (e = .invalidTransition))) with
        | .sent pending outbox =>
            tx d.owner (fun _ _ => .ok ({ d.txn with
              approvalWrites := pending
              newOutbox := outbox
              outboxWrites := [⟨id, row, { row with
                status := .sent, claimedBy := none, leaseExpiresAt := none }⟩] }, ()))
        | .failed permanent => d.fail id permanent

/-- `claim`: a pending row whose lease is free. The columns `next_attempt_at` and `created_at` are
left out: which of the rows is due, and which of those comes first, is up to the answer. -/
def Dispatcher.claim (d : Dispatcher) : P (Option Nat) :=
  tx d.owner (fun i s =>
    match (List.range s.outbox.length).find? (fun id => decide (i.due ≤ id) &&
        s.outbox[id]?.any (fun row => decide (row.status = .pending) &&
          row.leaseExpiresAt.all (fun t => decide (t < s.now)))) with
    | none => .ok (d.txn, none)
    | some id =>
        .ok ({ d.txn with
          outboxWrites := (s.outbox[id]?.map (fun row => (⟨id, row, { row with
            attemptsCount := row.attemptsCount + 1
            claimedBy := some d.worker
            leaseExpiresAt := some (s.now + d.cfg.outboxLeaseSeconds) }⟩ :
              Write OutboxRow))).toList }, some id))

end Remediator
