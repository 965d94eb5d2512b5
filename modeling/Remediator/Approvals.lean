import Remediator.Worker.Runner

set_option autoImplicit false

/-! # Approval rounds

`remediator/approvals.py`: a validated triage result opens an approval round; a Slack click
decides it; a signed `labeled` webhook confirms the delivery of an approved one.
-/

namespace Remediator

open Interleave

/-! ## The current round -/

/-- `open_request_for_case`: the newest round. -/
def openRequest (s : Store) : Option (Nat × ApprovalRequest) :=
  s.approvals.getLast?.map (fun r => (s.approvals.length - 1, r))

/-- `latest_triage_attempt_id`: cancelled attempts never produced a result. -/
def latestTriageAttemptId (as : List Attempt) : Option Nat :=
  (newestAttempt (fun a => decide (a.kind = .triage) && decide (a.status ≠ .cancelled)) as).map
    (·.id)

/-- `is_current_request`. -/
def isCurrentRequest (approvals : List ApprovalRequest) (as : List Attempt) (id : Nat)
    (r : ApprovalRequest) : Bool :=
  decide (id + 1 = approvals.length) && decide (latestTriageAttemptId as = some r.attemptId)

/-- `_enqueue_status_update`. -/
def statusUpdate (id : Nat) (r : ApprovalRequest) : List OutboxRow :=
  if r.slackMessage then [{ kind := .notification, approvalRequestId := some id }] else []

/-- `hash_action_token`. -/
def hashActionToken (cfg : Settings) (token : String) : String := cfg.sha256 token

/-- `retired_token_hash`. -/
def retiredTokenHash (cfg : Settings) (hash : String) : String := cfg.sha256 ("retired:" ++ hash)

/-- `retire_token`. -/
def retireToken (cfg : Settings) (hash : Option String) : Option String :=
  hash.map (retiredTokenHash cfg)

/-- The rounds that are still undecided, with their ids. -/
def pendingRounds (approvals : List ApprovalRequest) : List (Nat × ApprovalRequest) :=
  (List.range approvals.length).filterMap (fun i =>
    match approvals[i]? with
    | some r => if r.decision = .pending then some (i, r) else none
    | none => none)

/-- `create_approval_request`, inside the transaction `t`; idempotent per triage attempt. -/
def createApprovalRequest (cfg : Settings) (attempt : Nat) (raw : Doc) (t : Txn) (s : Store) :
    Txn :=
  if s.approvals.any (fun r => decide (r.attemptId = attempt)) then t
  else
    let stale := pendingRounds s.approvals
    { t with
      approvalWrites := t.approvalWrites ++ stale.map (fun x =>
        ⟨x.1, x.2, { x.2 with decision := .superseded, actionTokenHash := none }⟩)
      newApprovals := t.newApprovals ++ [{
        attemptId := attempt
        triageResultHash := cfg.triageResultHash raw
        tokenExpiresAt := s.now + cfg.tokenTtlSeconds
        createdAt := s.now }]
      newOutbox := t.newOutbox ++ (stale.map (fun x => statusUpdate x.1 x.2)).flatten ++
        [{ kind := .slackApprovalRequest, approvalRequestId := some s.approvals.length }] }

/-! ## Slack -/

/-- `ACTION_APPROVE`. -/
def actionApprove : String := "approve_remediation"

/-- `ACTION_REJECT`. -/
def actionReject : String := "reject_remediation"

/-- The round whose stored hash is that of the token, or its retired form. -/
def requestByToken (cfg : Settings) (token : String) (approvals : List ApprovalRequest) :
    Option (Nat × ApprovalRequest) :=
  let hash := hashActionToken cfg token
  ((List.range approvals.length).filterMap (fun i => approvals[i]?.map (fun r => (i, r)))).find?
    (fun x => decide (x.2.actionTokenHash = some hash) ||
      decide (x.2.actionTokenHash = some (retiredTokenHash cfg hash)))

/-- `_dedupe_key`. -/
def dedupeKey (cfg : Settings) (action : SlackActionInput) : String :=
  String.ofList ((hashActionToken cfg action.token).toList.take 24) ++ ":" ++ action.actionId
    ++ ":" ++ action.actionTs ++ ":" ++ action.slackUserId

/-- `_enqueue_ephemeral_response`: only these outcomes have a message for the user. -/
def ephemeralResponse (action : SlackActionInput) (id : Nat) (outcome : ActionOutcome) :
    List OutboxRow :=
  match outcome with
  | .unauthorized | .expiredToken | .staleToken | .alreadyDecided | .incompatibleState =>
      match action.responseUrl with
      | some url => if url = "" then [] else [{ kind := .notification, approvalRequestId := some id }]
      | none => []
  | _ => []

/-- The transaction of a click that decides nothing. -/
def refusedClick (cfg : Settings) (action : SlackActionInput) (id : Nat)
    (outcome : ActionOutcome) : Txn :=
  { slackActions := [⟨id, dedupeKey cfg action, action.slackUserId, action.actionId,
      action.actionTs, outcome⟩]
    newOutbox := ephemeralResponse action id outcome }

/-- The round after an approval. -/
def approvedRound (cfg : Settings) (action : SlackActionInput) (r : ApprovalRequest) :
    ApprovalRequest :=
  { r with
    decision := .approved
    decidedBySlackUserId := some action.slackUserId
    deliveryStatus := .pending
    actionTokenHash := retireToken cfg r.actionTokenHash }

/-- The round after a rejection. -/
def rejectedRound (cfg : Settings) (action : SlackActionInput) (r : ApprovalRequest) :
    ApprovalRequest :=
  { r with
    decision := .rejected
    decidedBySlackUserId := some action.slackUserId
    deliveryStatus := .notRequested
    actionTokenHash := retireToken cfg r.actionTokenHash }

/-- The round after its expiry. -/
def expiredRound (cfg : Settings) (r : ApprovalRequest) : ApprovalRequest :=
  { r with decision := .expired, actionTokenHash := retireToken cfg r.actionTokenHash }

/-- The part of `process_slack_action` after the user is known to be an approver. -/
def decideRound (cfg : Settings) (action : SlackActionInput) (id : Nat) (r : ApprovalRequest)
    (s : Store) : Txn × ActionOutcome :=
  if r.decision = .pending ∧ r.tokenExpiresAt ≤ s.now then
    let t := refusedClick cfg action id .expiredToken
    ({ t with
      approvalWrites := [⟨id, r, expiredRound cfg r⟩]
      newOutbox := statusUpdate id r ++ t.newOutbox }, .expiredToken)
  else if r.decision = .expired then (refusedClick cfg action id .expiredToken, .expiredToken)
  else if r.decision ≠ .pending then (refusedClick cfg action id .alreadyDecided, .alreadyDecided)
  else if isCurrentRequest s.approvals s.core.attempts id r = false then
    (refusedClick cfg action id .staleToken, .staleToken)
  else if s.case.state ≠ .awaitingRemediationApproval then
    (refusedClick cfg action id .incompatibleState, .incompatibleState)
  else if action.actionId = actionApprove then
    ({ refusedClick cfg action id .approved with
      approvalWrites := [⟨id, r, approvedRound cfg action r⟩]
      newOutbox := { kind := .githubApplyLabel, approvalRequestId := some id } ::
        statusUpdate id r }, .approved)
  else
    ({ refusedClick cfg action id .rejected with
      approvalWrites := [⟨id, r, rejectedRound cfg action r⟩]
      moves := [⟨s.case.state, .remediationRejected, .slack, none, false⟩]
      newOutbox := { kind := .githubRejectionComment, approvalRequestId := some id } ::
        statusUpdate id r }, .rejected)

/-- `process_slack_action` under the locks of the round and the case: what it writes, and its
outcome. -/
def processSlackAction (cfg : Settings) (action : SlackActionInput) (s : Store) :
    Txn × ActionOutcome :=
  let idle : Txn := {}
  if action.actionId ≠ actionApprove ∧ action.actionId ≠ actionReject then (idle, .unknownAction)
  else
    match requestByToken cfg action.token s.approvals with
    | none => (idle, .unknownToken)
    | some (id, r) =>
        if s.slackActions.any (fun x => decide (x.dedupeKey = dedupeKey cfg action)) then
          (idle, .duplicate)
        else if action.slackUserId ∉ cfg.approverUserIds then
          (refusedClick cfg action id .unauthorized, .unauthorized)
        else decideRound cfg action id r s

/-- The endpoint of the Slack buttons: `process_slack_action` and the commit. -/
def slackClick (cfg : Settings) (o : Owner) (action : SlackActionInput) : P Unit :=
  tx o (fun _ s => .ok ((processSlackAction cfg action s).1, ()))

/-- `expire_request` from the operator's endpoint, under the lock of the round. -/
def expireApproval (cfg : Settings) (o : Owner) (id : Nat) : P Unit :=
  tx o (fun _ s =>
    match s.approvals[id]? with
    | some r =>
        if r.decision = .pending then
          .ok ({ approvalWrites := [⟨id, r, { expiredRound cfg r with tokenExpiresAt := s.now }⟩]
                 newOutbox := statusUpdate id r }, ())
        else .ok ({}, ())
    | none => .ok ({}, ()))

/-! ## The label webhook -/

/-- `confirm_label_webhook`, inside the transaction `t`: `st` is the state of the caller's copy
of the case and `r` the newest round as the caller's session sees it. A lost transition is
swallowed; the confirmation stays in the transaction. -/
def confirmLabelWebhook (cfg : Settings) (st : CaseState) (id : Nat) (r : ApprovalRequest)
    (labels : Option (List String)) (t : Txn) (s : Store) : Txn × Bool :=
  if r.decision ≠ .approved then (t, false)
  else if isCurrentRequest s.approvals s.core.attempts id r = false then (t, false)
  else if st ≠ .awaitingRemediationApproval ∧ st ≠ .approvalDeliveryFailed then (t, false)
  else if r.labelAppliedAt.isNone ∨ r.deliveryStatus ≠ .labelApplied then (t, false)
  else if labels.any (fun ls => decide (cfg.remediationLabel ∉ ls)) then (t, false)
  else
    let move : Move := ⟨st, .remediationApproved, .github, none, false⟩
    let won := move.ok s.case
    ({ t with
      approvalWrites := t.approvalWrites ++ [⟨id, r, { r with
        deliveryStatus := .confirmed, labelConfirmedAt := some s.now }⟩]
      confirmsFrom := some st
      moves := t.moves ++ (if won then [move] else [])
      newOutbox := t.newOutbox ++ (if won then statusUpdate id r else []) }, won)

end Remediator
