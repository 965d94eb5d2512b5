import Remediator.Lib.Machine
import Remediator.Models

set_option autoImplicit false

/-! # Writing to Slack and GitHub

The three handlers of `remediator/worker/outbox.py` whose writes must not be repeated, as small
write-ahead protocols against the outside world: what they intend is committed, then the call is
made, then its result is committed; a later dispatch looks for what an earlier one may have
written. The machine below follows one approval request. One dispatch is in progress at a time,
and its process may die before or after any commit or call. What the other transactions do to the
request in between is left open as far as the sources leave it open; so is which row is dispatched
when, and when its attempts are used up.

A call is one step: the write is accepted or not, and the answer may get lost.
-/

namespace Remediator.Outbox.Delivery

/-- The hashes of `remediator/approvals.py`. -/
structure Config where
  hashActionToken : String → String
  retiredTokenHash : String → String

/-- The rows whose handlers write for a request. -/
inductive Kind
  | slackApprovalRequest
  | githubApplyLabel
  | githubRejectionComment
  deriving DecidableEq

/-- The kind in a `comment_marker`. -/
inductive Marker
  | approval
  | rejection
  deriving DecidableEq

/-- What Slack and GitHub have accepted for the request. -/
structure World where
  /-- the tokens in the messages that carry the request's metadata -/
  messages : List String := []
  /-- the issue carries the label, whoever added it -/
  labelled : Bool := false
  labelAdditions : Nat := 0
  comments : List Marker := []

/-- The request in the session: as it was loaded or last flushed, and as it is now. -/
structure RequestObj where
  loaded : ApprovalRequest
  row : ApprovalRequest

def RequestObj.set (o : RequestObj) (row : ApprovalRequest) : RequestObj := { o with row := row }

/-- The object after a commit. -/
def RequestObj.flushed (o : RequestObj) : RequestObj := { o with loaded := o.row }

/-- What a commit of the object makes of the row. -/
def RequestObj.merge (o : RequestObj) (r : ApprovalRequest) : ApprovalRequest :=
  ApprovalRequest.merge o.loaded o.row r

/-- What the handler does next. -/
inductive Stage
  | claimed
  | findMessage (o : RequestObj)
  | storeToken (o : RequestObj)
  | postMessage (o : RequestObj) (token : String)
  | getIssue (o : RequestObj)
  | storeLabelIntent (o : RequestObj)
  /-- `add_label` reads the issue before it posts -/
  | checkLabel (o : RequestObj)
  | postLabel (o : RequestObj)
  | storeLabel (o : RequestObj)
  | replay (o : RequestObj)
  | findComment (o : RequestObj) (m : Marker)
  | storeCommentIntent (o : RequestObj) (m : Marker)
  | postComment (o : RequestObj) (m : Marker)
  /-- the commit that marks the row `SENT` -/
  | finish (o : RequestObj)
  /-- the handler raised and was rolled back -/
  | failing (permanent : Bool)

structure State where
  request : ApprovalRequest
  world : World := {}
  dispatch : Option (Kind × Stage) := none

/-! ## `_slack_approval_request` -/

/-- `_mark_notified`. -/
def markNotified (o : RequestObj) : RequestObj :=
  o.set { o.row with notificationStatus := .sent, slackMessage := true }

/-- The token and the `SENDING` marker. -/
def withToken (cfg : Config) (o : RequestObj) (token : String) : RequestObj :=
  o.set { o.row with
    actionTokenHash := some (cfg.hashActionToken token), notificationStatus := .sending }

/-- The handler on the request as it is loaded; `awaiting` says whether the case is. -/
def slackApprovalRequest (awaiting : Bool) (r : ApprovalRequest) : Stage :=
  let o : RequestObj := ⟨r, r⟩
  if r.notificationStatus = .sent ∨ r.decision ≠ .pending ∨ awaiting = false then .finish o
  else if r.actionTokenHash.isSome then .findMessage o
  else .storeToken o

/-! ## `_ensure_comment` -/

def ensureComment (o : RequestObj) (m : Marker) : Stage :=
  if o.row.commentRequestedAt.isSome then .findComment o m else .storeCommentIntent o m

/-- The end of the handler that asked for the comment. -/
def commented (o : RequestObj) : Marker → Nat → RequestObj
  | .approval, id => o.set { o.row with
      githubCommentId := some id
      deliveryStatus :=
        if o.row.deliveryStatus = .failed then .labelApplied else o.row.deliveryStatus }
  | .rejection, id => o.set { o.row with githubCommentId := some id }

/-! ## `_github_apply_label` -/

/-- The handler on the request as it is loaded; `allowed` is the outcome of the checks on the
triage result, the attempt, the case and the allowlist. -/
def githubApplyLabel (allowed : Bool) (r : ApprovalRequest) : Stage :=
  if r.decision ≠ .approved ∨ allowed = false then .failing true else .getIssue ⟨r, r⟩

/-- The comment part. -/
def auditComment (o : RequestObj) : Stage :=
  if o.row.githubCommentId = none then ensureComment o .approval
  else .finish (o.set { o.row with
    deliveryStatus :=
      if o.row.deliveryStatus = .failed then .labelApplied else o.row.deliveryStatus })

/-- The handler on an issue that is open. -/
def onIssue (labelled : Bool) (o : RequestObj) : Stage :=
  if o.row.labelAppliedAt = none then
    if o.row.labelRequestedAt.isSome ∧ labelled = true then .storeLabel o
    else .storeLabelIntent o
  else auditComment o

/-! ## `_github_rejection_comment` -/

def githubRejectionComment (allowed : Bool) (r : ApprovalRequest) : Stage :=
  let o : RequestObj := ⟨r, r⟩
  if r.decision ≠ .rejected then .failing true
  else if r.githubCommentId.isSome then .finish o
  else if allowed = false then .failing true
  else ensureComment o .rejection

/-! ## The steps of a dispatch -/

/-- The first transaction: the request is loaded. -/
def load (kind : Kind) (allowed : Bool) (r : ApprovalRequest) : Stage :=
  match kind with
  | .slackApprovalRequest => slackApprovalRequest allowed r
  | .githubApplyLabel => githubApplyLabel allowed r
  | .githubRejectionComment => githubRejectionComment allowed r

/-- An answer to a reading call. -/
inductive Answer
  | ok
  /-- an issue that is closed or gone, or an error that is not retryable -/
  | refused
  | retryable

/-- What the handler does after a reading call. -/
def afterRead (w : World) : Stage → Answer → Option Stage
  | .findMessage o, .ok =>
      some (if w.messages = [] then .storeToken o else .finish (markNotified o))
  | .getIssue o, .ok => some (onIssue w.labelled o)
  | .checkLabel o, .ok => some (if w.labelled then .storeLabel o else .postLabel o)
  | .findComment o m, .ok =>
      some (if m ∈ w.comments then .finish (commented o m (w.comments.idxOf m))
        else .postComment o m)
  | .findMessage _, a | .getIssue _, a | .checkLabel _, a | .findComment _ _, a =>
      match a with
      | .refused => some (.failing true)
      | .retryable => some (.failing false)
      | .ok => none
  | _, _ => none

/-- What a commit in the middle of a handler writes: the object, and what comes next. `now` is
the clock, `token` the token that is generated, and `confirms` whether a delivery is replayed. -/
def commitStage (cfg : Config) (now : Nat) (token : String) (confirms : Bool) :
    Stage → Option (RequestObj × Stage)
  | .storeToken o =>
      let o := withToken cfg o token
      some (o, .postMessage o.flushed token)
  | .storeLabelIntent o =>
      let o := o.set { o.row with labelRequestedAt := some now }
      some (o, .checkLabel o.flushed)
  | .storeLabel o =>
      let o := o.set { o.row with labelAppliedAt := some now, deliveryStatus := .labelApplied }
      some (o, .replay o.flushed)
  | .replay o =>
      let o := if confirms then
          o.set { o.row with deliveryStatus := .confirmed, labelConfirmedAt := some now }
        else o
      some (o, auditComment o.flushed)
  | .storeCommentIntent o m =>
      let o := o.set { o.row with commentRequestedAt := some now }
      some (o, .postComment o.flushed m)
  | _ => none

/-- What becomes of a writing call. An error answer without a lost response is a refusal. -/
inductive Outcome
  | accepted
  | lost
  | refused (permanent : Bool)
  deriving DecidableEq

def Outcome.written : Outcome → Bool
  | accepted | lost => true
  | refused _ => false

/-- The write of the stage, if the call is accepted. -/
def World.post (w : World) : Stage → World
  | .postMessage _ token => { w with messages := w.messages ++ [token] }
  | .postLabel _ => { w with labelled := true, labelAdditions := w.labelAdditions + 1 }
  | .postComment _ m => { w with comments := w.comments ++ [m] }
  | _ => w

/-- What the handler does after a writing call. -/
def afterPost (w : World) : Stage → Outcome → Option Stage
  | .postMessage o _, .accepted => some (.finish (markNotified o))
  | .postLabel o, .accepted => some (.storeLabel o)
  | .postComment o m, .accepted => some (.finish (commented o m w.comments.length))
  | .postMessage _ _, a | .postLabel _, a | .postComment _ _, a =>
      match a with
      | .lost => some (.failing false)
      | .refused permanent => some (.failing permanent)
      | .accepted => none
  | _, _ => none

/-- What `_on_terminal_failure` writes to the request. -/
def onTerminalFailure (kind : Kind) (r : ApprovalRequest) : ApprovalRequest :=
  match kind with
  | .slackApprovalRequest => { r with notificationStatus := .failed }
  | .githubApplyLabel =>
      if r.labelAppliedAt.isSome then r else { r with deliveryStatus := .failed }
  | .githubRejectionComment => r

/-- What `retry_outbox` writes to the request. -/
def requeue (kind : Kind) (r : ApprovalRequest) : ApprovalRequest :=
  match kind with
  | .slackApprovalRequest =>
      if r.notificationStatus = .failed then { r with notificationStatus := .pending } else r
  | .githubApplyLabel =>
      if r.deliveryStatus = .failed then { r with deliveryStatus := .pending } else r
  | .githubRejectionComment => r

/-- What a decision writes to the columns that the handlers read: the token is retired, or, when
the request is superseded, forgotten. -/
def decide (cfg : Config) (decision : ApprovalDecision) (r : ApprovalRequest) : ApprovalRequest :=
  { r with
    decision := decision
    actionTokenHash := if decision = .superseded then none
      else r.actionTokenHash.map cfg.retiredTokenHash
    deliveryStatus := if decision = .approved then .pending else r.deliveryStatus }

/-! ## Steps -/

inductive Act
  /-- a row of the request is claimed -/
  | begin (kind : Kind)
  | load (allowed : Bool)
  | read (answer : Answer)
  | commit (now : Nat) (token : String) (confirms : Bool)
  | post (outcome : Outcome)
  /-- the commit that ends the dispatch -/
  | finish
  /-- the transaction of `_fail` -/
  | settle (exhausted : Bool)
  | crash
  /-- `retry_outbox` -/
  | requeue (kind : Kind)
  /-- a Slack click, an expiry, or a newer round -/
  | decide (decision : ApprovalDecision)
  /-- the label webhook -/
  | confirm (now : Nat)
  /-- somebody else adds the label -/
  | labelByOthers

def commitStep (cfg : Config) (now : Nat) (token : String) (confirms : Bool) (s : State) :
    Option State := do
  let (kind, stage) ← s.dispatch
  let (o, next) ← commitStage cfg now token confirms stage
  some { s with request := o.merge s.request, dispatch := some (kind, next) }

def postStep (outcome : Outcome) (s : State) : Option State := do
  let (kind, stage) ← s.dispatch
  let next ← afterPost s.world stage outcome
  some { s with
    world := if outcome.written then s.world.post stage else s.world
    dispatch := some (kind, next) }

def step (cfg : Config) (s : State) : Act → Option State
  | .begin kind => if s.dispatch.isNone then some { s with dispatch := some (kind, .claimed) } else none
  | .load allowed =>
      match s.dispatch with
      | some (kind, .claimed) => some { s with dispatch := some (kind, load kind allowed s.request) }
      | _ => none
  | .read answer => do
      let (kind, stage) ← s.dispatch
      let next ← afterRead s.world stage answer
      some { s with dispatch := some (kind, next) }
  | .commit now token confirms => commitStep cfg now token confirms s
  | .post outcome => postStep outcome s
  | .finish =>
      match s.dispatch with
      | some (_, .finish o) => some { s with request := o.merge s.request, dispatch := none }
      | _ => none
  | .settle exhausted =>
      match s.dispatch with
      | some (kind, .failing permanent) =>
          some { s with
            request := if permanent || exhausted then onTerminalFailure kind s.request else s.request
            dispatch := none }
      | _ => none
  | .crash => some { s with dispatch := none }
  | .requeue kind => some { s with request := requeue kind s.request }
  | .decide decision =>
      if s.request.decision = .pending ∧ decision ≠ .pending then
        some { s with request := decide cfg decision s.request }
      else none
  | .confirm now =>
      some { s with request := { s.request with
        deliveryStatus := .confirmed, labelConfirmedAt := some now } }
  | .labelByOthers => some { s with world := { s.world with labelled := true } }

/-- A round as `create_approval_request` inserts it, with the issue as it is found. -/
def init (attemptId : Nat) (resultHash : String) (createdAt tokenExpiresAt : Nat)
    (labelled : Bool) : State where
  request := {
    attemptId := attemptId
    triageResultHash := resultHash
    createdAt := createdAt
    tokenExpiresAt := tokenExpiresAt }
  world := { labelled := labelled }

end Remediator.Outbox.Delivery
