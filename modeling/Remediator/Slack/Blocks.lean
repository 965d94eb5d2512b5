import Remediator.Devin.Status
import Remediator.Lib.Binary64
import Remediator.Lib.Json
import Remediator.Lib.Markup

set_option autoImplicit false

/-! # The approval message

`slack/blocks.py`: the text and the blocks of a remediation approval. A mrkdwn text is kept as the
template it is made of, so that its own links can be told from what is shown in it.
-/

namespace Remediator.Slack

open Text Markup

/-! ## Limits -/

def headerMax : ℕ := 150
def sectionMax : ℕ := 3000
def buttonValueMax : ℕ := 2000
def contextMax : ℕ := 3000
def maxBlocks : ℕ := 50
def maxListItems : ℕ := 8
def itemMax : ℕ := 300

/-! ## Data -/

/-- `ApprovalMessageStatus`. -/
inductive MessageStatus
  | awaiting
  | approvedPendingGithub
  | labelApplied
  | rejected
  | deliveryFailed
  | expired
  | superseded
  deriving DecidableEq

def MessageStatus.value : MessageStatus → String
  | .awaiting => "awaiting_approval"
  | .approvedPendingGithub => "approved_github_dispatch_pending"
  | .labelApplied => "github_label_applied"
  | .rejected => "rejected"
  | .deliveryFailed => "delivery_failed"
  | .expired => "expired"
  | .superseded => "superseded"

/-- `STATUS_LINES`. -/
def MessageStatus.line : MessageStatus → Text
  | .awaiting => ":hourglass_flowing_sand: *Awaiting approval*".toList
  | .approvedPendingGithub =>
      ":white_check_mark: *Approved* — applying `devin:remediate` on GitHub…".toList
  | .labelApplied =>
      ":rocket: *Approved* — `devin:remediate` applied; GitHub is the dispatch authority".toList
  | .rejected => ":no_entry: *Rejected* — no remediation will be started".toList
  | .deliveryFailed =>
      ":warning: *Approved, but GitHub delivery failed* — an operator must retry; ".toList ++
        "no re-approval is needed".toList
  | .expired => ":clock3: *Expired* — the approval window closed".toList
  | .superseded =>
      ":arrows_counterclockwise: *Superseded* — the issue was re-triaged; ".toList ++
        "use the newer message".toList

/-- `RemediationProgress`. -/
structure RemediationProgress where
  caseState : Text
  headline : Text
  devinSessionUrl : Option Text
  prUrl : Option Text
  prNumber : Option ℤ
  headSha : Option Text
  probeBase : Option Text
  probeHead : Option Text
  ciSummary : Option Text
  failureReason : Option Text
  readyForReview : Bool
  probeStatusNote : Option Text
  probeNoteLegacy : Bool

/-- `ApprovalMessageInput`. -/
structure ApprovalMessageInput where
  repository : Text
  issueNumber : ℤ
  issueTitle : Text
  issueUrl : Text
  devinSessionUrl : Option Text
  dashboardUrl : Text
  triage : List (String × Json.Value)
  actionToken : Option Text
  status : MessageStatus
  decisionNote : Option Text
  remediation : Option RemediationProgress

/-- A mrkdwn text: the template, and the limit at which it is cut, if it is. -/
structure Template where
  segments : List Segment
  limit : Option ℕ

def Template.text (template : Template) : Text :=
  match template.limit with
  | some limit => truncate (render template.segments) limit
  | none => render template.segments

/-- An element of an `actions` block. -/
inductive Element
  | button (actionId label : String) (style : Option String) (value url : Option Text)
      (confirm : Option Template)
  | select (actionId placeholder : String) (options : List (String × String))

/-- A block. -/
inductive Block
  | header (text : Text)
  | section (text : Template) (blockId : Option String)
  | fields (texts : List Template)
  | context (texts : List Template)
  | actions (blockId : String) (elements : List Element)

/-! ## Escaping -/

/-- `escape_mrkdwn`. -/
def escapeMrkdwn (t : Text) : Text :=
  t.flatMap fun c =>
    if c = '&' then "&amp;".toList
    else if c = '<' then "&lt;".toList
    else if c = '>' then "&gt;".toList
    else [c]

/-- `_safe` of a text. -/
def safe (t : Text) (limit : ℕ) : Text := truncate (escapeMrkdwn t) limit

/-- A value that is there and not empty. -/
def nonEmpty (value : Option Text) : Option Text := value.filter fun t => !t.isEmpty

/-- `_link`. -/
def link (url : Option Text) (label : Text) : Segment :=
  match url with
  | none => .plain (safe label itemMax)
  | some url =>
      if startsWith "https://".toList url ∨ startsWith "http://".toList url then
        .link (escapeMrkdwn url) (safe label itemMax)
      else .plain (safe label itemMax)

/-- A literal of a template. -/
def lit (text : String) : Segment := .plain text.toList

/-- `_section`. -/
def slackSection (segments : List Segment) (blockId : Option String) : Block :=
  .section ⟨segments, some sectionMax⟩ blockId

/-! ## The message -/

/-- `_confidence` of a number: `f"{value:.0%}"`. -/
def percent (q : ℚ) : Text :=
  let scaled := Binary64.round (q * 100)
  (if q < 0 then ['-'] else []) ++
    ((if 2 ^ 1024 ≤ |scaled| then "inf".toList
      else (toString (Binary64.roundEven |scaled|).natAbs).toList) ++ ['%'])

/-- `_confidence`. -/
def confidence : Option Json.Value → Except Json.Exc Text
  | some (.bool b) => .ok (percent (if b then 1 else 0))
  | some (.number (.int n)) =>
      match Binary64.ofInt n with
      | some q => .ok (percent q)
      | none => .error .overflowError
  | some (.number (.finite q)) => .ok (percent q)
  | some (.number .negativeZero) => .ok "-0%".toList
  | some (.number (.infinite negative)) =>
      .ok ((if negative then ['-'] else []) ++ "inf%".toList)
  | some (.number .nan) => .ok "nan%".toList
  | _ => .ok ['?']

section Message

-- Python's `repr` of what is neither a text nor an atom
variable (repr : Json.Value → String)

/-- `str(value)`. -/
def str (value : Json.Value) : Text := (value.text repr).toList

/-- `_safe`. -/
def safeValue (value : Json.Value) (limit : ℕ) : Text := safe (str repr value) limit

/-- `triage.get(key, default)`. -/
def getOr (items : List (String × Json.Value)) (key default_ : String) : Json.Value :=
  (List.lookup key items).getD (.str default_)

/-- `triage[key] if isinstance(triage.get(key), dict) else {}`. -/
def getDict (items : List (String × Json.Value)) (key : String) : List (String × Json.Value) :=
  match List.lookup key items with
  | some (.dict inner) => inner
  | _ => []

/-- `recommendation_of`. -/
def recommendationOf (triage : List (String × Json.Value)) : Text :=
  match Json.orNone (List.lookup "outcome" triage) with
  | some value => str repr value
  | none => "unknown".toList

/-- `recommends_remediation`. -/
def recommendsRemediation (triage : List (String × Json.Value)) : Bool :=
  recommendationOf repr triage == "remediation_candidate".toList

def nonCandidateWarning : Text :=
  "Devin did not recommend autonomous remediation. Approval explicitly accepts this risk ".toList ++
    "and authorizes the bounded remediation attempt.".toList

/-- `_bullets`. -/
def bullets (items : List Json.Value) (empty : String) : Text :=
  let cleaned := ((items.take maxListItems).filter fun item =>
    !(stripBy Devin.isSpace (str repr item)).isEmpty).map fun item => safeValue repr item itemMax
  if cleaned.isEmpty then '_' :: (empty.toList ++ ['_'])
  else
    let extra := items.length - cleaned.length
    let lines := cleaned.map fun item => "• ".toList ++ item
    let lines := if 0 < extra then
        lines ++ ["_… ".toList ++ ((toString extra).toList ++ " more_".toList)]
      else lines
    ['\n'].intercalate lines

/-- `fallback_text`, before it is cut. -/
def fallbackPieces (message : ApprovalMessageInput) : List Piece :=
  [.lit "Remediation approval for ".toList, .val message.repository, .lit ['#'],
    .val (toString message.issueNumber).toList, .lit ": ".toList, .val message.issueTitle,
    .lit " [".toList,
    match message.remediation with
    | some progress => .val progress.caseState
    | none => .lit message.status.value.toList,
    .lit "] (Devin recommendation: ".toList, .val (recommendationOf repr message.triage),
    .lit (')' :: if recommendsRemediation repr message.triage then []
      else ' ' :: nonCandidateWarning)]

/-- `fallback_text`. -/
def fallbackText (message : ApprovalMessageInput) : Text :=
  truncate (join (fallbackPieces repr message)) sectionMax

end Message

/-! ## The progress of a remediation -/

/-- The line about the pull request. -/
def prLine (progress : RemediationProgress) : List (List Segment) :=
  match nonEmpty progress.prUrl with
  | none => []
  | some url =>
      let label := match progress.prNumber with
        | some number =>
            if number = 0 then "pull request".toList
            else "PR #".toList ++ (toString number).toList
        | none => "pull request".toList
      let head := match nonEmpty progress.headSha with
        | some sha => " @ `".toList ++ (safe (sha.take 12) 12 ++ ['`'])
        | none => []
      [[lit "PR: ", link (some url) label, .plain head]]

/-- The lines about the probe. -/
def probeLines (progress : RemediationProgress) : List (List Segment) :=
  match nonEmpty progress.probeStatusNote with
  | some note =>
      [[lit (if progress.probeNoteLegacy then ":warning:"
          else "Acceptance probe: Not configured —"), .plain (' ' :: safe note 600)]]
  | none =>
      if (nonEmpty progress.probeBase).isSome ∨ (nonEmpty progress.probeHead).isSome then
        [[lit "Probe base: ",
          .plain (safe ((nonEmpty progress.probeBase).getD "not run".toList) itemMax),
          lit " · head: ",
          .plain (safe ((nonEmpty progress.probeHead).getD "not run".toList) itemMax)]]
      else []

/-- A line that shows a value, if there is one. -/
def valueLine (start : String) (limit : ℕ) (value : Option Text) : List (List Segment) :=
  match nonEmpty value with
  | some t => [[lit start, .plain (safe t limit)]]
  | none => []

/-- The lines of `_remediation_blocks`. -/
def remediationLines (progress : RemediationProgress) : List (List Segment) :=
  [[lit "*Remediation:* ", .plain (safe progress.headline itemMax)]] ++
    ((match nonEmpty progress.devinSessionUrl with
      | some url => [[lit "Devin session: ", link (some url) "open session".toList]]
      | none => []) ++
    (prLine progress ++ (probeLines progress ++
    (valueLine "CI: " itemMax progress.ciSummary ++
    (valueLine "Reason: " 600 progress.failureReason ++
      match nonEmpty progress.prUrl with
      | some url =>
          if progress.readyForReview then
            [[lit ":eyes: *Ready for human review* — ", link (some url) "review the PR".toList,
              lit " (nothing is merged or closed automatically)"]]
          else []
      | none => [])))))

/-- `"\n".join(lines)`. -/
def joinLines (lines : List (List Segment)) : List Segment :=
  [lit "\n"].intercalate lines

/-- `_remediation_blocks`. -/
def remediationBlocks (progress : RemediationProgress) : List Block :=
  [slackSection (joinLines (remediationLines progress)) (some "remediation")]

/-! ## The blocks -/

/-- `REJECTION_REASONS`. -/
def rejectionReasons : List (String × String) :=
  [("not_a_bug", "Not a bug / works as intended"),
    ("needs_human", "Needs human design or product decision"),
    ("too_risky", "Change is too risky to automate"),
    ("duplicate", "Duplicate of another issue"),
    ("insufficient_evidence", "Triage evidence is insufficient")]

section Blocks

variable (repr : Json.Value → String)

/-- The token of the buttons, while the approval is awaited. -/
def awaitedToken (message : ApprovalMessageInput) : Option Text :=
  if message.status = .awaiting then nonEmpty message.actionToken else none

/-- The buttons of `build_approval_blocks`. -/
def buttons (message : ApprovalMessageInput) : List Element :=
  (match awaitedToken message with
    | some token =>
        [.button "approve_remediation" "Approve remediation" (some "primary")
            (some (truncate token buttonValueMax)) none
            (some ⟨[lit "This applies `devin:remediate` on GitHub. Nothing starts a ",
              lit "Devin session from Slack.",
              .plain (if recommendsRemediation repr message.triage then []
                else "\n\n".toList ++ nonCandidateWarning)], none⟩),
          .button "reject_remediation" "Reject" (some "danger")
            (some (truncate token buttonValueMax)) none none]
    | none => []) ++
  ((if startsWith "https://".toList message.issueUrl then
      [.button "view_issue" "View issue" none none
        (some (truncate message.issueUrl buttonValueMax)) none]
    else []) ++
  (if startsWith "https://".toList message.dashboardUrl ∨
      startsWith "http://".toList message.dashboardUrl then
      [.button "view_dashboard" "View evidence/dashboard" none none
        (some (truncate message.dashboardUrl buttonValueMax)) none]
    else []))

/-- The last blocks: the reasons for a rejection, and the buttons. -/
def actionBlocks (message : ApprovalMessageInput) : List Block :=
  (match awaitedToken message with
    | some _ => [.actions "rejection_reason"
        [.select "rejection_reason" "Rejection reason (optional)" rejectionReasons]]
    | none => []) ++
  (if (buttons repr message).isEmpty then []
    else [.actions "remediation_decision" (buttons repr message)])

/-- The section with the status. -/
def statusSegments (message : ApprovalMessageInput) : List Segment :=
  .plain message.status.line ::
    match nonEmpty message.decisionNote with
    | some note => [lit "\n", .plain (safe note itemMax)]
    | none => []

/-- The section with the issue. -/
def issueSegments (message : ApprovalMessageInput) : List Segment :=
  [lit "*Issue:* ",
    link (some message.issueUrl)
      ('#' :: ((toString message.issueNumber).toList ++ ' ' :: message.issueTitle)),
    lit "\n*Repository:* `", .plain (safe message.repository itemMax), lit "`"]

/-- The section with the recommendation. -/
def recommendationSegments (triage : List (String × Json.Value)) : List Segment :=
  [lit "*Devin recommendation:* `", .plain (safe (recommendationOf repr triage) 60), lit "`",
    .plain (if recommendsRemediation repr triage then []
      else "\n:warning: ".toList ++ nonCandidateWarning)]

/-- A field: its name and a value. -/
def field (name : String) (value : Text) : Template :=
  ⟨[.plain ('*' :: (name.toList ++ "*\n".toList)), .plain value], none⟩

/-- The context with the two links. -/
def contextSegments (message : ApprovalMessageInput) : List Segment :=
  [lit "Devin triage session: ", link message.devinSessionUrl "open session".toList,
    lit " · Evidence/dashboard: ",
    link (some message.dashboardUrl) "open dashboard".toList]

/-- What `build_approval_blocks` reads of the triage, where reading may raise. -/
structure TriageParts where
  confidence : Text
  evidence : List Json.Value
  acceptanceCriteria : List Json.Value
  blockingQuestions : List Json.Value
  affectedFiles : List Json.Value
  focusedTests : List Json.Value

def readTriage (triage : List (String × Json.Value)) : Except Json.Exc TriageParts := do
  let confidence ← confidence (List.lookup "confidence" triage)
  let evidence ← Json.iterateOrNil (List.lookup "evidence" triage)
  let acceptanceCriteria ← Json.iterateOrNil (List.lookup "acceptance_criteria" triage)
  let blockingQuestions ← Json.iterateOrNil (List.lookup "blocking_questions" triage)
  let affectedFiles ← Json.iterateOrNil (List.lookup "affected_files" triage)
  let focusedTests ← Json.iterateOrNil (List.lookup "focused_tests" triage)
  .ok {
    confidence := confidence
    evidence := evidence
    acceptanceCriteria := acceptanceCriteria
    blockingQuestions := blockingQuestions
    affectedFiles := affectedFiles
    focusedTests := focusedTests }

/-- The blocks up to the context. -/
def triageBlocks (message : ApprovalMessageInput) (parts : TriageParts) : List Block :=
  let triage := message.triage
  let probe := getDict triage "probe"
  let risk := getDict triage "risk"
  [.header (truncate ("Remediation approval: ".toList ++
      (message.repository ++ '#' :: (toString message.issueNumber).toList)) headerMax),
    slackSection (statusSegments message) (some "status"),
    slackSection (issueSegments message) none,
    slackSection (recommendationSegments repr triage) (some "recommendation"),
    .fields [field "Severity" (safeValue repr (getOr triage "severity" "?") 50),
      field "Priority" (safeValue repr (getOr triage "priority" "?") 50),
      field "Confidence" parts.confidence,
      field "Risk" (safeValue repr (getOr risk "level" "?") 50)],
    slackSection [lit "*Reproduction summary*\n",
      .plain (safeValue repr (getOr triage "summary" "") 1500),
      lit "\n\n*Evidence*\n", .plain (bullets repr parts.evidence "none recorded")] none,
    slackSection [lit "*Acceptance criteria*\n",
      .plain (bullets repr parts.acceptanceCriteria "none stated"),
      lit "\n\n*Blocking questions*\n", .plain (bullets repr parts.blockingQuestions "none")]
      none,
    slackSection [lit "*Affected files*\n",
      .plain (bullets repr parts.affectedFiles "none listed"),
      lit "\n\n*Estimated scope*\n", .plain (safeValue repr (getOr triage "scope" "") 1000),
      lit "\n\n*Risk notes*\n", .plain (safeValue repr (getOr risk "notes" "") 600)] none,
    slackSection [lit "*Proposed immutable probe* (expected base exit code `",
      .plain (safeValue repr (getOr probe "expected_base_exit_code" "?") 5), lit "`)\n```",
      .plain (safeValue repr (getOr probe "command" "") 1500), lit "```\n*Focused tests*\n",
      .plain (bullets repr parts.focusedTests "none proposed")] none,
    .context [⟨contextSegments message, some contextMax⟩]]

/-- `build_approval_blocks`. -/
def buildApprovalBlocks (message : ApprovalMessageInput) : Except Json.Exc (List Block) := do
  let parts ← readTriage message.triage
  let progress := match message.remediation with
    | some progress => remediationBlocks progress
    | none => []
  .ok ((triageBlocks repr message parts ++ (progress ++ actionBlocks repr message)).take maxBlocks)

end Blocks

end Remediator.Slack
