import Remediator.Worker.Pipeline

set_option autoImplicit false

/-! # The stages after the session

`remediator/worker/remediation.py`, second half: the structured output, the pull request, the
probe at the head commit and CI. Each stage works on the latest remediation attempt; `process`
is the driver.
-/

namespace Remediator

open Interleave

/-! ## Structured output -/

/-- `.rstrip("/")`. -/
def stripSlashes (url : String) : String :=
  String.ofList ((url.toList.reverse.dropWhile (· = '/')).reverse)

/-- `[A-Za-z0-9_.-]`. -/
def urlChar (c : Char) : Bool := c.isAlphanum || c = '_' || c = '.' || c = '-'

/-- `parse_pr_url`: lower-cased repository and number of
`https://github.com/OWNER/NAME/pull/N`, with at most one slash at the end. -/
def parsePrUrl (url : String) : Option (String × Nat) :=
  match (Devin.trim url).splitOn "/" with
  | ["https:", "", "github.com", owner, name, "pull", number]
  | ["https:", "", "github.com", owner, name, "pull", number, ""] =>
      if owner ≠ "" ∧ name ≠ "" ∧ owner.all urlChar ∧ name.all urlChar ∧
          number.all Char.isDigit ∧ number.front ≠ '0' then
        number.toNat?.map (fun n => ((owner ++ "/" ++ name).toLower, n))
      else none
  | _ => none

/-- A letter of a text as an expression without regard to case reads it: four letters beyond
ASCII match ASCII ones. -/
def foldCase (c : Char) : Char :=
  if c = 'İ' ∨ c = 'ı' then 'i' else if c = '\u212a' then 'k' else if c = 'ſ' then 's'
  else c.toLower

/-- The text behind `pattern` at its start, without regard to case. -/
def afterFold : List Char → List Char → Option (List Char)
  | [], text => some text
  | _ :: _, [] => none
  | p :: pattern, c :: text => if foldCase c = foldCase p then afterFold pattern text else none

/-- `\s`. -/
def spaceChar (c : Char) : Bool :=
  ('\t' ≤ c && c ≤ '\r') || ('\x1c' ≤ c && c ≤ ' ') || c = '\u0085' || c = '\u00a0' ||
    c = '\u1680' || ('\u2000' ≤ c && c ≤ '\u200a') || c = '\u2028' || c = '\u2029' ||
    c = '\u202f' || c = '\u205f' || c = '\u3000'

/-- `(?![0-9])`. -/
def noDigit : List Char → Bool
  | c :: _ => !c.isDigit
  | [] => true

/-- `expr.search(text)`, for an expression that looks at the character before it. -/
def searchFrom (expr : Option Char → List Char → Bool) : Option Char → List Char → Bool
  | before, [] => expr before []
  | before, c :: text => expr before (c :: text) || searchFrom expr (some c) text

/-- `owner/repo#N` with nothing before it that could belong to the name. -/
def fullReference (cfg : Settings) (before : Option Char) (text : List Char) : Bool :=
  !before.any (fun c => urlChar (foldCase c) || c = '/') &&
    (afterFold (cfg.repository ++ "#" ++ toString cfg.issueNumber).toList text).any noDigit

/-- The closing keywords. -/
def closingKeywords : List String :=
  ["close", "closes", "closed", "fix", "fixes", "fixed", "resolve", "resolves", "resolved"]

/-- A closing keyword at a word boundary, then `\s*:?\s*#N`. -/
def keywordReference (cfg : Settings) (before : Option Char) (text : List Char) : Bool :=
  !before.any cfg.wordChar && closingKeywords.any (fun keyword =>
    (afterFold keyword.toList text).any (fun rest =>
      let rest := rest.dropWhile spaceChar
      let rest := (if rest.head? = some ':' then rest.tail else rest).dropWhile spaceChar
      (afterFold ("#" ++ toString cfg.issueNumber).toList rest).any noDigit))

/-- `issue_reference_in_body`. -/
def issueReferenceInBody (cfg : Settings) (body : String) : Bool :=
  searchFrom (fullReference cfg) none body.toList ||
    searchFrom (keywordReference cfg) none body.toList

/-- How `_validate_output` decides. -/
inductive OutputVerdict
  | fail (cls : FailureClass)
  | block
  | discovered (prUrl : String) (prNumber : Nat) (branch headSha : Option String)

/-- The checks of `_validate_output` on the document, `snapshot` being the probe snapshot of
an attempt with a probe. -/
def judgeOutput (cfg : Settings) (a : Attempt) (snapshot : Option ProbeSnapshot)
    (result : RemediationResult) : OutputVerdict :=
  if a.baseSha.any (fun b => b ≠ "" && result.baseSha ≠ b) then .fail .verification
  else if snapshot.any (fun p => result.probeHash ≠ some p.scriptHash) then .fail .verification
  else if snapshot.any (fun p => result.probeIdentifier ≠ some p.probeIdentifier) then
    .fail .verification
  else if result.issueReference ≠ (cfg.repository.toLower, cfg.issueNumber) then
    .fail .verification
  else
    match result.outcome with
    | .needsHuman => .block
    | .failed => .fail .session
    | .noChangeNeeded =>
        if !a.devinPullRequests.isEmpty || snapshot.isNone then .block else .fail .verification
    | .prCreated =>
        let prUrl := result.prUrl.getD ""
        match a.devinPullRequests with
        | [] => .fail .verification
        | [claimed] =>
            if stripSlashes claimed ≠ stripSlashes prUrl then .fail .verification
            else
              match parsePrUrl prUrl with
              | none => .fail .verification
              | some (repo, number) =>
                  if repo ≠ cfg.repository.toLower then .fail .policy
                  else .discovered prUrl number result.branch result.headSha
        | _ => .block

/-- `_validate_output`. -/
def Runner.validateOutput (r : Runner) (st : CaseState) (a : AttemptObj) : P StageResult :=
  tx r.owner (fun _ s =>
    let snapshot := if a.row.withoutProbe then none
      else a.row.probeSnapshotId.bind (fun p => s.core.snapshots[p]?)
    if snapshot.isNone ∧ a.row.withoutProbe = false then
      .ok (r.failStage st a .output .verification r.txn s)
    else
      match a.row.structuredOutput.bind (fun d =>
          r.cfg.validateRemediation d (!a.row.withoutProbe)) with
      | none => .ok (r.failStage st a .output .verification r.txn s)
      | some result =>
          match judgeOutput r.cfg a.row snapshot result with
          | .fail cls => .ok (r.failStage st a .output cls r.txn s)
          | .block => .ok (r.blockStage st a .output r.txn)
          | .discovered prUrl prNumber branch headSha =>
              let row := { a.row with
                prUrl := some prUrl, prNumber := some prNumber, branch := branch
                headSha := headSha }
              .ok ({ r.txn with
                     writes := [a.write row], moves := [r.move st .prDiscovered] },
                .prDiscovered, some ⟨a.id, row⟩))

/-- `_pr_discovered`. -/
def Runner.prDiscovered (r : Runner) (st : CaseState) (a : AttemptObj) : P StageResult :=
  tx r.owner (fun _ _ =>
    .ok ({ r.txn with moves := [r.move st .prValidating] }, .prValidating, some a))

/-! ## GitHub corroboration -/

/-- The calls of `self.github` that the validation of a pull request makes. -/
structure GitHub where
  getPullRequest : P (Answer (Option PullRequest))
  compareCommits : P (Answer String)
  closingIssueReferences : P (Answer (List Int))
  pullRequestsReferencingIssue : P (Answer (List Int))
  listPullRequestFiles : P (Answer (List String))

/-- A client whose every call is one action. -/
def github : GitHub where
  getPullRequest := ask (fun i => i.pull)
  compareCommits := ask (fun i => i.compare)
  closingIssueReferences := ask (fun i => i.closing)
  pullRequestsReferencingIssue := ask (fun i => i.timeline)
  listPullRequestFiles := ask (fun i => i.files)

/-- The paths a remediation pull request may never touch. -/
def forbiddenPaths : List String :=
  ["CODEOWNERS", "SECURITY.md", ".pre-commit-config.yaml", "setup.cfg", "pyproject.toml"]

def hasPrefix (start text : String) : Bool := start.toList.isPrefixOf text.toList

/-- `.strip("/")`. -/
def stripBoth (path : String) : String :=
  String.ofList ((stripSlashes path).toList.dropWhile (· = '/'))

def forbidden (cfg : Settings) (path : String) : Bool :=
  hasPrefix ".github/" path || hasPrefix (stripBoth cfg.probeRoot ++ "/") path ||
    forbiddenPaths.contains path

/-- What `_validate_pull_request` collects: whether a check failed, and whether a human has to
look. -/
structure PullVerdict where
  problems : Bool
  human : Bool
  deriving DecidableEq

def hexChar (c : Char) : Bool := c.isDigit || ('a' ≤ c && c ≤ 'f')

/-- `_SHA_RE.match`: the `$` of the expression also matches before a line feed at the end. -/
def isSha (sha : String) : Bool :=
  let chars := if sha.toList.getLast? = some '\n' then sha.toList.dropLast else sha.toList
  decide (chars.length = 40) && chars.all hexChar

/-- The checks of `_validate_pull_request` on the answers of GitHub; `linked` says that the pull
request closes the issue. A refused listing is `none`. -/
def judgePull (cfg : Settings) (a : Attempt) (result : RemediationResult) (pull : PullRequest)
    (compare : Option String) (refs : Option (List Int)) (linked : Bool)
    (files : Option (List String)) : PullVerdict :=
  let checks :=
    decide (pull.repository.toLower = cfg.repository.toLower) &&
    decide (pull.headRepository.toLower = cfg.repository.toLower) &&
    decide (stripSlashes pull.htmlUrl = stripSlashes (a.prUrl.getD "")) &&
    !pull.merged && decide (pull.state = "open") &&
    decide (pull.baseRef = cfg.githubBaseRef) &&
    hasPrefix cfg.branchPrefix pull.headRef &&
    decide (some pull.headRef = result.branch) &&
    decide (some pull.headSha = a.headSha) &&
    cfg.prAuthorLogins.contains pull.authorLogin.toLower
  let ancestry := isSha (a.baseSha.getD "") &&
    (decide (compare = some "ahead") || decide (compare = some "diverged"))
  let listed := files.getD []
  let touched := listed.any (forbidden cfg)
  let undeclared := listed.any (fun f => !result.changedFiles.contains f)
  { problems := !checks || !ancestry || !linked || files.isNone || touched
    human := (isSha (a.baseSha.getD "") && decide (compare = some "diverged")) ||
      decide (1 < (refs.getD []).length) || decide (cfg.maxChangedFiles < listed.length) ||
      (undeclared && !touched) }

/-- `_gh`: a retryable failure leaves the stage, a refusal is the caller's. -/
def gh {α : Type} (call : P (Answer α)) : P (Option α) := do
  match ← call with
  | .ok x => pure (some x)
  | .retryable => throw .transientVerification
  | .refused => pure none

/-- Whether the pull request closes the issue: GitHub's own references, else the timeline of
the issue, else the text of the body. -/
def closes (cfg : Settings) (github : GitHub) (number : Nat) (pull : PullRequest) :
    P (Option (List Int) × Bool) := do
  match ← gh github.closingIssueReferences with
  | some refs => pure (some refs, refs.contains (cfg.issueNumber : Int))
  | none =>
      match ← gh github.pullRequestsReferencingIssue with
      | some timeline => pure (none, timeline.contains (number : Int))
      | none => pure (none, issueReferenceInBody cfg pull.body)

/-- The end of `_validate_pull_request`: store the evidence and leave the stage. -/
def Runner.recordPull (r : Runner) (st : CaseState) (a : AttemptObj) (pull : PullRequest)
    (v : PullVerdict) : P StageResult :=
  tx r.owner (fun _ s =>
    let t := { r.txn with
      evidence := [⟨a.id, pull.htmlUrl, pull.headSha, !v.problems && !v.human⟩] }
    if v.problems then .ok (r.failStage st a .pr .verification t s)
    else if v.human then .ok (r.blockStage st a .pr t)
    else if a.row.withoutProbe then
      .ok ({ t with moves := [⟨st, .prValidated, .worker, r.claim, true⟩] },
        .prValidated, some a)
    else .ok ({ t with moves := [r.move st .probeValidatingHead] },
      .probeValidatingHead, some a))

/-- `_validate_pull_request`. -/
def Runner.validatePullRequest (r : Runner) (github : GitHub) (st : CaseState) (a : AttemptObj) :
    P StageResult := do
  match a.row.structuredOutput.bind (fun d =>
      r.cfg.validateRemediation d (!a.row.withoutProbe)) with
  | none => throw .other
  | some result =>
      match a.row.prNumber, a.row.headSha with
      | some number, some _ =>
          match ← gh github.getPullRequest with
          | none =>
              tx r.owner (fun _ s => .ok (r.failStage st a .pr .infrastructure r.txn s))
          | some none =>
              tx r.owner (fun _ s => .ok (r.failStage st a .pr .verification r.txn s))
          | some (some pull) =>
              let compare ← if isSha (a.row.baseSha.getD "") then gh github.compareCommits
                else pure none
              let (refs, linked) ← closes r.cfg github number pull
              let files ← gh github.listPullRequestFiles
              r.recordPull st a pull (judgePull r.cfg a.row result pull compare refs linked files)
      | _, _ => tx r.owner (fun _ s => .ok (r.failStage st a .pr .verification r.txn s))

/-! ## The probe at the head commit -/

/-- `_attempt_base_run`. -/
def attemptBaseRun (c : Core) (attempt snapshot : Nat) (p : ProbeSnapshot) :
    Option ProbeExecution :=
  c.executions.find? (fun e => decide (e.attemptId = some attempt) &&
    decide (e.probeSnapshotId = snapshot) && decide (e.target = .base) &&
    decide (e.verdict = .matched) && decide (e.scriptHash = p.scriptHash))

/-- The preconditions of `_probe_head`: the snapshot, and the head commit to run it at. -/
def headProbe (c : Core) (a : AttemptObj) : Option ((Nat × ProbeSnapshot) × String) :=
  match a.row.probeSnapshotId, a.row.headSha with
  | some p, some sha =>
      match c.snapshots[p]? with
      | some snapshot =>
          match attemptBaseRun c a.id p snapshot with
          | some run => if some run.commitSha = a.row.baseSha ∧ sha ≠ "" then
              some ((p, snapshot), sha) else none
          | none => none
      | none => none
  | _, _ => none

/-- `_probe_head`. -/
def Runner.probeHead (r : Runner) (st : CaseState) (a : AttemptObj) : P StageResult := do
  match ← tx r.owner (fun _ s => .ok (r.txn, headProbe s.core a)) with
  | none => tx r.owner (fun _ s => .ok (r.failStage st a .probeHead .verification r.txn s))
  | some (snapshot, sha) =>
      let run ← r.executeProbe st (some a.id) snapshot .head sha
      tx r.owner (fun _ s =>
        let t := { r.txn with executions := [run s.now] }
        match (run s.now).verdict with
        | .infrastructure => .ok (r.failStage st a .probeHead .infrastructure t s)
        | .matched => .ok ({ t with moves := [r.move st .prValidated] }, .prValidated, some a)
        | .mismatched => .ok (r.failStage st a .probeHead .verification t s))

/-! ## CI -/

/-- The first run reported under each name: `dict.setdefault`. -/
def firstRun (checks : List CheckRun) (name : String) : Option CheckRun :=
  checks.find? (fun c => decide (c.name = name))

/-- How one required check counts; `explicit` says that a list of required checks is
configured. -/
inductive CheckVerdict
  | missing
  | pending
  | passed
  | failed
  deriving DecidableEq

def judgeCheck (explicit : Bool) : Option CheckRun → CheckVerdict
  | none => .missing
  | some run =>
      if run.status ≠ "completed" then .pending
      else if run.conclusion = some "success" then .passed
      else if (run.conclusion = some "neutral" ∨ run.conclusion = some "skipped") ∧
          explicit = false then .passed
      else .failed

/-- `evaluate_checks`: the overall state. No required list means that every reported check has
to pass; no check at all is never a pass. -/
def evaluateChecks (checks : List CheckRun) (required : List String) : CiOverall :=
  if checks.isEmpty then .absent
  else
    let names := if required.isEmpty then checks.map (·.name) else required
    let verdicts := names.map (fun n => judgeCheck (!required.isEmpty) (firstRun checks n))
    if verdicts.contains .failed then .failed
    else if verdicts.contains .pending || verdicts.contains .missing then .pending
    else .passed

/-- `_enter_ci`. -/
def Runner.enterCi (r : Runner) (st : CaseState) (a : AttemptObj) : P StageResult :=
  tx r.owner (fun _ s =>
    let row := { a.row with ciDeadlineAt := some (s.now + r.cfg.ciTimeoutSeconds) }
    .ok ({ r.txn with writes := [a.write row], moves := [r.move st .ciPending] },
      .ciPending, some ⟨a.id, row⟩))

/-- `_poll_ci`. A snapshot is stored whatever it says; pending checks leave the state. -/
def Runner.pollCi (r : Runner) (st : CaseState) (a : AttemptObj) : P StageResult := do
  match a.row.headSha with
  | none => tx r.owner (fun _ s => .ok (r.failStage st a .ci .verification r.txn s))
  | some sha =>
      match ← gh (ask (fun i => i.checks)) with
      | none => tx r.owner (fun _ s => .ok (r.failStage st a .ci .infrastructure r.txn s))
      | some checks =>
          tx r.owner (fun _ s =>
            let deadline := a.row.ciDeadlineAt.getD (s.now + r.cfg.ciTimeoutSeconds)
            let row := { a.row with ciDeadlineAt := some deadline }
            let seen := evaluateChecks checks r.cfg.requiredChecks
            let overall : CiOverall :=
              if (seen = .pending ∨ seen = .absent) ∧ deadline ≤ s.now then .timedOut else seen
            let t := { r.txn with ciSnapshots := [⟨a.id, sha, overall⟩] }
            match overall with
            | .passed =>
                .ok ({ t with
                       writes := [a.write row], moves := [r.move st .ciPassed]
                       newOutbox := [notice] }, .ciPassed, some ⟨a.id, row⟩)
            | .failed | .timedOut =>
                let row := markFailure .ci .verification row
                .ok ({ t with
                       writes := [a.write row], failureReason := some (some .other)
                       moves := [r.move st .ciFailed] }, .ciFailed, some ⟨a.id, row⟩)
            | _ => .ok ({ t with writes := [a.write row] }, st, some ⟨a.id, row⟩))

/-! ## The driver -/

/-- `PIPELINE_STATES`. -/
def CaseState.pipeline : CaseState → Bool
  | .outputValidating | .prDiscovered | .prValidating | .probeValidatingHead | .prValidated
  | .ciPending => true
  | _ => false

/-- The stage of a pipeline state. -/
def Runner.stage (r : Runner) (st : CaseState) (a : AttemptObj) : P StageResult :=
  match st with
  | .outputValidating => r.validateOutput st a
  | .prDiscovered => r.prDiscovered st a
  | .prValidating => r.validatePullRequest github st a
  | .probeValidatingHead => r.probeHead st a
  | .prValidated => r.enterCi st a
  | .ciPending => r.pollCi st a
  | _ => pure (st, some a)

/-- The loop of `process`, followed for at most `n` stages. -/
def Runner.stages (r : Runner) : Nat → CaseState → Option AttemptObj → P CaseState
  | 0, _, _ => throw .halt
  | n + 1, st, mem => do
      if st.pipeline = false then pure st
      else
        match ← tx r.owner (fun _ s => .ok (r.txn, latestRemediationAttempt mem s)) with
        | none => r.failDispatch st
        | some a =>
            let (next, mem) ← r.stage st a
            if next = st then pure st
            else
              r.milestone st next
              r.stages n next mem

/-- `REMEDIATION_WORK_STATES`. -/
def CaseState.remediationWork (st : CaseState) : Bool :=
  decide (st = .remediationApproved) || decide (st = .probeValidatingBase) ||
    st.remediationSession || st.pipeline

/-- The body of `RemediationPipeline.process`. -/
def Runner.processStages (r : Runner) (entered : CaseState) (reason : Option Reason) :
    P CaseState := do
  let st ← if entered = .remediationHumanBlocked then r.resumeMissingProbe entered reason
    else pure entered
  let st ← if st = .remediationApproved then r.dispatch st else pure st
  let st ← if st = .probeValidatingBase then do
      let st ← r.probeBase st
      r.milestone entered st
      pure st
    else pure st
  let (st, mem) ← if st.remediationSession then do
      let (st, mem) ← r.runSession st
      r.milestone entered st
      pure (st, mem)
    else pure (st, none)
  r.stages r.rounds st mem

/-- `RemediationPipeline.process`: a transient failure and a saturated limit leave the case as
it is. -/
def Runner.process (r : Runner) (entered : CaseState) (reason : Option Reason) : P Unit :=
  rescue
    (do
      let st ← r.processStages entered reason
      if st ≠ entered ∨ st = .ciPending then r.notify else pure ())
    (fun e =>
      if e = .transientVerification ∨ e = .capacityWait then pure () else throw e)

end Remediator
