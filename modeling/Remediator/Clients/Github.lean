import Remediator.Clients.Pages
import Remediator.Worker.Stages

set_option autoImplicit false

/-! # The GitHub client

`LiveGitHubClient`, as far as the validation of a pull request uses it. A failure that is worth
another try is marked `retryable`; two of the readers turn every failure into `None`.
-/

namespace Remediator.Clients

open Json Paging

/-! ## Requests -/

/-- The headers that tell a rate limit. -/
structure Headers where
  retryAfter : Option String := none
  rateLimitRemaining : Option String := none

abbrev GitHubReply := Reply (Headers × JsonBody)

structure GitHubApiError where
  status : Option Nat := none
  retryable : Bool
  deriving DecidableEq

/-- `RETRYABLE_STATUS_CODES`. -/
def githubRetryable : List Nat := [408, 425, 429, 500, 502, 503, 504]

/-- `_is_rate_limited`. -/
def isRateLimited (headers : Headers) : Bool :=
  headers.retryAfter.isSome || decide (headers.rateLimitRemaining = some "0")

/-- `_request`. -/
def request : GitHubReply → Except GitHubApiError Value
  | .failed _ => .error { retryable := true }
  | .response status (headers, body) =>
      if status = 404 then .error { status := some 404, retryable := false }
      else if status ∈ githubRetryable ∨ status = 403 ∧ isRateLimited headers = true then
        .error { status := some status, retryable := true }
      else if 400 ≤ status then .error { status := some status, retryable := false }
      else
        match body with
        | some value => .ok value
        | none => .error { retryable := true }

structure LiveGitHubClient where
  allowed : List String
  /-- `repr`, as `str` uses it -/
  repr : Value → String
  /-- `int(text)` -/
  readInt : String → Option Int

section Client

variable (c : LiveGitHubClient)

/-- `_check_allowed`. -/
def LiveGitHubClient.checkAllowed (repository : String) : Except (Raised GitHubApiError) String :=
  let normalized := (Devin.trim repository).toLower
  if normalized ∈ c.allowed then .ok normalized else .error (.client { retryable := false })

/-- An error of `_request`, as a method lets it through. -/
def raised {α : Type} : Except GitHubApiError α → Except (Raised GitHubApiError) α
  | .ok a => .ok a
  | .error e => .error (.client e)

/-! ## The pull request -/

/-- The snapshot of an object with a number. -/
def LiveGitHubClient.parsePull (repo : String) (payload : List (String × Value)) (number : Value) :
    Except Exc PullRequest := do
  let base := orEmpty (List.lookup "base" payload)
  let head := orEmpty (List.lookup "head" payload)
  let headRepo ← (orEmpty (← head.get "repo")).get "full_name"
  let user := orEmpty (List.lookup "user" payload)
  let _ ← number.int c.readInt
  let baseRef ← base.get "ref"
  let headRef ← head.get "ref"
  let headSha ← head.get "sha"
  let login ← user.get "login"
  .ok {
    repository := repo
    htmlUrl := textOr c.repr (List.lookup "html_url" payload)
    state := textOr c.repr (List.lookup "state" payload)
    merged := (orNone (List.lookup "merged" payload)).isSome ||
      (match List.lookup "merged_at" payload with
        | none | some .null => false
        | some _ => true)
    body := textOr c.repr (orNone (List.lookup "body" payload))
    baseRef := textOr c.repr baseRef
    headRef := textOr c.repr headRef
    headSha := textOr c.repr headSha
    headRepository := (textOr c.repr (orNone headRepo)).toLower
    authorLogin := textOr c.repr login }

/-- `get_pull_request`; `none` when it raises `PullRequestNotFound`. -/
def LiveGitHubClient.getPullRequest (repository : String) (reply : GitHubReply) :
    Except (Raised GitHubApiError) (Option PullRequest) := do
  let repo ← c.checkAllowed repository
  match request reply with
  | .error e => if e.status = some 404 then .ok none else .error (.client e)
  | .ok (.dict payload) =>
      match List.lookup "number" payload with
      | some number => escape ((c.parsePull repo payload number).map some)
      | none => .ok none
  | .ok _ => .ok none

/-! ## The comparison -/

/-- The status of an object that has one. -/
def LiveGitHubClient.parseCompare (payload : List (String × Value)) (status : Value) :
    Except Exc String := do
  let _ ← ((List.lookup "ahead_by" payload).getD (.number (.int 0))).int c.readInt
  let _ ← ((List.lookup "behind_by" payload).getD (.number (.int 0))).int c.readInt
  let _ ← (orEmpty (List.lookup "merge_base_commit" payload)).get "sha"
  .ok (status.text c.repr)

/-- `compare_commits(..).status`. -/
def LiveGitHubClient.compareCommits (repository : String) (reply : GitHubReply) :
    Except (Raised GitHubApiError) String := do
  let _ ← c.checkAllowed repository
  match ← raised (request reply) with
  | .dict payload =>
      match List.lookup "status" payload with
      | some status => escape (c.parseCompare payload status)
      | none => .error (.client { retryable := false })
  | _ => .error (.client { retryable := false })

/-! ## The closing references -/

/-- The number of a node of the repository. -/
def LiveGitHubClient.closingNumber (repo : String) : Value → Except Exc (List Int)
  | .dict node => do
      let name ← (orEmpty (List.lookup "repository" node)).get "nameWithOwner"
      if (textOr c.repr name).toLower = repo then
        match List.lookup "number" node with
        | some number => (number.int c.readInt).map ([·])
        | none => .error .keyError
      else .ok []
  | _ => .ok []

/-- The loop over the items of a page: the first exception leaves it. -/
def collect (read : Value → Except Exc (List Int)) : List Value → Except Exc (List Int)
  | [] => .ok []
  | item :: items => do
      let numbers ← read item
      let rest ← collect read items
      .ok (numbers ++ rest)

/-- `closing_issue_references`. -/
def LiveGitHubClient.closingIssueReferences (repository : String) (reply : GitHubReply) :
    Except (Raised GitHubApiError) (Option (List Int)) := do
  let repo ← c.checkAllowed repository
  match request reply with
  | .error _ => .ok none
  | .ok payload =>
      match payload.at
          ["data", "repository", "pullRequest", "closingIssuesReferences", "nodes"] with
      | some (.list nodes) => escape ((collect (c.closingNumber repo) nodes).map some)
      | _ => .ok none

/-! ## The timeline -/

/-- The number of the pull request behind a `cross-referenced` event. -/
def LiveGitHubClient.referenceNumber (repo : String) : Value → Except Exc (List Int)
  | .dict event =>
      match List.lookup "event" event with
      | some (.str "cross-referenced") => do
          let issue := orEmpty (← (orEmpty (List.lookup "source" event)).get "issue")
          let pull ← issue.get "pull_request"
          if (orNone pull).isNone then .ok []
          else
            let name ← (orEmpty (← issue.get "repository")).get "full_name"
            match ← issue.get "number" with
            | none | some .null => .ok []
            | some number =>
                if (textOr c.repr name).toLower = repo then (number.int c.readInt).map ([·])
                else .ok []
      | _ => .ok []
  | _ => .ok []

/-- One round of `pull_requests_referencing_issue`: the loop is left with `None`, or by an
exception of Python. -/
def LiveGitHubClient.timelineTurn (repo : String) :
    Except GitHubApiError Value → Turn Int (Option Exc)
  | .error _ => .raise none
  | .ok (.list payload) =>
      match collect (c.referenceNumber repo) payload with
      | .error e => .raise (some e)
      | .ok numbers => if payload.length < 100 then .stop numbers else .more numbers
  | .ok _ => .raise none

/-- `pull_requests_referencing_issue`. -/
def LiveGitHubClient.pullRequestsReferencingIssue (repository : String)
    (reply : Nat → GitHubReply) : Except (Raised GitHubApiError) (Option (List Int)) := do
  let repo ← c.checkAllowed repository
  match walk (fun k => c.timelineTurn repo (request (reply k))) 10 0 with
  | .ok numbers => .ok (some numbers.eraseDups)
  | .error none => .ok none
  | .error (some e) => .error (.python e)

/-- `list_pull_request_files`, in an allowed repository. -/
def LiveGitHubClient.changedFiles (repository : String) (reply : Nat → GitHubReply) :
    Except (Raised GitHubApiError) (List String) := do
  let _ ← c.checkAllowed repository
  listPullRequestFiles c.repr (fun k => request (reply k))

/-! ## As the pipeline calls it -/

/-- The replies to the requests of one validation. -/
structure Exchange where
  pull : GitHubReply
  compare : GitHubReply
  closing : GitHubReply
  timeline : Nat → GitHubReply
  files : Nat → GitHubReply

/-- A call of the pipeline that ends as given. -/
def deliver {α : Type} : Except (Raised GitHubApiError) α → P (Answer α)
  | .ok a => ask (fun _ => .ok a)
  | .error (.client e) => ask (fun _ => if e.retryable then .retryable else .refused)
  | .error (.python _) => throw .other

/-- `None` counts as a refusal. -/
def orRefused {α : Type} :
    Except (Raised GitHubApiError) (Option α) → Except (Raised GitHubApiError) α
  | .ok (some a) => .ok a
  | .ok none => .error (.client { retryable := false })
  | .error e => .error e

/-- The client, when the service replies as in `e`. -/
def LiveGitHubClient.over (repository : String) (e : Exchange) : GitHub where
  getPullRequest := deliver (c.getPullRequest repository e.pull)
  compareCommits := deliver (c.compareCommits repository e.compare)
  closingIssueReferences := deliver (orRefused (c.closingIssueReferences repository e.closing))
  pullRequestsReferencingIssue :=
    deliver (orRefused (c.pullRequestsReferencingIssue repository e.timeline))
  listPullRequestFiles := deliver (c.changedFiles repository e.files)

end Client

end Remediator.Clients
