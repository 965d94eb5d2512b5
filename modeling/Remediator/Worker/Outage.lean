import Remediator.Clients.Github
import Remediator.Worker.PullRequests

set_option autoImplicit false

/-! # Outages during the validation of a pull request

`_validate_pull_request` over the live client. A failure that is worth another try ends the stage
without an effect when the client lets it through; the two readers behind the closing reference
return `None` instead, and the stage goes on with weaker evidence.
-/

namespace Remediator.Clients

open Interleave Json Paging

/-! ## The calls over the live client -/

/-- What `_gh` makes of what a method returns or raises. -/
def settled {α : Type} : Except (Raised GitHubApiError) α → Except Err (Option α)
  | .ok a => .ok (some a)
  | .error (.client e) => if e.retryable then .error .transientVerification else .ok none
  | .error (.python _) => .error .other

theorem deliver_settles {α : Type} (x : Except (Raised GitHubApiError) α) :
    Settles (gh (deliver x)) (settled x) := by
  match x with
  | .ok a => exact gh_settles (.ask (Answer.ok a))
  | .error (.client e) =>
      have h := gh_settles (α := α) (.ask (if e.retryable then .retryable else .refused))
      unfold settled
      cases hretry : e.retryable with
      | true =>
          rw [hretry] at h
          unfold deliver
          simp only [hretry]
          exact h
      | false =>
          rw [hretry] at h
          unfold deliver
          simp only [hretry]
          exact h
  | .error (.python e) => exact gh_settles (.raise .other)

/-- The request fails in a way that is worth another try. -/
def fails (reply : GitHubReply) : Bool :=
  match request reply with
  | .ok _ => false
  | .error e => e.retryable

section Validation

variable (c : LiveGitHubClient) (repository : String) (e : Exchange) (base : String)

/-- The repository as the client spells it. -/
def normalized : String := (Devin.trim repository).toLower

/-- The calls of the validation. -/
def LiveGitHubClient.calls : Calls where
  pull := settled (c.getPullRequest repository e.pull)
  compare := settled (c.compareCommits repository e.compare)
  closing := settled (orRefused (c.closingIssueReferences repository e.closing))
  timeline := settled (orRefused (c.pullRequestsReferencingIssue repository e.timeline))
  files := settled (c.changedFiles repository e.files)

theorem LiveGitHubClient.gives : (c.over repository e).Gives (c.calls repository e) where
  pull := deliver_settles _
  compare := deliver_settles _
  closing := deliver_settles _
  timeline := deliver_settles _
  files := deliver_settles _

/-! ## The requests that are made -/

/-- One round on the timeline, with the reply to its request. -/
def LiveGitHubClient.timelineRound (k : Nat) : Turn Int (Option Exc) :=
  c.timelineTurn (normalized repository) (request (e.timeline k))

/-- One round on the changed files. -/
def LiveGitHubClient.filesRound (k : Nat) : Turn String (Raised GitHubApiError) :=
  filesTurn c.repr (request (e.files k))

/-- The validation gets to the closing reference: the pull request is there, and the comparison,
if it is asked for, has answered. -/
def AtClosing : Prop :=
  (∃ p, c.getPullRequest repository e.pull = .ok (some p)) ∧
    (isSha base = true → ∃ x, settled (c.compareCommits repository e.compare) = .ok x)

/-- The validation gets to the timeline. -/
def AtTimeline : Prop :=
  AtClosing c repository e base ∧ c.closingIssueReferences repository e.closing = .ok none

/-- The validation gets to the changed files. -/
def AtFiles : Prop :=
  AtClosing c repository e base ∧
    ((∃ refs, c.closingIssueReferences repository e.closing = .ok (some refs)) ∨
      c.closingIssueReferences repository e.closing = .ok none ∧
        ∃ found, c.pullRequestsReferencingIssue repository e.timeline = .ok found)

/-- The requests of the validation, by their replies. -/
inductive Made : GitHubReply → Prop
  | pull : normalized repository ∈ c.allowed → Made e.pull
  | compare {p : PullRequest} : c.getPullRequest repository e.pull = .ok (some p) →
      isSha base = true → Made e.compare
  | closing : AtClosing c repository e base → Made e.closing
  | timeline {k : Nat} : AtTimeline c repository e base →
      Asked (c.timelineRound repository e) 10 k → Made (e.timeline k)
  | files {k : Nat} : AtFiles c repository e base → Asked (c.filesRound e) 30 k → Made (e.files k)

/-- A request of the validation ends in a failure that is worth another try. -/
def Outage : Prop := ∃ reply, Made c repository e base reply ∧ fails reply = true

/-- The request that fails is one for the closing reference. -/
def Overlooked : Prop :=
  AtClosing c repository e base ∧ fails e.closing = true ∨
    AtTimeline c repository e base ∧
      ∃ k, Asked (c.timelineRound repository e) 10 k ∧ fails (e.timeline k) = true

/-- Something else ends the stage after that: a page of the timeline raises an exception of Python,
or a request for the changed files fails. -/
def Interrupted : Prop :=
  (c.closingIssueReferences repository e.closing = .ok none ∧
      ∃ k x, Asked (c.timelineRound repository e) 10 k ∧
        c.timelineRound repository e k = .raise (some x)) ∨
    ∃ k, Asked (c.filesRound e) 30 k ∧ fails (e.files k) = true

/-! ## What the calls give -/

variable {c repository e base}

theorem fails_iff {reply : GitHubReply} :
    fails reply = true ↔ ∃ err, request reply = .error err ∧ err.retryable = true := by
  unfold fails
  cases request reply with
  | ok value => simp
  | error err => simp

/-- Nothing is not found in a way that is worth another try. -/
theorem request_found {reply : GitHubReply} {err : GitHubApiError}
    (h : request reply = .error err) (hretry : err.retryable = true) : err.status ≠ some 404 := by
  cases reply with
  | failed error =>
      obtain rfl := Except.error.inj h
      exact nofun
  | response status body =>
      obtain ⟨headers, body⟩ := body
      unfold request at h
      dsimp only at h
      by_cases h404 : status = 404
      · rw [if_pos h404] at h
        obtain rfl := Except.error.inj h
        cases hretry
      · rw [if_neg h404] at h
        intro hstatus
        split_ifs at h
        · obtain rfl := Except.error.inj h
          exact h404 (Option.some.inj hstatus)
        · obtain rfl := Except.error.inj h
          cases hretry
        · cases body with
          | some value => cases h
          | none =>
              obtain rfl := Except.error.inj h
              cases hstatus

theorem checkAllowed_eq (h : normalized repository ∈ c.allowed) :
    c.checkAllowed repository = .ok (normalized repository) := if_pos h

theorem allowed_of_found {p : PullRequest}
    (h : c.getPullRequest repository e.pull = .ok (some p)) : normalized repository ∈ c.allowed := by
  by_contra hno
  have hcheck : c.checkAllowed repository = .error (.client { retryable := false }) := if_neg hno
  unfold LiveGitHubClient.getPullRequest at h
  rw [hcheck] at h
  cases h

theorem pull_fails (hallowed : normalized repository ∈ c.allowed) (h : fails e.pull = true) :
    (c.calls repository e).pull = .error .transientVerification := by
  obtain ⟨err, hreq, hretry⟩ := fails_iff.mp h
  have hget : c.getPullRequest repository e.pull = .error (.client err) := by
    unfold LiveGitHubClient.getPullRequest
    rw [checkAllowed_eq hallowed, hreq]
    exact if_neg (request_found hreq hretry)
  unfold LiveGitHubClient.calls settled
  dsimp only
  rw [hget]
  exact if_pos hretry

theorem compare_fails (hallowed : normalized repository ∈ c.allowed)
    (h : fails e.compare = true) :
    (c.calls repository e).compare = .error .transientVerification := by
  obtain ⟨err, hreq, hretry⟩ := fails_iff.mp h
  have hget : c.compareCommits repository e.compare = .error (.client err) := by
    unfold LiveGitHubClient.compareCommits
    rw [checkAllowed_eq hallowed, hreq]
    rfl
  unfold LiveGitHubClient.calls settled
  dsimp only
  rw [hget]
  exact if_pos hretry

theorem closing_fails (hallowed : normalized repository ∈ c.allowed)
    (h : fails e.closing = true) : c.closingIssueReferences repository e.closing = .ok none := by
  obtain ⟨err, hreq, _⟩ := fails_iff.mp h
  unfold LiveGitHubClient.closingIssueReferences
  rw [checkAllowed_eq hallowed, hreq]
  rfl

/-- The call for the changed files ends the stage exactly when one of its requests fails. -/
theorem files_error_iff (hallowed : normalized repository ∈ c.allowed) :
    (∃ x, (c.calls repository e).files = .error x) ↔
      ∃ k, Asked (c.filesRound e) 30 k ∧ fails (e.files k) = true := by
  have hfiles : c.changedFiles repository e.files = walk (c.filesRound e) 30 0 := by
    unfold LiveGitHubClient.changedFiles
    rw [checkAllowed_eq hallowed]
    rfl
  have hraise : ∀ {k : Nat} {x : Raised GitHubApiError}, c.filesRound e k = .raise x →
      ∃ err, request (e.files k) = .error err ∧ x = .client err := by
    intro k x h
    unfold LiveGitHubClient.filesRound at h
    cases hreq : request (e.files k) with
    | error err =>
        rw [hreq] at h
        exact ⟨err, rfl, (Turn.raise.inj h).symm⟩
    | ok value =>
        rw [hreq] at h
        unfold filesTurn at h
        split at h
        · next heq => cases heq
        · split_ifs at h
        · cases h
  unfold LiveGitHubClient.calls
  dsimp only
  rw [hfiles]
  constructor
  · rintro ⟨x, hx⟩
    cases hwalk : walk (c.filesRound e) 30 0 with
    | ok found =>
        rw [hwalk] at hx
        cases hx
    | error y =>
        obtain ⟨k, hasked, hk⟩ := walk_error_iff.mp hwalk
        obtain ⟨err, hreq, rfl⟩ := hraise hk
        refine ⟨k, hasked, fails_iff.mpr ⟨err, hreq, ?_⟩⟩
        rw [hwalk] at hx
        unfold settled at hx
        dsimp only at hx
        by_contra hno
        rw [if_neg hno] at hx
        cases hx
  · rintro ⟨k, hasked, hk⟩
    obtain ⟨err, hreq, hretry⟩ := fails_iff.mp hk
    have hturn : c.filesRound e k = .raise (.client err) := by
      unfold LiveGitHubClient.filesRound
      rw [hreq]
      rfl
    rw [walk_error_iff.mpr ⟨k, hasked, hturn⟩]
    exact ⟨.transientVerification, if_pos hretry⟩

/-- What `pull_requests_referencing_issue` makes of its walk. -/
def mentioned : Except (Option Exc) (List Int) → Except (Raised GitHubApiError) (Option (List Int))
  | .ok numbers => .ok (some numbers.eraseDups)
  | .error none => .ok none
  | .error (some x) => .error (.python x)

/-- The call for the timeline ends the stage exactly when a page raises an exception of Python. -/
theorem timeline_error_iff (hallowed : normalized repository ∈ c.allowed) :
    (∃ x, (c.calls repository e).timeline = .error x) ↔
      ∃ k x, Asked (c.timelineRound repository e) 10 k ∧
        c.timelineRound repository e k = .raise (some x) := by
  have htimeline : c.pullRequestsReferencingIssue repository e.timeline =
      mentioned (walk (c.timelineRound repository e) 10 0) := by
    unfold LiveGitHubClient.pullRequestsReferencingIssue
    rw [checkAllowed_eq hallowed]
    rfl
  unfold LiveGitHubClient.calls
  dsimp only
  rw [htimeline]
  constructor
  · rintro ⟨x, hx⟩
    cases hwalk : walk (c.timelineRound repository e) 10 0 with
    | ok numbers =>
        rw [hwalk] at hx
        cases hx
    | error y =>
        rw [hwalk] at hx
        cases y with
        | none => cases hx
        | some y =>
            obtain ⟨k, hasked, hk⟩ := walk_error_iff.mp hwalk
            exact ⟨k, y, hasked, hk⟩
  · rintro ⟨k, x, hasked, hk⟩
    rw [walk_error_iff.mpr ⟨k, hasked, hk⟩]
    exact ⟨.other, rfl⟩

/-! ## The verdict -/

theorem verdict_error_of_files {cfg : Settings} {a : Attempt} {result : RemediationResult}
    {number : Nat} {pull : PullRequest} {calls : Calls} {x : Err} (h : calls.files = .error x) :
    ∃ y, calls.verdict cfg a result number pull = .error y := by
  unfold Calls.verdict
  cases (if isSha (a.baseSha.getD "") then calls.compare else .ok none) with
  | error y => exact ⟨y, rfl⟩
  | ok compare =>
      cases hlinked : calls.linked cfg number pull with
      | error y => exact ⟨y, rfl⟩
      | ok linked =>
          dsimp only [Except.bind]
          rw [h]
          exact ⟨x, rfl⟩

theorem verdict_error_of_timeline {cfg : Settings} {a : Attempt} {result : RemediationResult}
    {number : Nat} {pull : PullRequest} {calls : Calls} {x : Err}
    (hclosing : calls.closing = .ok none) (h : calls.timeline = .error x) :
    ∃ y, calls.verdict cfg a result number pull = .error y := by
  have hlinked : calls.linked cfg number pull = .error x := by
    unfold Calls.linked
    rw [hclosing]
    dsimp only [Except.bind]
    rw [h]
  unfold Calls.verdict
  rw [hlinked]
  cases (if isSha (a.baseSha.getD "") then calls.compare else .ok none) with
  | error y => exact ⟨y, rfl⟩
  | ok compare => exact ⟨x, rfl⟩

theorem verdict_ok {cfg : Settings} {a : Attempt} {result : RemediationResult}
    {number : Nat} {pull : PullRequest} {calls : Calls} {timeline : Option (List Int)}
    {files : Option (List String)}
    (hcompare : isSha (a.baseSha.getD "") = true → ∃ x, calls.compare = .ok x)
    (hclosing : calls.closing = .ok none) (htimeline : calls.timeline = .ok timeline)
    (hfiles : calls.files = .ok files) :
    ∃ v, calls.verdict cfg a result number pull = .ok v := by
  have hlinked : ∃ x, calls.linked cfg number pull = .ok x := by
    unfold Calls.linked
    rw [hclosing]
    dsimp only [Except.bind]
    rw [htimeline]
    cases timeline with
    | none => exact ⟨_, rfl⟩
    | some timeline => exact ⟨_, rfl⟩
  obtain ⟨linked, hlinked⟩ := hlinked
  unfold Calls.verdict
  rw [hlinked, hfiles]
  split
  · next hbase =>
      obtain ⟨x, hx⟩ := hcompare hbase
      rw [hx]
      exact ⟨_, rfl⟩
  · exact ⟨_, rfl⟩

/-- What interrupts the validation ends the stage. -/
theorem Interrupted.verdict {cfg : Settings} {a : Attempt} {result : RemediationResult}
    {number : Nat} {pull : PullRequest} (hallowed : normalized repository ∈ c.allowed)
    (h : Interrupted c repository e) :
    ∃ y, (c.calls repository e).verdict cfg a result number pull = .error y := by
  rcases h with ⟨hclosing, hraises⟩ | hfiles
  · obtain ⟨x, hx⟩ := (timeline_error_iff hallowed).mpr hraises
    refine verdict_error_of_timeline ?_ hx
    unfold LiveGitHubClient.calls
    dsimp only
    rw [hclosing]
    rfl
  · obtain ⟨x, hx⟩ := (files_error_iff hallowed).mpr hfiles
    exact verdict_error_of_files hx

/-- A request that is overlooked is one that is made, and the stage goes on without an answer. -/
theorem Overlooked.made (h : Overlooked c repository e base) :
    AtClosing c repository e base ∧ Outage c repository e base ∧
      c.closingIssueReferences repository e.closing = .ok none := by
  rcases h with ⟨hat, hfails⟩ | ⟨hat, k, hasked, hfails⟩
  · obtain ⟨p, hp⟩ := hat.1
    exact ⟨hat, ⟨_, .closing hat, hfails⟩, closing_fails (allowed_of_found hp) hfails⟩
  · exact ⟨hat.1, ⟨_, .timeline hat hasked, hfails⟩, hat.2⟩

end Validation

/-- Between the two stores, no evidence is stored and no transition is made. -/
def Waits (s s' : Store) : Prop := s'.core.evidence = s.core.evidence ∧ s'.log = s.log

theorem Waits.of_aside {s s' : Store} (h : Aside s s') : Waits s s' :=
  ⟨congrArg Core.evidence h.core, h.log⟩

/-- **When an outage decides a pull request.** In a run of `_validate_pull_request` over the live
client, a failure that is worth another try leaves the case as it is exactly when no request for
the closing reference fails so, or something else ends the stage after it. -/
theorem outage_waits_iff (c : LiveGitHubClient) (r : Runner) (e : Exchange) (a : AttemptObj)
    (result : RemediationResult) (number : Nat) {s s' : Store} {l : List (Input × Store)}
    {res : Except Err StageResult} (ha : Validating r s a result number) (hun : Undisturbed l)
    (h : (r.validatePullRequest (c.over r.cfg.repository e) .prValidating a).Runs
      Op.apply Aside s l res s') :
    (Outage c r.cfg.repository e (a.row.baseSha.getD "") → Waits s s') ↔
      (Overlooked c r.cfg.repository e (a.row.baseSha.getD "") →
        Interrupted c r.cfg.repository e) := by
  have hleads := validatePullRequest_leads ha.toClaimed (c.gives r.cfg.repository e) hun h
  have hfound : ∀ {p : PullRequest}, c.getPullRequest r.cfg.repository e.pull = .ok (some p) →
      Leads ((c.calls r.cfg.repository e).verdict r.cfg a.row result number p)
        (r.recordPull .prValidating a p) s res s' := by
    intro p hp
    have hpull : (c.calls r.cfg.repository e).pull = .ok (some (some p)) := by
      unfold LiveGitHubClient.calls
      dsimp only
      rw [hp]
      rfl
    rw [hpull] at hleads
    exact hleads
  have hends : ∀ {p : PullRequest}, c.getPullRequest r.cfg.repository e.pull = .ok (some p) →
      (∃ y, (c.calls r.cfg.repository e).verdict r.cfg a.row result number p = .error y) →
      Waits s s' := by
    rintro p hp ⟨y, hy⟩
    have hrest := hfound hp
    rw [hy] at hrest
    exact .of_aside hrest.1
  constructor
  · intro hwaits hover
    obtain ⟨⟨⟨p, hp⟩, hcompare⟩, hout, hclosing⟩ := hover.made
    have hallowed := allowed_of_found hp
    by_contra hgoes
    -- every call answers, so that the verdict is recorded
    have htimeline : ∃ x, (c.calls r.cfg.repository e).timeline = .ok x := by
      cases htime : (c.calls r.cfg.repository e).timeline with
      | ok x => exact ⟨x, rfl⟩
      | error x =>
          exact absurd (Or.inl ⟨hclosing, (timeline_error_iff hallowed).mp ⟨x, htime⟩⟩) hgoes
    have hfiles : ∃ x, (c.calls r.cfg.repository e).files = .ok x := by
      cases hfile : (c.calls r.cfg.repository e).files with
      | ok x => exact ⟨x, rfl⟩
      | error x => exact absurd (Or.inr ((files_error_iff hallowed).mp ⟨x, hfile⟩)) hgoes
    have hrefs : (c.calls r.cfg.repository e).closing = .ok none := by
      unfold LiveGitHubClient.calls
      dsimp only
      rw [hclosing]
      rfl
    obtain ⟨timeline, htimeline⟩ := htimeline
    obtain ⟨files, hfiles⟩ := hfiles
    obtain ⟨v, hv⟩ : ∃ v, (c.calls r.cfg.repository e).verdict r.cfg a.row result number p = .ok v :=
      verdict_ok hcompare hrefs htimeline hfiles
    have hrest := hfound hp
    rw [hv] at hrest
    obtain ⟨s₁, l₁, haside, hun₁, hrecord⟩ := hrest
    have hheld : r.Holds s₁ := by
      unfold Runner.Holds
      rw [haside.case]
      exact ha.held
    have hquiet := ha.quiet
    rw [← haside.core] at hquiet
    have hevidence := (recordPull_stores p v hheld hquiet hun₁ hrecord).1
    rw [haside.core, (hwaits hout).1] at hevidence
    have hlen := congrArg List.length hevidence
    rw [List.length_append, List.length_singleton] at hlen
    omega
  · rintro hinterrupted ⟨reply, hmade, hfails⟩
    cases hmade with
    | pull hallowed =>
        rw [pull_fails hallowed hfails] at hleads
        exact .of_aside hleads.1
    | compare hp hbase =>
        refine hends hp ⟨.transientVerification, ?_⟩
        unfold Calls.verdict
        rw [if_pos hbase, compare_fails (allowed_of_found hp) hfails]
        rfl
    | closing hat =>
        obtain ⟨p, hp⟩ := hat.1
        exact hends hp ((hinterrupted (Or.inl ⟨hat, hfails⟩)).verdict (allowed_of_found hp))
    | timeline hat hasked =>
        obtain ⟨p, hp⟩ := hat.1.1
        exact hends hp ((hinterrupted (Or.inr ⟨hat, _, hasked, hfails⟩)).verdict
          (allowed_of_found hp))
    | files hat hasked =>
        obtain ⟨p, hp⟩ := hat.1.1
        have hcut : Interrupted c r.cfg.repository e := Or.inr ⟨_, hasked, hfails⟩
        exact hends hp (hcut.verdict (allowed_of_found hp))

/-! ### References that cannot be read -/

/-- A reply with a decoded body. -/
def reply (value : Value) : GitHubReply := .response 200 ({}, some value)

def demoClient : LiveGitHubClient where
  allowed := ["apache/superset"]
  repr := fun _ => ""
  readInt := fun _ => none

def demoPayload : Value :=
  .dict [("number", .number (.int 77)),
    ("html_url", .str "https://github.com/apache/superset/pull/77"), ("state", .str "open"),
    ("base", .dict [("ref", .str "master")]),
    ("head", .dict [("ref", .str "devin/fix-4213"), ("sha", .str "de9f2c7f"),
      ("repo", .dict [("full_name", .str "apache/superset")])]),
    ("user", .dict [("login", .str "devin-ai-integration[bot]")])]

/-- The event that the pull request leaves on the timeline of the issue. -/
def demoEvent : Value :=
  .dict [("event", .str "cross-referenced"), ("source", .dict [("issue", .dict [
    ("number", .number (.int 77)), ("pull_request", .dict [("url", .str "pulls/77")]),
    ("repository", .dict [("full_name", .str "apache/superset")])])])]

/-- The query for the closing references is answered with 503. -/
def demoExchange : Exchange where
  pull := reply demoPayload
  compare := reply (.dict [("status", .str "ahead"), ("ahead_by", .number (.int 1)),
    ("behind_by", .number (.int 0))])
  closing := .response 503 ({}, none)
  timeline := fun _ => reply (.list [demoEvent])
  files := fun _ => reply (.list [.dict [("filename", .str "superset/sql_lab.py")]])

theorem demo_allowed : normalized "apache/superset" ∈ demoClient.allowed := by decide +kernel

theorem demo_atClosing : AtClosing demoClient "apache/superset" demoExchange demoBase := by
  have hcheck := checkAllowed_eq demo_allowed
  constructor
  · unfold LiveGitHubClient.getPullRequest
    rw [hcheck]
    exact ⟨_, rfl⟩
  · intro _
    unfold LiveGitHubClient.compareCommits
    rw [hcheck]
    exact ⟨_, rfl⟩

/-- The run in which the pull request passes although the query has failed. -/
theorem demo_passes :
    ((demoWorker.validatePullRequest (demoClient.over "apache/superset" demoExchange)
      .prValidating demoAttempt).alone Op.apply {} demoValidating).2.core.evidence.map (·.valid) =
        [true] := by
  decide +kernel

/-- The pull request itself cannot be read. -/
def downExchange : Exchange := { demoExchange with pull := .response 503 ({}, none) }

theorem demo_timeline (k : Nat) : ∃ numbers,
    demoClient.timelineRound "apache/superset" demoExchange k = .stop numbers := by
  have hread : (collect (demoClient.referenceNumber (normalized "apache/superset"))
      [demoEvent]).toOption.isSome = true := by decide +kernel
  cases hcollect : collect (demoClient.referenceNumber (normalized "apache/superset"))
      [demoEvent] with
  | error e => rw [hcollect] at hread; cases hread
  | ok found =>
    refine ⟨found, ?_⟩
    change demoClient.timelineTurn (normalized "apache/superset") (.ok (.list [demoEvent])) = _
    unfold LiveGitHubClient.timelineTurn
    simp [hcollect]

/-- What the stage leaves when it runs on its own. -/
def leftAfter (e : Exchange) : Store :=
  ((demoWorker.validatePullRequest (demoClient.over "apache/superset" e) .prValidating
    demoAttempt).alone Op.apply {} demoValidating).2

theorem leftAfter_runs (e : Exchange) : ∃ l res,
    (demoWorker.validatePullRequest (demoClient.over "apache/superset" e) .prValidating
      demoAttempt).Runs Op.apply Aside demoValidating l res (leftAfter e) ∧ Undisturbed l := by
  obtain ⟨l, hrun, hl⟩ := Prog.runs_alone Op.apply
    (demoWorker.validatePullRequest (demoClient.over "apache/superset" e) .prValidating demoAttempt)
    {} (R := Aside) .refl demoValidating
  exact ⟨l, _, hrun, fun x hx => by rw [hl x hx]⟩

/-- A failure of the query is passed over, one of the pull request itself waits. -/
theorem outage_waits_iff_demo :
    ¬ (Outage demoClient "apache/superset" demoExchange demoBase →
        Waits demoValidating (leftAfter demoExchange)) ∧
      Outage demoClient "apache/superset" downExchange demoBase ∧
        Waits demoValidating (leftAfter downExchange) := by
  obtain ⟨l, res, hrun, hun⟩ := leftAfter_runs demoExchange
  have hdemo := outage_waits_iff demoClient demoWorker demoExchange demoAttempt demoResult 77
    demo_validating hun hrun
  obtain ⟨l', res', hrun', hun'⟩ := leftAfter_runs downExchange
  have hdown := outage_waits_iff demoClient demoWorker downExchange demoAttempt demoResult 77
    demo_validating hun' hrun'
  have hout : Outage demoClient "apache/superset" downExchange demoBase :=
    ⟨_, .pull demo_allowed, rfl⟩
  refine ⟨fun h => ?_, hout, hdown.mpr (fun hover => ?_) hout⟩
  · rcases hdemo.mp h (Or.inl ⟨demo_atClosing, rfl⟩) with ⟨-, k, x, -, hraise⟩ | ⟨k, -, hfile⟩
    · obtain ⟨numbers, hstop⟩ := demo_timeline k
      cases hstop.symm.trans hraise
    · cases hfile
  · have hnot : ¬ AtClosing demoClient "apache/superset" downExchange demoBase := by
      rintro ⟨⟨p, hp⟩, -⟩
      unfold LiveGitHubClient.getPullRequest at hp
      rw [checkAllowed_eq demo_allowed] at hp
      cases hp
    rcases hover with ⟨hat, -⟩ | ⟨hat, -⟩
    · exact absurd hat hnot
    · exact absurd hat.1 hnot

/-- The query for the closing references fails with 503, and the pull request passes on the
timeline alone. -/
theorem outage_decides_pull_request :
    ¬∀ (c : LiveGitHubClient) (r : Runner) (e : Exchange) (a : AttemptObj)
      (result : RemediationResult) (number : Nat) (s s' : Store) (l : List (Input × Store))
      (res : Except Err StageResult), Validating r s a result number → Undisturbed l →
        (r.validatePullRequest (c.over r.cfg.repository e) .prValidating a).Runs
          Op.apply Aside s l res s' →
        Outage c r.cfg.repository e (a.row.baseSha.getD "") → Waits s s' := by
  intro h
  obtain ⟨l, hrun, hl⟩ := Prog.runs_alone Op.apply
    (demoWorker.validatePullRequest (demoClient.over "apache/superset" demoExchange)
      .prValidating demoAttempt) {} (R := Aside) .refl demoValidating
  have hwaits := h demoClient demoWorker demoExchange demoAttempt demoResult 77 demoValidating _ l
    _ demo_validating (fun x hx => by rw [hl x hx]) hrun ⟨_, .closing demo_atClosing, rfl⟩
  have hpasses := demo_passes
  rw [hwaits.1] at hpasses
  cases hpasses

end Remediator.Clients
