import Remediator.Effects
import Remediator.Runs

set_option autoImplicit false

/-! # Which pull requests are verified

`_validate_pull_request` against the conditions on a pull request. Its run is followed call by
call: each call of the client answers or ends the stage, and the last action is the one
transaction that stores the evidence and leaves the stage.
-/

namespace Remediator

open Interleave

/-! ## Calls -/

/-- The others leave the case and its rows alone. -/
structure Aside (s s' : Store) : Prop where
  case : s'.case = s.case
  core : s'.core = s.core
  log : s'.log = s.log

theorem Aside.refl (s : Store) : Aside s s := ⟨rfl, rfl, rfl⟩

theorem Aside.trans {s s₁ s₂ : Store} (h : Aside s s₁) (h' : Aside s₁ s₂) : Aside s s₂ :=
  ⟨h'.case.trans h.case, h'.core.trans h.core, h'.log.trans h.log⟩

/-- Undisturbed, the program has no effect and ends with `c`. -/
structure Settles {α : Type} (p : P α) (c : Except Err α) : Prop where
  runs : ∀ {s s' : Store} {l : List (Input × Store)} {res : Except Err α},
    p.Runs Op.apply Aside s l res s' → Undisturbed l → Aside s s' ∧ res = c

/-- The run from `s` to `s'` ends with the exception of `c`, or goes on with its value. -/
def Leads {α β : Type} (c : Except Err α) (k : α → P β) (s : Store) (res : Except Err β)
    (s' : Store) : Prop :=
  match c with
  | .error e => Aside s s' ∧ res = .error e
  | .ok a => ∃ s₁ l, Aside s s₁ ∧ Undisturbed l ∧ (k a).Runs Op.apply Aside s₁ l res s'

section Settles

variable {α β γ : Type} {s s' : Store} {l : List (Input × Store)}

theorem Settles.ret (a : α) : Settles (.ret a) (.ok a) where
  runs := by
    intro s s' l res h _
    obtain ⟨rfl, rfl, rfl⟩ := h.ret_inv
    exact ⟨.refl _, rfl⟩

theorem Settles.raise (e : Err) : Settles (.raise e : P α) (.error e) where
  runs := by
    intro s s' l res h _
    obtain ⟨rfl, rfl, rfl⟩ := h.raise_inv
    exact ⟨.refl _, rfl⟩

theorem Settles.ask (a : α) : Settles (ask (fun _ => a)) (.ok a) where
  runs := by
    intro s s' l res h hun
    obtain ⟨i, s₁, haside, rfl, rfl, ⟨f, hf, _⟩ | ⟨_, hres⟩⟩ := runs_ask h
    · rw [hun _ List.mem_cons_self] at hf
      cases hf
    · exact ⟨haside.trans ⟨rfl, rfl, rfl⟩, hres⟩

theorem Settles.leads {p : P α} {c : Except Err α} {k : α → P β} {res : Except Err β}
    (hp : Settles p c) (h : (p.bind k).Runs Op.apply Aside s l res s') (hun : Undisturbed l) :
    Leads c k s res s' := by
  rcases h.bind_inv with ⟨e, rfl, hrun⟩ | ⟨a, s₁, l₁, l₂, rfl, hrun, hrest⟩
  · obtain ⟨haside, rfl⟩ := hp.runs hrun hun
    exact ⟨haside, rfl⟩
  · obtain ⟨haside, rfl⟩ := hp.runs hrun hun.append.1
    exact ⟨s₁, l₂, haside, hun.append.2, hrest⟩

theorem Leads.after {c : Except Err α} {k : α → P β} {s₁ : Store} {res : Except Err β}
    (h : Leads c k s₁ res s') (haside : Aside s s₁) : Leads c k s res s' := by
  cases c with
  | error e => exact ⟨haside.trans h.1, h.2⟩
  | ok a =>
      obtain ⟨s₂, l₂, haside', hrest⟩ := h
      exact ⟨s₂, l₂, haside.trans haside', hrest⟩

theorem Leads.bind {c : Except Err α} {d : α → Except Err γ} {k : α → P β} {k' : γ → P β}
    {res : Except Err β} (h : Leads c k s res s')
    (hk : ∀ a s₁ l₁, (k a).Runs Op.apply Aside s₁ l₁ res s' → Undisturbed l₁ →
      Leads (d a) k' s₁ res s') : Leads (c.bind d) k' s res s' := by
  cases c with
  | error e => exact h
  | ok a =>
      obtain ⟨s₁, l₁, haside, hun, hrun⟩ := h
      exact (hk a s₁ l₁ hrun hun).after haside

theorem Settles.bind {p : P α} {k : α → P β} {c : Except Err α} {d : α → Except Err β}
    (hp : Settles p c) (hk : ∀ a, Settles (k a) (d a)) : Settles (p.bind k) (c.bind d) where
  runs := by
    intro s s' l res h hun
    have hleads := hp.leads h hun
    cases c with
    | error e => exact hleads
    | ok a =>
        obtain ⟨s₁, l₁, haside, hun₁, hrest⟩ := hleads
        obtain ⟨haside', hres⟩ := (hk a).runs hrest hun₁
        exact ⟨haside.trans haside', hres⟩

end Settles

/-- What `_gh` makes of an answer. -/
def Answer.settle {α : Type} : Answer α → Except Err (Option α)
  | .ok x => .ok (some x)
  | .retryable => .error .transientVerification
  | .refused => .ok none

theorem gh_settles {α : Type} {call : P (Answer α)} {c : Except Err (Answer α)}
    (h : Settles call c) : Settles (gh call) (c.bind Answer.settle) := by
  refine Settles.bind h (fun answer => ?_)
  cases answer with
  | ok x => exact .ret _
  | retryable => exact .raise _
  | refused => exact .ret _

/-- What `_gh` makes of the calls of the validation. -/
structure Calls where
  pull : Except Err (Option (Option PullRequest))
  compare : Except Err (Option String)
  closing : Except Err (Option (List Int))
  timeline : Except Err (Option (List Int))
  files : Except Err (Option (List String))

/-- The calls of the client are `c`. -/
structure GitHub.Gives (client : GitHub) (c : Calls) : Prop where
  pull : Settles (gh client.getPullRequest) c.pull
  compare : Settles (gh client.compareCommits) c.compare
  closing : Settles (gh client.closingIssueReferences) c.closing
  timeline : Settles (gh client.pullRequestsReferencingIssue) c.timeline
  files : Settles (gh client.listPullRequestFiles) c.files

/-- What `closes` makes of the calls. -/
def Calls.linked (c : Calls) (cfg : Settings) (number : Nat) (pull : PullRequest) :
    Except Err (Option (List Int) × Bool) :=
  c.closing.bind (fun refs => match refs with
    | some refs => .ok (some refs, refs.contains (cfg.issueNumber : Int))
    | none => c.timeline.bind (fun timeline => match timeline with
      | some timeline => .ok (none, timeline.contains (number : Int))
      | none => .ok (none, issueReferenceInBody cfg pull.body)))

/-- What the calls after the first one amount to. -/
def Calls.verdict (c : Calls) (cfg : Settings) (a : Attempt) (result : RemediationResult)
    (number : Nat) (pull : PullRequest) : Except Err PullVerdict :=
  (if isSha (a.baseSha.getD "") then c.compare else .ok none).bind (fun compare =>
    (c.linked cfg number pull).bind (fun linked =>
      c.files.bind (fun files =>
        .ok (judgePull cfg a result pull compare linked.1 linked.2 files))))

theorem closes_settles {client : GitHub} {c : Calls} (hg : client.Gives c) (cfg : Settings)
    (number : Nat) (pull : PullRequest) :
    Settles (closes cfg client number pull) (c.linked cfg number pull) := by
  refine Settles.bind hg.closing (fun refs => ?_)
  cases refs with
  | some refs => exact .ret _
  | none =>
      refine Settles.bind hg.timeline (fun timeline => ?_)
      cases timeline with
      | some timeline => exact .ret _
      | none => exact .ret _

/-- The stage has what it works on: a schema-valid output and the identity of the pull request. -/
structure Claimed (cfg : Settings) (a : Attempt) (result : RemediationResult) (number : Nat) :
    Prop where
  output : a.structuredOutput.bind (fun d => cfg.validateRemediation d (!a.withoutProbe)) =
    some result
  number : a.prNumber = some number
  headSha : ∃ sha, a.headSha = some sha

section Validate

variable {r : Runner} {client : GitHub} {c : Calls} {st : CaseState} {a : AttemptObj}
  {result : RemediationResult} {number : Nat} {s s' : Store} {l : List (Input × Store)}
  {res : Except Err StageResult}

/-- A run of the stage follows the calls: one that raises ends it without an effect, and if none
does, its verdict is recorded. -/
theorem validatePullRequest_leads (ha : Claimed r.cfg a.row result number)
    (hg : client.Gives c) (hun : Undisturbed l)
    (h : (r.validatePullRequest client st a).Runs Op.apply Aside s l res s') :
    match c.pull with
    | .error e => Aside s s' ∧ res = .error e
    | .ok (some (some pull)) =>
        Leads (c.verdict r.cfg a.row result number pull) (r.recordPull st a pull) s res s'
    | .ok _ => True := by
  obtain ⟨sha, hsha⟩ := ha.headSha
  unfold Runner.validatePullRequest at h
  rw [ha.output] at h
  dsimp only at h
  rw [ha.number, hsha] at h
  dsimp only at h
  have hleads := hg.pull.leads h hun
  cases hpull : c.pull with
  | error e =>
      rw [hpull] at hleads
      exact hleads
  | ok found =>
      rw [hpull] at hleads
      obtain ⟨s₁, l₁, haside, hun₁, hrest⟩ := hleads
      match found, hrest with
      | none, _ => trivial
      | some none, _ => trivial
      | some (some pull), hrest =>
          -- the first call has answered; the others are followed one by one
          have hcompare : Leads (if isSha (a.row.baseSha.getD "") then c.compare else .ok none)
              (fun compare => closes r.cfg client number pull >>= fun linked =>
                gh client.listPullRequestFiles >>= fun files => r.recordPull st a pull
                  (judgePull r.cfg a.row result pull compare linked.1 linked.2 files))
              s₁ res s' := by
            dsimp only at hrest
            split at hrest
            · next hbase =>
                rw [if_pos hbase]
                exact hg.compare.leads hrest hun₁
            · next hbase =>
                rw [if_neg hbase]
                exact (Settles.ret none).leads hrest hun₁
          refine Leads.after (hcompare.bind fun compare s₂ l₂ hrun hun₂ => ?_) haside
          refine ((closes_settles hg r.cfg number pull).leads hrun hun₂).bind
            fun linked s₃ l₃ hrun hun₃ => ?_
          refine (hg.files.leads hrun hun₃).bind fun files s₄ l₄ hrun hun₄ => ?_
          exact ⟨s₄, l₄, .refl s₄, hun₄, hrun⟩

end Validate

/-! ## The transaction at the end -/

theorem commit_evidence {o : Owner} {t : Txn} (s : Store) :
    ((Op.commit o t).apply s).core.evidence = s.core.evidence ++ t.evidence := by
  simp [Op.apply, Op.effect, Txn.apply, Txn.applyCore]

theorem commit_state {o : Owner} {t : Txn} {m : Move} (s : Store) (hm : t.moves = [m]) :
    ((Op.commit o t).apply s).case.state = m.dst := by
  simp [Op.apply, Op.effect, Txn.apply, Txn.applyCase, movesEnd, hm]

/-- Recording a failure does not touch what makes an attempt live. -/
theorem attempts_markFailure (a : AttemptObj) (stage : FailureStage) (cls : FailureClass)
    (t : Txn) (c : Core) (ht : t.writes = [a.write (markFailure stage cls a.row)]) :
    (t.attempts c).map activeWithSession = c.attempts.map activeWithSession := by
  unfold Txn.attempts
  rw [ht]
  refine flush_map _ (fun w hw x => ?_) _
  obtain rfl := List.mem_singleton.mp hw
  simp [activeWithSession, Attempt.merge, AttemptObj.write, markFailure, pick]

theorem parkWrites_isEmpty (as : List Attempt) :
    (parkWrites as).isEmpty = !as.any activeWithSession := by
  have hany : as.any activeWithSession = as.zipIdx.any (fun x => activeWithSession x.1) := by
    conv_lhs => rw [← List.zipIdx_map_fst 0 as, List.any_map]
    rfl
  unfold parkWrites attemptWrites attemptObjs
  rw [hany, List.isEmpty_map, List.filter_map, List.isEmpty_map]
  cases hlive : as.zipIdx.any (fun x => activeWithSession x.1) with
  | true =>
      obtain ⟨x, hx, hactive⟩ := List.any_eq_true.mp hlive
      rw [Bool.not_true, List.isEmpty_eq_false_iff_exists_mem]
      exact ⟨x, List.mem_filter.mpr ⟨hx, hactive⟩⟩
  | false =>
      rw [Bool.not_false, List.isEmpty_iff, List.filter_eq_nil_iff]
      exact List.any_eq_false.mp hlive

section Record

variable {r : Runner} {a : AttemptObj} {s s' : Store} {l : List (Input × Store)}

/-- What failing the stage adds to a transaction that has neither moved the case nor written a
row: no attempt is live, so that the case fails at once. -/
theorem failStage_prValidating (stage : FailureStage) (cls : FailureClass) {t : Txn}
    (hquiet : ∀ row ∈ s.core.attempts, activeWithSession row = false) (hw : t.writes = [])
    (hm : t.moves = []) :
    ∃ t', r.failStage .prValidating a stage cls t s =
        (t', .remediationFailed, some ⟨a.id, markFailure stage cls a.row⟩) ∧
      t'.moves = [r.move .prValidating .remediationFailed] ∧ t'.insert = t.insert ∧
      t'.evidence = t.evidence := by
  have hlive := attempts_markFailure a stage cls
    { t with
      writes := t.writes ++ [a.write (markFailure stage cls a.row)]
      failureReason := some (some .other), failing := true } s.core (by simp [hw])
  have hnone : (parkWrites (Txn.attempts { t with
      writes := t.writes ++ [a.write (markFailure stage cls a.row)]
      failureReason := some (some .other), failing := true } s.core)).isEmpty = true := by
    rw [parkWrites_isEmpty, Bool.not_eq_true', List.any_eq_false]
    intro row hrow hactive
    have hmem : true ∈ s.core.attempts.map activeWithSession := by
      rw [← hlive, ← hactive]
      exact List.mem_map_of_mem hrow
    obtain ⟨row', hrow', hactive'⟩ := List.mem_map.mp hmem
    rw [hquiet row' hrow'] at hactive'
    cases hactive'
  unfold Runner.failStage failCase
  dsimp only [CaseState.terminal]
  rw [hnone]
  exact ⟨_, rfl, by rw [hm]; rfl, rfl, rfl⟩

/-- The state that a verdict leads to. -/
def PullVerdict.next (v : PullVerdict) (withoutProbe : Bool) : CaseState :=
  if v.problems then .remediationFailed
  else if v.human then .remediationHumanBlocked
  else if withoutProbe then .prValidated
  else .probeValidatingHead

/-- The worker holds the case in `PR_VALIDATING`. -/
def Runner.Holds (r : Runner) (s : Store) : Prop :=
  s.case.state = .prValidating ∧ (r.claim = none ∨ s.case.claimedBy = r.claim)

theorem Runner.Holds.move_ok (h : r.Holds s) {dst : CaseState} {free : Bool}
    (hdst : dst ∈ CaseState.prValidating.allowed free) :
    Move.ok ⟨.prValidating, dst, .worker, r.claim, free⟩ s.case = true := by
  unfold Move.ok
  rcases h.2 with hnone | hclaim
  · simp [h.1, hdst, hnone]
  · simp [h.1, hdst, hclaim]

/-- A body with one possible move commits. -/
theorem tx_moves {α : Type} {body : Input → Store → Except Err (Txn × α)} {res : Except Err α}
    {rows : List PullRequestEvidence} (dst : CaseState) (free : Bool)
    (h : (tx r.owner body).Runs Op.apply Aside s l res s') (hheld : r.Holds s)
    (hun : Undisturbed l) (hdst : dst ∈ CaseState.prValidating.allowed free)
    (hbody : ∀ i s₁, Aside s s₁ → ∃ t x, body i s₁ = .ok (t, x) ∧
      t.moves = [⟨.prValidating, dst, .worker, r.claim, free⟩] ∧ t.insert = none ∧
      t.evidence = rows) :
    s'.core.evidence = s.core.evidence ++ rows ∧ s'.case.state = dst := by
  obtain ⟨i, s₁, haside, rfl, hout⟩ := runs_tx h
  obtain ⟨t, x, hok, hmoves, hinsert, hevidence⟩ := hbody i s₁ haside
  have hheld₁ : r.Holds s₁ := by
    unfold Runner.Holds
    rw [haside.case]
    exact hheld
  rw [outcome_move (hun _ List.mem_cons_self) hok hmoves hinsert,
    if_pos (hheld₁.move_ok hdst)] at hout
  rw [hout.2, commit_evidence, commit_state _ hmoves, hevidence, haside.core]
  exact ⟨rfl, rfl⟩

/-- The evidence is stored with the verdict, in the transaction that moves the case. -/
theorem recordPull_stores (pull : PullRequest) (v : PullVerdict) {res : Except Err StageResult}
    (hheld : r.Holds s) (hquiet : ∀ row ∈ s.core.attempts, activeWithSession row = false)
    (hun : Undisturbed l)
    (h : (r.recordPull .prValidating a pull v).Runs Op.apply Aside s l res s') :
    s'.core.evidence =
        s.core.evidence ++ [⟨a.id, pull.htmlUrl, pull.headSha, !v.problems && !v.human⟩] ∧
      s'.case.state = v.next a.row.withoutProbe := by
  unfold Runner.recordPull at h
  unfold PullVerdict.next
  cases hproblems : v.problems with
  | true =>
      refine tx_moves .remediationFailed false h hheld hun (by decide) fun i s₁ haside => ?_
      rw [← haside.core] at hquiet
      obtain ⟨t, hstage, hmoves, hinsert, hevidence⟩ :=
        failStage_prValidating (r := r) (a := a) .pr .verification hquiet
          (t := { r.txn with
            evidence := [⟨a.id, pull.htmlUrl, pull.headSha, !v.problems && !v.human⟩] }) rfl rfl
      refine ⟨t, (.remediationFailed, some ⟨a.id, markFailure .pr .verification a.row⟩), ?_, hmoves,
        hinsert, ?_⟩
      · dsimp only
        rw [if_pos hproblems, hstage]
      · rw [hevidence, hproblems]
  | false =>
      cases hhuman : v.human with
      | true =>
          refine tx_moves .remediationHumanBlocked false h hheld hun (by decide) fun i s₁ _ => ?_
          dsimp only
          rw [hproblems, hhuman]
          exact ⟨_, _, rfl, rfl, rfl, rfl⟩
      | false =>
          cases hprobe : a.row.withoutProbe with
          | true =>
              refine tx_moves .prValidated true h hheld hun (by decide) fun i s₁ _ => ?_
              dsimp only
              rw [hproblems, hhuman, hprobe]
              exact ⟨_, _, rfl, rfl, rfl, rfl⟩
          | false =>
              refine tx_moves .probeValidatingHead false h hheld hun (by decide) fun i s₁ _ => ?_
              dsimp only
              rw [hproblems, hhuman, hprobe]
              exact ⟨_, _, rfl, rfl, rfl, rfl⟩

end Record

/-! ## The conditions -/

/-- A full commit hash. -/
def FullSha (sha : String) : Prop := sha.length = 40 ∧ ∀ c ∈ sha.toList, hexChar c = true

theorem isSha_iff {sha : String} (h : sha.length = 40) : isSha sha = true ↔ FullSha sha := by
  have hlen : sha.toList.length = 40 := by rwa [String.length_toList]
  unfold isSha FullSha
  by_cases hlast : sha.toList.getLast? = some '\n'
  · -- a line feed at the end leaves 39 characters, and is no digit of a hash
    have hmem : '\n' ∈ sha.toList := List.mem_of_getLast? hlast
    rw [if_pos hlast]
    constructor
    · intro hsha
      rw [Bool.and_eq_true, decide_eq_true_eq, List.length_dropLast] at hsha
      omega
    · intro hfull
      exact absurd (hfull.2 _ hmem) (by decide)
  · rw [if_neg hlast]
    simp [hlen, h]

/-- What GitHub answers, without an exception that makes the worker try again: `none` is a source
that is unavailable. -/
structure GitHubAnswers where
  pull : PullRequest
  /-- `compare_commits(..).status` -/
  compare : Option String
  closing : Option (List Int)
  timeline : Option (List Int)
  files : Option (List String)

def answered {α : Type} : Option α → Answer α
  | some a => .ok a
  | none => .refused

/-- A client that gives the answers. -/
def GitHubAnswers.client (g : GitHubAnswers) : GitHub where
  getPullRequest := ask (fun _ => .ok (some g.pull))
  compareCommits := ask (fun _ => answered g.compare)
  closingIssueReferences := ask (fun _ => answered g.closing)
  pullRequestsReferencingIssue := ask (fun _ => answered g.timeline)
  listPullRequestFiles := ask (fun _ => answered g.files)

/-- The issue is linked by the strongest source that is available. -/
def Linked (cfg : Settings) (g : GitHubAnswers) (number : Nat) : Prop :=
  match g.closing with
  | some refs => (cfg.issueNumber : Int) ∈ refs
  | none =>
      match g.timeline with
      | some timeline => (number : Int) ∈ timeline
      | none => issueReferenceInBody cfg g.pull.body = true

section Conditions

variable (cfg : Settings) (g : GitHubAnswers) (a : Attempt) (result : RemediationResult)
  (number : Nat)

/-- What the pull request itself has to look like, at a full base commit. -/
structure Identified : Prop where
  repository : g.pull.repository.toLower = cfg.repository.toLower
  headRepository : g.pull.headRepository.toLower = cfg.repository.toLower
  url : stripSlashes g.pull.htmlUrl = stripSlashes (a.prUrl.getD "")
  notMerged : g.pull.merged = false
  isOpen : g.pull.state = "open"
  baseRef : g.pull.baseRef = cfg.githubBaseRef
  headRefPrefix : cfg.branchPrefix.toList <+: g.pull.headRef.toList
  headRef : result.branch = some g.pull.headRef
  headSha : a.headSha = some g.pull.headSha
  author : g.pull.authorLogin.toLower ∈ cfg.prAuthorLogins
  base : ∃ sha, a.baseSha = some sha ∧ FullSha sha

/-- All conditions on a pull request. -/
structure Verified : Prop extends Identified cfg g a result where
  ahead : g.compare = some "ahead"
  linked : Linked cfg g number
  closing : ∀ refs, g.closing = some refs → refs.length ≤ 1
  files : ∃ files, g.files = some files ∧ (∀ f ∈ files, forbidden cfg f = false) ∧
    files.length ≤ cfg.maxChangedFiles ∧ ∀ f ∈ files, f ∈ result.changedFiles

/-- The hard conditions; a head that has diverged from the base is for a human. -/
structure Corroborated : Prop extends Identified cfg g a result where
  ancestry : g.compare = some "ahead" ∨ g.compare = some "diverged"
  linked : Linked cfg g number
  files : ∃ files, g.files = some files ∧ ∀ f ∈ files, forbidden cfg f = false

/-- The conditions that a human may waive. -/
structure Unremarkable : Prop where
  ahead : g.compare ≠ some "diverged"
  closing : ∀ refs, g.closing = some refs → refs.length ≤ 1
  files : ∀ files, g.files = some files → files.length ≤ cfg.maxChangedFiles ∧
    ∀ f ∈ files, f ∈ result.changedFiles

/-- The comparison as the stage gets it: it is not asked for without a full base commit. -/
def GitHubAnswers.compared (a : Attempt) : Option String :=
  if isSha (a.baseSha.getD "") then g.compare else none

/-- `closes` on the answers. -/
def GitHubAnswers.linked : Bool :=
  match g.closing with
  | some refs => refs.contains (cfg.issueNumber : Int)
  | none =>
      match g.timeline with
      | some timeline => timeline.contains (number : Int)
      | none => issueReferenceInBody cfg g.pull.body

/-- The verdict on the answers. -/
def GitHubAnswers.verdict : PullVerdict :=
  judgePull cfg a result g.pull (g.compared a) g.closing (g.linked cfg number) g.files

variable {cfg g a result number}

theorem linked_iff : g.linked cfg number = true ↔ Linked cfg g number := by
  unfold GitHubAnswers.linked Linked
  cases g.closing with
  | some refs => exact List.contains_iff_mem
  | none =>
      cases g.timeline with
      | some timeline => exact List.contains_iff_mem
      | none => exact Iff.rfl

/-- The base commit is a full hash exactly when the comparison is asked for. -/
theorem base_iff (hbase : ∀ sha, a.baseSha = some sha → sha.length = 40) :
    isSha (a.baseSha.getD "") = true ↔ ∃ sha, a.baseSha = some sha ∧ FullSha sha := by
  cases hsha : a.baseSha with
  | none => simp [isSha]
  | some sha =>
      rw [Option.getD_some, isSha_iff (hbase sha hsha)]
      exact ⟨fun h => ⟨sha, rfl, h⟩, fun ⟨_, heq, h⟩ => Option.some.inj heq ▸ h⟩

/-- No check fails exactly when the hard conditions hold. -/
theorem problems_iff (hbase : ∀ sha, a.baseSha = some sha → sha.length = 40) :
    (g.verdict cfg a result number).problems = false ↔ Corroborated cfg g a result number := by
  have hancestry : (isSha (a.baseSha.getD "") &&
      (decide (g.compared a = some "ahead") || decide (g.compared a = some "diverged"))) = true ↔
        (∃ sha, a.baseSha = some sha ∧ FullSha sha) ∧
          (g.compare = some "ahead" ∨ g.compare = some "diverged") := by
    rw [Bool.and_eq_true, ← base_iff hbase]
    refine and_congr_right fun hsha => ?_
    unfold GitHubAnswers.compared
    rw [if_pos hsha, Bool.or_eq_true, decide_eq_true_eq, decide_eq_true_eq]
  have hfiles : (!g.files.isNone && !(g.files.getD []).any (forbidden cfg)) = true ↔
      ∃ files, g.files = some files ∧ ∀ f ∈ files, forbidden cfg f = false := by
    cases g.files with
    | none => simp
    | some files => simp
  have hverdict : (g.verdict cfg a result number).problems = false ↔
      (decide (g.pull.repository.toLower = cfg.repository.toLower) &&
        decide (g.pull.headRepository.toLower = cfg.repository.toLower) &&
        decide (stripSlashes g.pull.htmlUrl = stripSlashes (a.prUrl.getD "")) &&
        !g.pull.merged && decide (g.pull.state = "open") &&
        decide (g.pull.baseRef = cfg.githubBaseRef) &&
        hasPrefix cfg.branchPrefix g.pull.headRef &&
        decide (some g.pull.headRef = result.branch) &&
        decide (some g.pull.headSha = a.headSha) &&
        cfg.prAuthorLogins.contains g.pull.authorLogin.toLower) = true ∧
      (isSha (a.baseSha.getD "") &&
        (decide (g.compared a = some "ahead") || decide (g.compared a = some "diverged"))) = true ∧
      g.linked cfg number = true ∧
      (!g.files.isNone && !(g.files.getD []).any (forbidden cfg)) = true := by
    unfold GitHubAnswers.verdict judgePull
    dsimp only
    rw [← Bool.not_eq_true', Bool.not_or, Bool.not_or, Bool.not_or, Bool.not_or]
    simp only [Bool.not_not, Bool.and_eq_true, and_assoc]
  rw [hverdict, hancestry, linked_iff, hfiles]
  simp only [Bool.and_eq_true, decide_eq_true_eq, Bool.not_eq_true', List.contains_iff_mem,
    hasPrefix, List.isPrefixOf_iff_prefix]
  constructor
  · rintro ⟨⟨⟨⟨⟨⟨⟨⟨⟨⟨hrepo, hhead⟩, hurl⟩, hmerged⟩, hopen⟩, href⟩, hstarts⟩, hbranch⟩, hsha⟩, hauthor⟩,
      ⟨hfull, hcompare⟩, hlinked, hfiles⟩
    exact ⟨⟨hrepo, hhead, hurl, hmerged, hopen, href, hstarts, hbranch.symm, hsha.symm, hauthor,
      hfull⟩, hcompare, hlinked, hfiles⟩
  · intro h
    exact ⟨⟨⟨⟨⟨⟨⟨⟨⟨⟨h.repository, h.headRepository⟩, h.url⟩, h.notMerged⟩, h.isOpen⟩, h.baseRef⟩,
      h.headRefPrefix⟩, h.headRef.symm⟩, h.headSha.symm⟩, h.author⟩, ⟨h.base, h.ancestry⟩,
      h.linked, h.files⟩

/-- With the hard conditions, there is nothing for a human exactly when the others hold. -/
theorem human_iff (hbase : ∀ sha, a.baseSha = some sha → sha.length = 40)
    (h : Corroborated cfg g a result number) :
    (g.verdict cfg a result number).human = false ↔ Unremarkable cfg g result := by
  have hsha := (base_iff hbase).mpr h.base
  obtain ⟨files, hfiles, hallowed⟩ := h.files
  have htouched : files.any (forbidden cfg) = false := by
    rw [List.any_eq_false]
    exact fun f hf => by rw [hallowed f hf]; decide
  have hclosing : decide (1 < (g.closing.getD []).length) = false ↔
      ∀ refs, g.closing = some refs → refs.length ≤ 1 := by
    rw [decide_eq_false_iff_not]
    cases g.closing with
    | none => simp
    | some refs => simp
  unfold GitHubAnswers.verdict judgePull GitHubAnswers.compared
  dsimp only
  rw [hsha, hfiles]
  simp only [if_true, Option.getD_some, htouched, Bool.true_and, Bool.not_false, Bool.and_true,
    Bool.or_eq_false_iff, hclosing]
  constructor
  · rintro ⟨⟨⟨hahead, hrefs⟩, hsize⟩, hdeclared⟩
    refine ⟨by simpa using hahead, hrefs, fun files' hfiles' => ?_⟩
    obtain rfl := Option.some.inj (hfiles.symm.trans hfiles')
    exact ⟨by simpa using hsize, by simpa using hdeclared⟩
  · intro hclean
    obtain ⟨hsize, hdeclared⟩ := hclean.files files hfiles
    exact ⟨⟨⟨by simpa using hclean.ahead, hclean.closing⟩, by simpa using hsize⟩,
      by simpa using hdeclared⟩

theorem verified_iff :
    Verified cfg g a result number ↔
      Corroborated cfg g a result number ∧ Unremarkable cfg g result := by
  constructor
  · intro h
    obtain ⟨files, hfiles, hallowed, hsize, hdeclared⟩ := h.files
    refine ⟨⟨h.toIdentified, Or.inl h.ahead, h.linked, files, hfiles, hallowed⟩,
      by rw [h.ahead]; decide, h.closing, fun files' hfiles' => ?_⟩
    obtain rfl := Option.some.inj (hfiles.symm.trans hfiles')
    exact ⟨hsize, hdeclared⟩
  · rintro ⟨h, hclean⟩
    obtain ⟨files, hfiles, hallowed⟩ := h.files
    obtain ⟨hsize, hdeclared⟩ := hclean.files files hfiles
    exact ⟨h.toIdentified, h.ancestry.resolve_right hclean.ahead, h.linked, hclean.closing,
      files, hfiles, hallowed, hsize, hdeclared⟩

end Conditions

/-! ## The stage -/

theorem gh_answered {α : Type} (x : Option α) :
    Settles (gh (ask (fun _ => answered x))) (.ok x) := by
  cases x with
  | some x => exact gh_settles (.ask (Answer.ok x))
  | none => exact gh_settles (.ask Answer.refused)

/-- The calls of the answers. -/
def GitHubAnswers.calls (g : GitHubAnswers) : Calls where
  pull := .ok (some (some g.pull))
  compare := .ok g.compare
  closing := .ok g.closing
  timeline := .ok g.timeline
  files := .ok g.files

theorem GitHubAnswers.gives (g : GitHubAnswers) : g.client.Gives g.calls where
  pull := gh_answered (some (some g.pull))
  compare := gh_answered g.compare
  closing := gh_answered g.closing
  timeline := gh_answered g.timeline
  files := gh_answered g.files

theorem GitHubAnswers.calls_verdict (g : GitHubAnswers) (cfg : Settings) (a : Attempt)
    (result : RemediationResult) (number : Nat) :
    g.calls.verdict cfg a result number g.pull = .ok (g.verdict cfg a result number) := by
  have hlinked : g.calls.linked cfg number g.pull = .ok (g.closing, g.linked cfg number) := by
    unfold Calls.linked GitHubAnswers.linked GitHubAnswers.calls
    cases hclosing : g.closing with
    | some refs => rfl
    | none =>
        dsimp only [Except.bind]
        cases g.timeline with
        | some timeline => rfl
        | none => rfl
  unfold Calls.verdict GitHubAnswers.verdict GitHubAnswers.compared
  rw [hlinked]
  split
  · rfl
  · rfl

/-- An attempt in `PR_VALIDATING` with a schema-valid output, and its case. The base commit went
into the operation tag, which takes 40 characters only, and the session of the attempt is over:
`OUTPUT_VALIDATING` is entered when it finishes. -/
structure Validating (r : Runner) (s : Store) (a : AttemptObj) (result : RemediationResult)
    (number : Nat) : Prop extends Claimed r.cfg a.row result number where
  held : r.Holds s
  base : ∀ sha, a.row.baseSha = some sha → sha.length = 40
  quiet : ∀ row ∈ s.core.attempts, activeWithSession row = false

/-- Between the two stores, the evidence of the attempt is stored with the verdict `valid`. -/
def Stores (g : GitHubAnswers) (a : AttemptObj) (valid : Bool) (s s' : Store) : Prop :=
  s'.core.evidence = s.core.evidence ++ [⟨a.id, g.pull.htmlUrl, g.pull.headSha, valid⟩]

theorem Stores.unique {g : GitHubAnswers} {a : AttemptObj} {v v' : Bool} {s s' : Store}
    (h : Stores g a v s s') (h' : Stores g a v' s s') : v = v' := by
  have hrows := List.append_cancel_left (h.symm.trans h')
  simpa using hrows

/-- What the stage does with the answers. -/
structure Judged (cfg : Settings) (g : GitHubAnswers) (a : AttemptObj) (result : RemediationResult)
    (number : Nat) (s s' : Store) : Prop where
  verified : Stores g a true s s' ∧
    s'.case.state = (if a.row.withoutProbe then .prValidated else .probeValidatingHead) ↔
      Verified cfg g a.row result number
  rejected : ¬Verified cfg g a.row result number → Stores g a false s s'
  failed : ¬Corroborated cfg g a.row result number → s'.case.state = .remediationFailed
  blocked : Corroborated cfg g a.row result number → ¬Verified cfg g a.row result number →
    s'.case.state = .remediationHumanBlocked

/-- **The validation of a pull request is sound and complete.** Whatever GitHub answers without an
exception, valid evidence is stored and the case advances exactly when every condition holds; if
not, the stored evidence is invalid, and the case fails when a hard condition fails and is blocked
for a human when only others do. -/
theorem validatePullRequest_judges (r : Runner) (g : GitHubAnswers) (a : AttemptObj)
    (result : RemediationResult) (number : Nat) {s s' : Store} {l : List (Input × Store)}
    {res : Except Err StageResult} (ha : Validating r s a result number) (hun : Undisturbed l)
    (h : (r.validatePullRequest g.client .prValidating a).Runs Op.apply Aside s l res s') :
    Judged r.cfg g a result number s s' := by
  have hleads := validatePullRequest_leads ha.toClaimed g.gives hun h
  have hverdict := g.calls_verdict r.cfg a.row result number
  dsimp only [GitHubAnswers.calls] at hleads hverdict
  rw [hverdict] at hleads
  obtain ⟨s₁, l₁, haside, hun₁, hrecord⟩ := hleads
  have hheld : r.Holds s₁ := by
    unfold Runner.Holds
    rw [haside.case]
    exact ha.held
  have hquiet := ha.quiet
  rw [← haside.core] at hquiet
  obtain ⟨hevidence, hstate⟩ := recordPull_stores g.pull _ hheld hquiet hun₁ hrecord
  rw [haside.core] at hevidence
  have hproblems : (g.verdict r.cfg a.row result number).problems = false ↔
      Corroborated r.cfg g a.row result number := problems_iff ha.base
  by_cases hcor : Corroborated r.cfg g a.row result number
  · have hhuman := human_iff ha.base hcor
    rw [hproblems.mpr hcor] at hevidence
    unfold PullVerdict.next at hstate
    rw [hproblems.mpr hcor] at hstate
    by_cases hclean : Unremarkable r.cfg g result
    · have hall := verified_iff.mpr ⟨hcor, hclean⟩
      rw [hhuman.mpr hclean] at hevidence hstate
      exact {
        verified := ⟨fun _ => hall, fun _ => ⟨hevidence, hstate⟩⟩
        rejected := fun h => absurd hall h
        failed := fun h => absurd hcor h
        blocked := fun _ h => absurd hall h }
    · have hno : ¬Verified r.cfg g a.row result number := fun h => hclean (verified_iff.mp h).2
      rw [eq_true_of_ne_false (fun h => hclean (hhuman.mp h))] at hevidence hstate
      exact {
        verified := ⟨fun h => absurd (h.1.unique hevidence) (by decide), fun h => absurd h hno⟩
        rejected := fun _ => hevidence
        failed := fun h => absurd hcor h
        blocked := fun _ _ => hstate }
  · have hno : ¬Verified r.cfg g a.row result number := fun h => hcor (verified_iff.mp h).1
    unfold PullVerdict.next at hstate
    rw [eq_true_of_ne_false (fun h => hcor (hproblems.mp h))] at hevidence hstate
    exact {
      verified := ⟨fun h => absurd (h.1.unique hevidence) (by simp), fun h => absurd h hno⟩
      rejected := fun _ => hevidence
      failed := fun _ => hstate
      blocked := fun h => absurd h hcor }

/-! ### A pull request that passes -/

def demoBase : String := "2fd4e1c67a2d28fced849ee1bb76e7391b93eb12"

def demoResult : RemediationResult where
  outcome := .prCreated
  baseSha := demoBase
  probeHash := none
  probeIdentifier := none
  issueReference := ("apache/superset", 4213)
  prUrl := some "https://github.com/apache/superset/pull/77"
  branch := some "devin/fix-4213"
  headSha := some "de9f2c7f"
  changedFiles := ["superset/sql_lab.py"]

def demoAttempt : AttemptObj where
  id := 0
  row := {
    kind := .remediation, ordinal := 1, operationKey := .remediation "03ac6742" demoBase 1
    startedAt := 0, baseSha := some demoBase, status := .succeeded, finishedAt := some 1
    structuredOutput := some "output", prNumber := some 77, headSha := some "de9f2c7f"
    prUrl := some "https://github.com/apache/superset/pull/77" }

/-- A worker whose attempt reported the document. -/
def demoWorker : Runner where
  cfg := { demoSettings with validateRemediation := fun _ _ => some demoResult }
  owner := 1
  claim := some 1
  rounds := 0

def demoValidating : Store where
  case := { created := true, state := .prValidating, claimedBy := some 1 }
  core := { attempts := [demoAttempt.row] }

def demoPull : PullRequest where
  repository := "apache/superset"
  headRepository := "apache/superset"
  htmlUrl := "https://github.com/apache/superset/pull/77"
  merged := false
  state := "open"
  baseRef := "master"
  headRef := "devin/fix-4213"
  headSha := "de9f2c7f"
  authorLogin := "devin-ai-integration[bot]"
  body := "Fixes #4213"

/-- GitHub's own references are not available; the timeline is. -/
def demoAnswers : GitHubAnswers where
  pull := demoPull
  compare := some "ahead"
  closing := none
  timeline := some [77]
  files := some ["superset/sql_lab.py"]

theorem demo_validating : Validating demoWorker demoValidating demoAttempt demoResult 77 where
  output := rfl
  number := rfl
  headSha := ⟨_, rfl⟩
  held := ⟨rfl, Or.inr rfl⟩
  base := by
    intro sha hsha
    obtain rfl := Option.some.inj hsha
    decide
  quiet := by
    intro row hrow
    obtain rfl := List.mem_singleton.mp hrow
    rfl

theorem demo_verified : Verified demoWorker.cfg demoAnswers demoAttempt.row demoResult 77 where
  repository := rfl
  headRepository := rfl
  url := rfl
  notMerged := rfl
  isOpen := rfl
  baseRef := rfl
  headRefPrefix := by decide
  headRef := rfl
  headSha := rfl
  author := by decide +kernel
  base := by
    have hhex : demoBase.toList.all hexChar = true := by decide
    exact ⟨demoBase, rfl, by decide, fun c hc => List.all_eq_true.mp hhex c hc⟩
  ahead := rfl
  linked := List.mem_singleton.mpr rfl
  closing := nofun
  files := ⟨_, rfl, by decide, by decide, by decide⟩

theorem validatePullRequest_judges_demo :
    ∃ s', Judged demoWorker.cfg demoAnswers demoAttempt demoResult 77 demoValidating s' ∧
      Stores demoAnswers demoAttempt true demoValidating s' ∧
      s'.case.state = .probeValidatingHead := by
  obtain ⟨l, hrun, hl⟩ := Prog.runs_alone Op.apply
    (demoWorker.validatePullRequest demoAnswers.client .prValidating demoAttempt) {}
    (R := Aside) .refl demoValidating
  have hjudged := validatePullRequest_judges demoWorker demoAnswers demoAttempt demoResult 77
    demo_validating (fun x hx => by rw [hl x hx]) hrun
  exact ⟨_, hjudged, hjudged.verified.mpr demo_verified⟩

end Remediator
