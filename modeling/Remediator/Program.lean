import Remediator.Lib.Interleave
import Remediator.Store

set_option autoImplicit false

/-! # Programs on the store

The coroutines of the worker, the outbox and the API are programs (`Interleave.Prog`) over the
store: between two of their actions every other coroutine may run, and a process may die. An
action is one transaction or one call to a remote service. A transaction that raises is rolled
back, so it writes nothing.
-/

namespace Remediator

open Interleave

/-- The exceptions the callers tell apart. `halt` stands for a coroutine that is not resumed:
no handler runs. -/
inductive Err
  | invalidTransition
  | transientDb
  /-- the database rejects a value -/
  | data
  | integrity
  | capacityWait
  | transientVerification
  | other
  | halt
  deriving DecidableEq

/-- What can go wrong at any action: the database connection, a value that the database does not
store, or anything unexpected. -/
inductive Fault
  | transientDb
  | data
  | other
  deriving DecidableEq

def Fault.err : Fault → Err
  | transientDb => .transientDb
  | data => .data
  | other => .other

/-! ## Settings and remote answers -/

/-- The document `validate_remediation_output` accepts. -/
inductive RemediationOutcome
  | prCreated
  | noChangeNeeded
  | needsHuman
  | failed
  deriving DecidableEq

structure RemediationResult where
  outcome : RemediationOutcome
  baseSha : String
  probeHash : Option String
  probeIdentifier : Option String
  /-- `issue_reference_parts`: lower-cased repository and issue number -/
  issueReference : String × Nat
  prUrl : Option String
  branch : Option String
  headSha : Option String
  changedFiles : List String

/-- The settings, the identity of the case, and the pure functions the program takes from its
libraries: JSON-schema validation of the two structured outputs, SHA-256, the SHA-256 of the
canonical triage document, and the word characters of regular expressions. -/
structure Settings where
  repository : String
  issueNumber : Nat
  repositoryAllowed : Bool
  githubBaseRef : String
  remediationLabel : String
  approverUserIds : List String
  probeRequired : Bool
  maxAttemptsPerKind : Nat
  eventMaxAttempts : Nat
  outboxMaxAttempts : Nat
  reconcileMaxAttempts : Nat
  workerLeaseSeconds : Nat
  outboxLeaseSeconds : Nat
  triageTimeoutSeconds : Nat
  remediationTimeoutSeconds : Nat
  ciTimeoutSeconds : Nat
  tokenTtlSeconds : Nat
  capacityWaitBackoffSeconds : Nat
  devinPollIntervalSeconds : Nat
  ciPollIntervalSeconds : Nat
  humanBlockedReconcileIntervalSeconds : Nat
  branchPrefix : String
  prAuthorLogins : List String
  probeRoot : String
  maxChangedFiles : Nat
  requiredChecks : List String
  /-- `validate_triage_output(..).raw` -/
  validateTriage : Doc → Option Doc
  /-- `hashlib.sha256(text).hexdigest()` -/
  sha256 : String → String
  triageResultHash : Doc → String
  /-- `validate_remediation_output(output, probe=..)` -/
  validateRemediation : Doc → Bool → Option RemediationResult
  /-- `\w`, which is wider than ASCII -/
  wordChar : Char → Bool := fun c => c.isAlphanum || c = '_'

/-- One run of the probe by the verifier: `VerifierBusyError`, or a result. -/
structure ProbeRun extends ProbeRunResult where
  busy : Bool := false

/-- What GitHub answers about the issue at dispatch. -/
structure IssueAnswer where
  retryable : Bool := false
  refused : Bool := false
  labels : List String := []
  state : String := "open"

/-- `load_approved_probe`. -/
inductive RegistryAnswer
  | probe (p : ProbeSnapshot)
  | missing
  | invalid

/-- `PullRequestSnapshot`. -/
structure PullRequest where
  repository : String
  headRepository : String
  htmlUrl : String
  merged : Bool
  state : String
  baseRef : String
  headRef : String
  headSha : String
  authorLogin : String
  body : String

/-- `CheckRun`. -/
structure CheckRun where
  name : String
  status : String
  conclusion : Option String
  deriving DecidableEq

/-- An answer of the GitHub API: a value, a retryable failure or a refusal. -/
inductive Answer (α : Type)
  | ok (a : α)
  | retryable
  | refused

/-- What the environment answers to one action; an action reads the field it needs. -/
structure Input where
  /-- the exception this action raises instead -/
  fault : Option Fault := none
  /-- capacity is granted, a prompt is rendered, a base commit resolves, an operator confirms -/
  yes : Bool := true
  post : PostResult := .created
  get : GetResult := .error
  delete : DeleteResult := .deleted
  /-- sessions a lookup by tag fails to list -/
  hidden : List SessionId := []
  sha : String := ""
  probe : ProbeRun := {}
  issue : IssueAnswer := {}
  registry : RegistryAnswer := .missing
  pull : Answer (Option PullRequest) := .retryable
  /-- `compare_commits(..).status` -/
  compare : Answer String := .retryable
  /-- the references; `None` counts as a refusal, also of the timeline -/
  closing : Answer (List Int) := .retryable
  timeline : Answer (List Int) := .retryable
  files : Answer (List String) := .retryable
  checks : Answer (List CheckRun) := .retryable
  /-- the `POST` of a label, a Slack call or a comment call -/
  call : Answer Unit := .ok ()
  /-- the `POST` of a label that is not answered with success took effect -/
  landed : Bool := false
  /-- an earlier Slack message or comment is found -/
  found : Bool := false
  /-- the rows of the outbox before this one are not due, or others are due for longer -/
  due : Nat := 0
  /-- `generate_action_token()` -/
  token : String := ""
  /-- the refusal, when capacity is not granted -/
  denied : Capacity.Denied := ⟨.triage, "", 0, 0, 0⟩

abbrev P := Prog Store Input Op Err

/-! ## Actions -/

/-- The outcome of a transaction body: it raises, or its moves are not possible any more, or it
breaks a unique index, or it commits. -/
def Txn.outcome {α : Type} (body : Input → Store → Except Err (Txn × α)) (i : Input) (s : Store) :
    Except Err (Txn × α) :=
  match i.fault with
  | some f => .error f.err
  | none =>
      match body i s with
      | .error e => .error e
      | .ok (t, a) =>
          if movesOk t.moves s.case = false then .error .invalidTransition
          else if t.unique s.core = false then .error .integrity
          else .ok (t, a)

/-- One transaction of the owner `o`. -/
def tx {α : Type} (o : Owner) (body : Input → Store → Except Err (Txn × α)) : P α :=
  .act
    (fun i s => match Txn.outcome body i s with
      | .ok (t, _) => .commit o t
      | .error _ => .skip)
    (fun i s => match Txn.outcome body i s with
      | .ok (_, a) => .ret a
      | .error e => .raise e)

/-- The rest of an action that may fail unexpectedly after its operation. -/
def unlessFault {α : Type} (i : Input) (a : α) : P α :=
  match i.fault with
  | some f => .raise f.err
  | none => .ret a

/-- A call to a remote service that has no effect on the store. -/
def ask {α : Type} (answer : Input → α) : P α :=
  .act (fun _ _ => .skip) (fun i _ => unlessFault i (answer i))

/-- `create_session`; the answer to a successful `POST` carries the id of the new session. -/
def createSession (o : Owner) (a : Nat) : P (PostResult × SessionId) :=
  .act (fun i _ => .post o a i.post) (fun i s => unlessFault i (i.post, s.sessions.length))

/-- `get_session`. -/
def getSession (sid : SessionId) (purpose : GetPurpose) : P GetResult :=
  .act (fun i _ => .get sid purpose i.get) (fun i _ => unlessFault i i.get)

/-- `terminate_session`. -/
def terminateSession (sid : SessionId) : P DeleteResult :=
  .act (fun i _ => .delete sid i.delete) (fun i _ => unlessFault i i.delete)

/-- The sessions that carry the operation key of the attempt, less the hidden ones. -/
def sessionsByTag (hidden : List SessionId) (a : Nat) (s : Store) : List SessionId :=
  (List.range s.sessions.length).filter (fun x =>
    decide (s.sessions[x]?.map (·.attempt) = some a) && !hidden.contains x)

/-- `find_sessions_by_tag`; `none` when it raises `DevinError`. -/
def findSessionsByTag (a : Nat) (purpose : FindPurpose) : P (Option (List SessionId)) :=
  .act
    (fun i s => if i.yes then .find a purpose (sessionsByTag i.hidden a s) else .skip)
    (fun i s => unlessFault i (if i.yes then some (sessionsByTag i.hidden a s) else none))

/-- The labels of the issue: the remediation label is as GitHub has it. -/
def labelsSeen (cfg : Settings) (s : Store) (others : List String) : List String :=
  if s.label.present then cfg.remediationLabel :: others
  else others.filter (fun l => decide (l ≠ cfg.remediationLabel))

/-- `get_issue`. -/
def getIssue (cfg : Settings) : P IssueAnswer :=
  .act (fun _ _ => .skip)
    (fun i s => unlessFault i { i.issue with labels := labelsSeen cfg s i.issue.labels })

/-- The `POST` of the remediation label. -/
def postLabel : P (Answer Unit) :=
  .act
    (fun i _ => match i.call with
      | .ok _ => .setLabel true
      | _ => if i.landed then .setLabel true else .skip)
    (fun i _ => unlessFault i i.call)

/-- `add_label` of the GitHub client: a label that is present is not written again. -/
def addLabel (cfg : Settings) : P (Answer Unit) := do
  let issue ← getIssue cfg
  if issue.retryable then pure .retryable
  else if issue.refused then pure .refused
  else if cfg.remediationLabel ∈ issue.labels then pure (.ok ())
  else postLabel

/-- Run a handler on an exception, unless the coroutine halted. -/
def rescue {α : Type} (p : P α) (handler : Err → P α) : P α :=
  p.handle (fun e => if e = .halt then .raise .halt else handler e)

end Remediator
