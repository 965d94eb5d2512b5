import Mathlib.Algebra.Ring.Nat
import Remediator.Lib.Machine
import Remediator.Lib.OrderedDict

set_option autoImplicit false

/-! # The verifier front

`remediator/verifier/__init__.py`: authenticated probe requests are bound to their id, answered
from the result store or from a run in flight, or bound to the registry and handed to the
executor, which has one slot. A handler gives up control at each `await` of `run_probe`, and only
there.

The handlers here are those of requests that were authenticated and parsed. In one process the
executor answers a request it has no slot for before anything else happens; over the network its
answer travels on its own. The second is the more general, and the schedules of the first are
among its schedules.
-/

namespace Remediator.Verifier

open OrderedDict

/-! ## Requests and responses -/

/-- `ProbeTarget`. -/
inductive ProbeTarget
  | base
  | head
  deriving DecidableEq

def ProbeTarget.value : ProbeTarget → String
  | base => "BASE"
  | head => "HEAD"

/-- The fields of a `ProbeRequest` that its fingerprint covers. -/
structure Parameters where
  protocolVersion : String := "verifier.v2"
  repository : String
  issueNumber : Nat
  commitSha : String
  target : ProbeTarget
  probeIdentifier : String
  scriptHash : String
  manifestHash : String
  timeoutSeconds : Nat
  maxOutputBytes : Nat
  deriving DecidableEq

structure ProbeRequest where
  requestId : String
  params : Parameters
  deriving DecidableEq

/-- `ProbeResponse`, with the outcome of the run that is read again. -/
structure ProbeResponse where
  requestId : String
  repository : String
  commitSha : String
  probeIdentifier : String
  scriptHash : String
  commandIdentity : String
  exitCode : Option Int
  infrastructureError : Option String := none
  replayed : Bool := false
  deriving DecidableEq

/-- `ProbeResponse.from_result`. -/
def fromResult (r : ProbeRequest) (identity : String) (exitCode : Option Int)
    (infrastructureError : Option String) : ProbeResponse :=
  { requestId := r.requestId
    repository := r.params.repository
    commitSha := r.params.commitSha
    probeIdentifier := r.params.probeIdentifier
    scriptHash := r.params.scriptHash
    commandIdentity := identity
    exitCode := exitCode
    infrastructureError := infrastructureError }

structure Config where
  repositoryAllowlist : List String
  maxTimeoutSeconds : Nat
  /-- the SHA-256 digest of the request's JSON without its id -/
  digest : Parameters → String

/-- `ProbeRequest.fingerprint`. -/
def ProbeRequest.fingerprint (cfg : Config) (r : ProbeRequest) : String := cfg.digest r.params

/-! ## Binding to the registry -/

/-- What the registry holds for an issue. -/
structure ApprovedProbe where
  repository : String
  issueNumber : Nat
  identifier : String
  scriptHash : String
  manifestHash : String
  scriptContent : String
  timeoutSeconds : Nat
  setupTimeoutSeconds : Nat

/-- `ProbeRunSpec`. -/
structure ProbeRunSpec where
  repository : String
  issueNumber : Nat
  commitSha : String
  target : ProbeTarget
  probeIdentifier : String
  scriptHash : String
  scriptContent : String
  timeoutSeconds : Nat
  maxOutputBytes : Nat
  setupTimeoutSeconds : Nat

/-- `HTTPException`. -/
structure HttpError where
  status : Nat
  detail : String
  deriving DecidableEq

/-- `spec_for`, once `load_approved_probe` has answered; `none` is a `ProbeRegistryError`. -/
def specFor (cfg : Config) (r : ProbeRequest) (probe : Option ApprovedProbe) :
    Except HttpError ProbeRunSpec :=
  if r.params.repository ∉ cfg.repositoryAllowlist then
    .error ⟨403, "repository is not allowlisted"⟩
  else
    match probe with
    | none => .error ⟨422, "no approved probe in the verifier registry"⟩
    | some p =>
        if p.scriptHash ≠ r.params.scriptHash ∨ p.manifestHash ≠ r.params.manifestHash then
          .error ⟨409, "registry probe does not match the approved snapshot"⟩
        else if p.identifier ≠ r.params.probeIdentifier then
          .error ⟨409, "probe identifier mismatch"⟩
        else
          .ok {
            repository := p.repository
            issueNumber := p.issueNumber
            commitSha := r.params.commitSha
            target := r.params.target
            probeIdentifier := p.identifier
            scriptHash := p.scriptHash
            scriptContent := p.scriptContent
            timeoutSeconds :=
              min r.params.timeoutSeconds (min p.timeoutSeconds cfg.maxTimeoutSeconds)
            maxOutputBytes := r.params.maxOutputBytes
            setupTimeoutSeconds := min p.setupTimeoutSeconds cfg.maxTimeoutSeconds }

/-- `command_identity`. -/
def commandIdentity (spec : ProbeRunSpec) : String :=
  "bash probe.sh sha256:" ++ spec.scriptHash ++ " @ " ++ spec.repository ++ "@" ++ spec.commitSha ++
    " (" ++ spec.target.value.toLower ++ ")"

/-! ## The result store -/

/-- `_RESULT_TTL_SECONDS`. -/
def resultTtlSeconds : Nat := 6 * 3600

/-- `_RESULT_MAX_ENTRIES`. -/
def resultMaxEntries : Nat := 512

/-- A stored result, with the run that it comes from. -/
structure Stored where
  stamp : Nat
  response : ProbeResponse
  run : Nat

/-- `_ResultStore`; a future is named by the run it was created for. -/
structure ResultStore where
  done : List (String × Stored) := []
  inflight : List (String × Nat) := []
  fingerprints : List (String × String) := []

/-- `bind`, with whether the id is new or bound to this fingerprint. -/
def ResultStore.bind (s : ResultStore) (id fingerprint : String) : ResultStore × Bool :=
  match s.fingerprints.lookup id with
  | none =>
      let bound := assign id fingerprint s.fingerprints
      ({ s with fingerprints := bound.drop (bound.length - 2 * resultMaxEntries) }, true)
  | some known => (s, decide (known = fingerprint))

/-- How many of the oldest results `_evict` drops. -/
def evictCount (now : Nat) : List (String × Stored) → Nat
  | [] => 0
  | p :: d =>
      if resultTtlSeconds < now - p.2.stamp ∨ resultMaxEntries < (p :: d).length then
        evictCount now d + 1
      else 0

/-- The ids `_evict` drops. -/
def ResultStore.evictedIds (s : ResultStore) (now : Nat) : List String :=
  (s.done.take (evictCount now s.done)).map (·.1)

/-- `_evict`. -/
def ResultStore.evict (s : ResultStore) (now : Nat) : ResultStore :=
  { s with
    done := s.done.drop (evictCount now s.done)
    fingerprints := (s.evictedIds now).foldl (fun d id => erase id d) s.fingerprints }

/-- `start`. -/
def ResultStore.start (s : ResultStore) (id : String) (run : Nat) : ResultStore :=
  { s with inflight := assign id run s.inflight }

/-- `finish`, without the result of the future it pops. -/
def ResultStore.finish (s : ResultStore) (now : Nat) (id : String) (response : ProbeResponse)
    (run : Nat) : ResultStore :=
  { s with
    inflight := erase id s.inflight
    done := assign id ⟨now, response, run⟩ s.done }.evict now

/-- `abort`, without the exception of the future it pops. -/
def ResultStore.abort (s : ResultStore) (id : String) : ResultStore :=
  { s with inflight := erase id s.inflight, fingerprints := erase id s.fingerprints }

/-! ## Handlers and runs -/

/-- Where the executor is with a request it was sent. -/
inductive Phase
  | sent
  /-- the slot was taken -/
  | busy
  | executing
  | exited
  deriving DecidableEq

/-- A call of `execution.run`. -/
structure Run where
  request : ProbeRequest
  identity : String
  phase : Phase := .sent

/-- What the future of a run holds once it is done: a response, with the run that it comes
from, or an exception. -/
inductive Settled
  | response (r : ProbeResponse) (run : Nat)
  | raised

/-- What a handler returns. -/
inductive Outcome
  | response (r : ProbeResponse) (run : Nat)
  | http (e : HttpError)
  | raised

inductive Pc
  | arrived
  /-- waiting for `spec_for` -/
  | loading
  /-- waiting for the future of a run -/
  | waiting (run : Nat)
  /-- waiting for `execution.run` -/
  | running (run : Nat)
  | ended (outcome : Outcome)

structure Handler where
  request : ProbeRequest
  pc : Pc := .arrived

/-- The process: `futures` has an entry for each run. -/
structure Front where
  now : Nat := 0
  store : ResultStore := {}
  runs : List Run := []
  futures : List (Option Settled) := []
  handlers : List Handler := []

/-- What comes back for a request that was sent to the executor. -/
inductive Wire
  | unreachable (error : String)
  | status (code : Nat) (detail : String)
  | malformed (error : String)
  | ok (r : ProbeResponse)

/-- The answer of an executor without a free slot. -/
def atCapacity : Wire := .status 409 "verifier is at capacity"

/-- What `execution.run` makes of the answer; `none` is `ExecutorBusy`. -/
def receive (r : ProbeRequest) (identity : String) : Wire → Option ProbeResponse
  | .unreachable error =>
      some (fromResult r identity none (some ("probe executor unreachable: " ++ error)))
  | .status code detail =>
      if code = 409 ∧ detail = "verifier is at capacity" then none
      else some (fromResult r identity none
        (some ("probe executor returned HTTP " ++ toString code ++ ": " ++ detail)))
  | .malformed error =>
      some (fromResult r identity none (some ("executor response malformed: " ++ error)))
  | .ok result =>
      if result.requestId ≠ r.requestId ∨ result.commandIdentity ≠ identity ∨
          result.repository ≠ r.params.repository ∨ result.commitSha ≠ r.params.commitSha ∨
          result.scriptHash ≠ r.params.scriptHash then
        some (fromResult r identity none
          (some "executor reported a different execution than asked"))
      else some { result with replayed := false }

/-- The executor says that it is at capacity only if it found its slot taken, and sends a result
only after the run. -/
def Wire.possible (phase : Phase) : Wire → Bool
  | .status code detail => !(decide (code = 409) && decide (detail = "verifier is at capacity")) ||
      decide (phase = .busy)
  | .ok _ => decide (phase = .exited)
  | _ => true

inductive Step
  | arrive (r : ProbeRequest)
  /-- a handler runs from the bind to its first `await` -/
  | check (i : Nat)
  /-- the registry answers; the run is registered and sent -/
  | load (i : Nat) (probe : Option ApprovedProbe)
  /-- the executor receives the request of a run -/
  | enter (run : Nat)
  /-- the executor is through with a run -/
  | exit (run : Nat)
  /-- the executor's answer, or none, reaches the handler -/
  | reply (i : Nat) (w : Wire)
  /-- a handler is resumed with the future it waits for -/
  | resume (i : Nat)
  /-- a handler is cancelled, or its call raises -/
  | raise (i : Nat)
  | tick (seconds : Nat)

def Front.setPc (s : Front) (i : Nat) (pc : Pc) : Front :=
  { s with handlers := s.handlers.modify i (fun h => { h with pc := pc }) }

/-- Settle the future the store has for the id, if there is one that is not done. -/
def Front.settle (s : Front) (id : String) (x : Settled) : Front :=
  match s.store.inflight.lookup id with
  | none => s
  | some run => { s with futures := s.futures.modify run (fun f => f.or (some x)) }

/-- The part of `run_probe` before its first `await`. -/
def Front.check (cfg : Config) (s : Front) (i : Nat) (r : ProbeRequest) : Front :=
  let (store, ok) := s.store.bind r.requestId (r.fingerprint cfg)
  if ok = false then
    { s with store := store }.setPc i
      (.ended (.http ⟨409, "request_id already used with different parameters"⟩))
  else
    let store := store.evict s.now
    let s := { s with store := store }
    match store.done.lookup r.requestId with
    | some hit => s.setPc i (.ended (.response { hit.response with replayed := true } hit.run))
    | none =>
        match store.inflight.lookup r.requestId with
        | some run => s.setPc i (.waiting run)
        | none => s.setPc i .loading

/-- The part of `run_probe` from the answer of the registry on. -/
def Front.load (cfg : Config) (s : Front) (i : Nat) (r : ProbeRequest)
    (probe : Option ApprovedProbe) : Front :=
  match specFor cfg r probe with
  | .error e => s.setPc i (.ended (.http e))
  | .ok spec =>
      let started : Front := { s with
        store := s.store.start r.requestId s.runs.length
        runs := s.runs ++ [{ request := r, identity := commandIdentity spec }]
        futures := s.futures ++ [none] }
      started.setPc i (.running s.runs.length)

/-- `abort`, and the end of the handler. -/
def Front.abort (s : Front) (i : Nat) (id : String) (outcome : Outcome) : Front :=
  let s := s.settle id .raised
  { s with store := s.store.abort id }.setPc i (.ended outcome)

/-- `finish`, and the end of the handler. -/
def Front.finish (s : Front) (i : Nat) (id : String) (response : ProbeResponse) (run : Nat) :
    Front :=
  let s := s.settle id (.response response run)
  { s with store := s.store.finish s.now id response run }.setPc i
    (.ended (.response response run))

/-- The end of `run_probe`. -/
def Front.reply (s : Front) (i k : Nat) (run : Run) (w : Wire) : Front :=
  match receive run.request run.identity w with
  | none => s.abort i run.request.requestId (.http ⟨409, "verifier is at capacity"⟩)
  | some response => s.finish i run.request.requestId response k

def Front.setPhase (s : Front) (k : Nat) (phase : Phase) : Front :=
  { s with runs := s.runs.modify k (fun run => { run with phase := phase }) }

/-- One step; a step that is not enabled has no result. -/
def Front.exec (cfg : Config) (s : Front) : Step → Option Front
  | .arrive r => some { s with handlers := s.handlers ++ [{ request := r }] }
  | .check i =>
      match s.handlers[i]? with
      | some ⟨r, .arrived⟩ => some (s.check cfg i r)
      | _ => none
  | .load i probe =>
      match s.handlers[i]? with
      | some ⟨r, .loading⟩ => some (s.load cfg i r probe)
      | _ => none
  | .enter k =>
      match s.runs[k]? with
      | some run =>
          if run.phase = .sent then
            some (s.setPhase k
              (if s.runs.any (fun x => decide (x.phase = .executing)) then .busy else .executing))
          else none
      | none => none
  | .exit k =>
      match s.runs[k]? with
      | some run => if run.phase = .executing then some (s.setPhase k .exited) else none
      | none => none
  | .reply i w =>
      match s.handlers[i]? with
      | some ⟨_, .running k⟩ =>
          match s.runs[k]? with
          | some run => if w.possible run.phase then some (s.reply i k run w) else none
          | none => none
      | _ => none
  | .resume i =>
      match s.handlers[i]? with
      | some ⟨_, .waiting k⟩ =>
          match s.futures[k]?.join with
          | some (.response r run) =>
              some (s.setPc i (.ended (.response { r with replayed := true } run)))
          | some .raised => some (s.setPc i (.ended .raised))
          | none => none
      | _ => none
  | .raise i =>
      match s.handlers[i]? with
      | some ⟨r, .running _⟩ => some (s.abort i r.requestId .raised)
      | some ⟨_, .ended _⟩ => none
      | some _ => some (s.setPc i (.ended .raised))
      | none => none
  | .tick n => some { s with now := s.now + n }

end Remediator.Verifier
