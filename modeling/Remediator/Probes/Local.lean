import Remediator.Devin.Status
import Remediator.Lib.OrderedDict
import Remediator.Probes.Host
import Remediator.Probes.Remote

set_option autoImplicit false

/-! # The local runner

`LocalProbeRunner` of `remediator/probes/runner.py`: it fetches the exact commit into a workspace of
its own, installs what the manifest declares and runs the approved script, and every other way to
end is an infrastructure failure. The executor runs nothing else.
-/

namespace Remediator.Probes.Host

open Interleave OrderedDict

/-! ## What is kept of the output -/

/-- `_BoundedCapture`: the first bytes, and whether there were more. -/
structure BoundedCapture where
  limit : Int
  buffer : List UInt8 := []
  truncated : Bool := false

/-- One turn of the loop of `drain`. -/
def BoundedCapture.take (c : BoundedCapture) (chunk : List UInt8) : BoundedCapture :=
  let room := c.limit - c.buffer.length
  { c with
    buffer := if 0 < room then c.buffer ++ chunk.take room.toNat else c.buffer
    truncated := c.truncated || decide (room < chunk.length) }

/-- `drain`; the pipe is at its end when nothing comes. -/
def BoundedCapture.drain (c : BoundedCapture) : List (List UInt8) → BoundedCapture
  | [] => c
  | chunk :: chunks => if chunk = [] then c else (c.take chunk).drain chunks

/-- `_TailCapture`, with its buffer: the last bytes. -/
def tailDrain (limit : ℕ) (buffer : List UInt8) : List (List UInt8) → List UInt8
  | [] => buffer
  | chunk :: chunks =>
      if chunk = [] then buffer
      else
        let buffer := buffer ++ chunk
        tailDrain limit
          (if limit < buffer.length then buffer.drop (buffer.length - limit) else buffer) chunks

/-! ## The runner -/

/-- The fields of a `ProbeRunSpec` that only the executor reads. -/
structure RunSpec extends ProbeRunSpec where
  scriptContent : String
  setupSteps : List (List String)
  cacheInputs : List String

/-- `LocalProbeRunner`; `reprs` and `repr` are Python's texts of a list of texts and of a text, and
`decode` is `bytes.decode("utf-8", errors="replace")`. -/
structure LocalProbeRunner where
  cloneUrl : String → String
  fetchTimeoutSeconds : ℚ := 600
  cacheRoot : Option String
  extraEnv : List (String × String)
  reprs : List String → String
  repr : String → String
  decode : List UInt8 → String

/-- `_MINIMAL_PATH`. -/
def minimalPath : String := "/usr/local/bin:/usr/bin:/bin"

/-- `_SETUP_STDERR_BYTES`. -/
def setupStderrBytes : ℕ := 2000

/-- `_minimal_env`. -/
def minimalEnv (home : String) : List (String × String) :=
  [("PATH", minimalPath), ("HOME", home), ("LANG", "C.UTF-8"), ("LC_ALL", "C.UTF-8"),
    ("GIT_TERMINAL_PROMPT", "0"), ("GIT_CONFIG_NOSYSTEM", "1"), ("CI", "1")]

/-- `env.update(...)`. -/
def update (env more : List (String × String)) : List (String × String) :=
  more.foldl (fun env item => assign item.1 item.2 env) env

/-- The first line of a text without the white space around it. -/
def firstLine (text : String) : String :=
  String.ofList ((Devin.trim text).toList.takeWhile fun c =>
    let n := c.toNat
    !((10 ≤ n && n ≤ 13) || (28 ≤ n && n ≤ 30) || n == 0x85 || n == 0x2028 || n == 0x2029))

/-- `text[:n]`. -/
def front (n : ℕ) (text : String) : String := String.ofList (text.toList.take n)

/-- `text[-n:]`. -/
def back (n : ℕ) (text : String) : String :=
  String.ofList (text.toList.drop (text.toList.length - n))

def joined (argv : List String) : String := " ".intercalate argv

/-- Start a child and wait for it; `next` gets its place in the table. -/
def exec {α : Type} (argv : List String) (env : List (String × String)) (timeout : ℚ)
    (next : ℕ → Child → P α) : P α :=
  .act (fun i _ => .exec ⟨argv, env, timeout, i.child⟩) fun i s =>
    match i.child with
    | .cancelled => .raise .cancelled
    | child => next s.length child

/-- `_kill_group` of a child that is overdue. -/
def killGroup (child : ℕ) : P Unit :=
  .act (fun i _ => if i.denied then .look else .kill child) fun _ _ => .ret ()

/-- `await proc.wait()`. -/
def reap : P Unit :=
  .act (fun _ _ => .look) fun i _ =>
    match i.child with
    | .cancelled => .raise .cancelled
    | _ => .ret ()

/-- The run marker in the environment of a run. -/
def markerOf (env : List (String × String)) : Hunt :=
  .marked ((env.lookup probeRunMarker).getD "")

/-- What is done about a child that is overdue. -/
def stopChild (env : List (String × String)) (child : ℕ) : P Unit := do
  killGroup child
  sweep (markerOf env) maxRounds
  reap

section Runner

variable (r : LocalProbeRunner)

/-- What `_capture` makes of a child. -/
def LocalProbeRunner.captured : Child → String
  | .exited code out _ => if code = 0 then firstLine (r.decode out.flatten) else ""
  | _ => ""

/-- `_capture`. -/
def LocalProbeRunner.capture (argv : List String) (env : List (String × String)) (timeout : ℚ) :
    P String :=
  exec argv env timeout fun place child =>
    match child with
    | .overdue _ _ => do
        killGroup place
        pure (r.captured child)
    | _ => .ret (r.captured child)

/-- `tool_versions`, from the tools that are left. -/
def LocalProbeRunner.toolVersions (env : List (String × String)) :
    List String → P (List (String × String))
  | [] => .ret []
  | tool :: tools => do
      if ← ask (fun i => i.installed tool) then do
        let line ← r.capture [tool, "--version"] env 15
        let rest ← LocalProbeRunner.toolVersions env tools
        pure ((tool, front 120 line) :: rest)
      else LocalProbeRunner.toolVersions env tools

/-- The end of an error text of a child. -/
def LocalProbeRunner.detail (err : List (List UInt8)) : String :=
  back 500 (Devin.trim (r.decode (tailDrain setupStderrBytes [] err)))

/-- The steps of `_fetch_exact_commit`. -/
def LocalProbeRunner.fetchSteps (spec : RunSpec) : List (List String) :=
  [["git", "init", "--quiet"],
    ["git", "remote", "add", "origin", r.cloneUrl spec.repository],
    ["git", "fetch", "--quiet", "--depth", "1", "origin", spec.commitSha],
    ["git", "checkout", "--quiet", "--detach", spec.commitSha]]

/-- `_fetch_exact_commit`, from the steps that are left. -/
def LocalProbeRunner.fetchExactCommit (spec : RunSpec) (env : List (String × String)) :
    List (List String) → P (Option String)
  | [] => .ret none
  | argv :: steps =>
      exec argv env r.fetchTimeoutSeconds fun place child =>
        match child with
        | .unstarted error => .ret (some ("cannot run " ++ joined (argv.take 2) ++ ": " ++ error))
        | .exited code _ err =>
            if code = 0 then LocalProbeRunner.fetchExactCommit spec env steps
            else .ret (some (joined (argv.take 2) ++ " failed for " ++ spec.commitSha ++ ": " ++
              r.detail err))
        | _ => do
            stopChild env place
            pure (some ("timed out running " ++ joined (argv.take 2) ++ " for " ++ spec.commitSha))

/-- `_verify_identity`. -/
def LocalProbeRunner.verifyIdentity (spec : RunSpec) (env : List (String × String)) :
    P (Option String) := do
  let head ← r.capture ["git", "rev-parse", "--verify", "HEAD^\x7bcommit\x7d"] env 30
  if head ≠ spec.commitSha then
    pure (some ("checked-out commit " ++ (if front 12 head = "" then "?" else front 12 head) ++
      " is not the requested " ++ spec.commitSha))
  else do
    let remote ← r.capture ["git", "remote", "get-url", "origin"] env 30
    if remote ≠ r.cloneUrl spec.repository then
      pure (some "origin remote does not match the allowlisted clone URL")
    else pure none

/-- `_cache_env`. -/
def LocalProbeRunner.cacheEnv (spec : RunSpec) : P (List (String × String)) :=
  match r.cacheRoot with
  | none => .ret []
  | some root =>
      if spec.cacheInputs = [] then .ret []
      else .act (fun i _ => if i.lockfiles.isSome then .cache root else .look) fun i _ =>
        match i.error with
        | some error => .raise (.os error)
        | none =>
            match i.lockfiles with
            | none => .ret []
            | some key =>
                let base := root ++ "/" ++ key
                .ret [("npm_config_cache", base ++ "/npm"), ("YARN_CACHE_FOLDER", base ++ "/yarn"),
                  ("PIP_CACHE_DIR", base ++ "/pip")]

/-- The loop of `_run_setup`, from the steps that are left. -/
def LocalProbeRunner.setupLoop (spec : RunSpec) (env : List (String × String)) (deadline : ℚ) :
    List (List String) → P (Option String)
  | [] => .ret none
  | argv :: steps => do
      let now ← ask (·.clock)
      if deadline - now ≤ 0 then
        pure (some ("setup exceeded " ++ toString spec.setupTimeoutSeconds ++ "s before " ++
          argv.headD ""))
      else
        exec argv env (deadline - now) fun place child =>
          match child with
          | .unstarted error =>
              .ret (some ("cannot start setup step " ++ argv.headD "" ++ ": " ++ error))
          | .exited code _ err =>
              if code = 0 then LocalProbeRunner.setupLoop spec env deadline steps
              else .ret (some ("setup step " ++ joined (argv.take 2) ++ " exited " ++
                toString code ++ ": " ++ r.detail err))
          | _ => do
              stopChild env place
              pure (some ("setup step " ++ joined (argv.take 2) ++ " timed out"))

/-- `_run_setup`. -/
def LocalProbeRunner.runSetup (spec : RunSpec) (env : List (String × String)) :
    P (Option String) :=
  if spec.setupSteps = [] then .ret none
  else do
    let now ← ask (·.clock)
    r.setupLoop spec env (now + spec.setupTimeoutSeconds) spec.setupSteps

/-- `int(seconds * 1000)`. -/
def milliseconds (started now : ℚ) : Int :=
  let elapsed := (now - started) * 1000
  if 0 ≤ elapsed then elapsed.floor else elapsed.ceil

/-- `_infra`. -/
def infraResult (identity : String) (started : ℚ) (reason stage : String)
    (versions : List (String × String)) : P ProbeRunResult := do
  let now ← ask (·.clock)
  pure {
    runnerMode := "local"
    commandIdentity := identity
    exitCode := none
    stdout := ""
    stderr := ""
    outputTruncated := false
    timedOut := false
    durationMs := milliseconds started now
    infrastructureError := some reason
    failureStage := some stage
    toolVersions := versions }

/-- The end of `_execute`. -/
def LocalProbeRunner.verdict (spec : RunSpec) (identity : String) (started : ℚ)
    (versions : List (String × String)) (exitCode : Option Int) (out err : List (List UInt8)) :
    P ProbeRunResult := do
  let now ← ask (·.clock)
  let out := BoundedCapture.drain { limit := spec.maxOutputBytes } out
  let err := BoundedCapture.drain { limit := spec.maxOutputBytes } err
  pure {
    runnerMode := "local"
    commandIdentity := identity
    exitCode := exitCode
    stdout := r.decode out.buffer
    stderr := r.decode err.buffer
    outputTruncated := out.truncated || err.truncated
    timedOut := exitCode.isNone
    durationMs := milliseconds started now
    infrastructureError := none
    failureStage := none
    toolVersions := versions }

/-- `_execute`. -/
def LocalProbeRunner.execute (spec : RunSpec) (identity : String) (started : ℚ) (script : String)
    (env : List (String × String)) (versions : List (String × String)) : P ProbeRunResult :=
  exec ["bash", script] env spec.timeoutSeconds fun place child =>
    match child with
    | .exited code out err => r.verdict spec identity started versions (some code) out err
    | .overdue out err => do
        stopChild env place
        r.verdict spec identity started versions none out err
    | .unstarted error =>
        infraResult identity started ("cannot start probe: " ++ error) "execute" versions
    | .cancelled => .raise .cancelled

/-- `_invalid_setup_step`. -/
def LocalProbeRunner.invalidSetupStep (spec : RunSpec) : Option String :=
  spec.setupSteps.findSome? fun argv =>
    match argv with
    | [] => some "setup step must be a non-empty argv array"
    | program :: _ =>
        if "" ∈ argv then some "setup step must be a non-empty argv array"
        else if '/' ∈ program.toList ∨ program ∉ spec.requiredTools then
          some ("setup step " ++ r.repr program ++ " is not one of the manifest's runtime.tools")
        else none

/-- `target.value`. -/
def targetValue : ProbeTarget → String
  | .base => "BASE"
  | .head => "HEAD"

/-- The variables that the script gets. -/
def probeEnv (spec : RunSpec) : List (String × String) :=
  [("PROBE_TARGET", targetValue spec.target), ("PROBE_COMMIT", spec.commitSha),
    ("PROBE_REPOSITORY", spec.repository), ("PROBE_IDENTIFIER", spec.probeIdentifier)]

/-- An action that may fail with an `OSError`. -/
def attempt (op : Op) : P Unit :=
  .act (fun _ _ => op) fun i _ =>
    match i.error with
    | some error => .raise (.os error)
    | none => .ret ()

/-- The tools of a run. -/
def runTools (spec : RunSpec) : List String := "git" :: "bash" :: spec.requiredTools

/-- The part of `run` from the setup on. -/
def LocalProbeRunner.fromSetup (spec : RunSpec) (identity : String) (started : ℚ)
    (workspace : String) (env versions : List (String × String)) : P ProbeRunResult := do
  match ← r.runSetup spec env with
  | some reason => infraResult identity started reason "setup" versions
  | none => r.execute spec identity started (workspace ++ "/probe.sh") env versions

/-- The part of `run` from the script on. -/
def LocalProbeRunner.fromScript (spec : RunSpec) (identity : String) (started : ℚ)
    (workspace : String) (env versions : List (String × String)) : P ProbeRunResult := do
  attempt (.write (workspace ++ "/probe.sh") spec.scriptContent)
  let cache ← r.cacheEnv spec
  r.fromSetup spec identity started workspace (update (update env (probeEnv spec)) cache) versions

/-- The part of `run` from the tool versions on. -/
def LocalProbeRunner.inWorkspace (spec : RunSpec) (identity : String) (started : ℚ)
    (workspace : String) (env : List (String × String)) : P ProbeRunResult := do
  let versions ← r.toolVersions env (runTools spec).eraseDups
  match ← r.fetchExactCommit spec env (r.fetchSteps spec) with
  | some reason => infraResult identity started reason "fetch" versions
  | none =>
    match ← r.verifyIdentity spec env with
    | some reason => infraResult identity started reason "fetch" versions
    | none => r.fromScript spec identity started workspace env versions

/-- `try … finally`. -/
def withCleanup {α : Type} (p : P α) (fin : P Unit) : P α := do
  let a ← p.handle fun e => do
    fin
    throw e
  fin
  pure a

/-- The environment of the children: no variable of the process is passed on. -/
def LocalProbeRunner.runEnv (workspace marker : String) : List (String × String) :=
  update (update (minimalEnv (workspace ++ "/home")) r.extraEnv) [(probeRunMarker, marker)]

/-- What ends a run that has begun. -/
def cleanup (workspace marker : String) : P Unit := do
  sweep (.marked marker) maxRounds
  .act (fun _ _ => .rmtree workspace) fun _ _ => .ret ()

/-- `run` once the workspace is there. The `finally` names the marker, which is bound after the two
directories are made. -/
def LocalProbeRunner.runIn (spec : RunSpec) (identity : String) (started : ℚ)
    (workspace : String) : P ProbeRunResult := do
  (do
    attempt (.mkdir (workspace ++ "/repo"))
    attempt (.mkdir (workspace ++ "/home"))).handle fun _ => throw Exc.unboundLocal
  let marker ← ask (·.unique)
  withCleanup (r.inWorkspace spec identity started workspace (r.runEnv workspace marker))
    (cleanup workspace marker)

/-- `run`. -/
def LocalProbeRunner.run (spec : RunSpec) : P ProbeRunResult := do
  let identity := commandIdentity spec.toProbeRunSpec
  let started ← ask (·.clock)
  let exposed ← ask (·.exposed)
  if exposed ≠ [] then
    infraResult identity started ("refusing to execute probe inside a credential-bearing process " ++
      "(visible: " ++ r.reprs exposed ++ "); run the verifier in a credential-free container")
      "preflight" []
  else do
    let missing ← ask (fun i => (runTools spec).filter fun tool => !i.installed tool)
    if missing ≠ [] then
      infraResult identity started ("required tools not installed: " ++ r.reprs missing)
        "preflight" []
    else
      match r.invalidSetupStep spec with
      | some reason => infraResult identity started reason "preflight" []
      | none =>
        match ← ask (fun i => (i.error, i.path)) with
        | (some error, _) =>
            infraResult identity started ("cannot create workspace: " ++ error) "preflight" []
        | (none, workspace) => r.runIn spec identity started workspace

end Runner

end Remediator.Probes.Host
