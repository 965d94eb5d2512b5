import Remediator.Probes.Conduct
import Remediator.Probes.Grammar
import Remediator.Probes.Load
import Remediator.Verifier.Front

set_option autoImplicit false

/-! # The executor

`remediator/verifier/executor.py`: a request is bound to what the registry approved, the local
runner runs it in the one slot, and every process of the user that is still there is killed before
the answer.
-/

namespace Remediator.Probes.Host

open Interleave OrderedDict Text

/-! ## The registry of the executor -/

/-- `manifest_setup_steps`, of a manifest that was loaded. -/
def manifestSetupSteps (items : Items) : List (List Text) :=
  (items.listOf "setup").map fun step =>
    match step with
    | .list args => args.map Yaml.text
    | _ => []

/-- `manifest_cache_inputs`. -/
def manifestCacheInputs (items : Items) : List Text := (items.listOf "cache_inputs").map Yaml.text

/-- `manifest_setup_timeout`. -/
def manifestSetupTimeout (items : Items) : Int :=
  match items.lookup "setup_timeout_seconds" with
  | some (.int n) => n
  | _ => 1800

/-- The timeout of a manifest that was loaded. -/
def manifestTimeout (items : Items) : Int :=
  match items.get "timeout_seconds" with
  | .int n => n
  | _ => 0

/-- `ApprovedProbe.required_tools`. -/
def requiredTools (items : Items) : List Text := ((toolsOf items).getD []).map Yaml.text

/-- `ApprovedProbe.identifier`. -/
def probeIdentifier (probe : ApprovedProbe) : Text :=
  probe.repository ++ '#' :: ((toString probe.issueNumber).toList ++
    ("@sha256:".toList ++ probe.scriptHash.take 16))

/-! ## The configuration -/

/-- `ExecutorConfig`, with the registry that is mounted and the library it is read with. -/
structure ExecutorConfig where
  cloneUrl : String → String
  cacheRoot : Option String
  egressProxyUrl : String
  repositoryAllowlist : List String
  maxTimeoutSeconds : ℕ
  maxTimeout_pos : 0 < maxTimeoutSeconds
  /-- `os.getuid()` -/
  uid : ℕ
  registry : String → ℕ → Registered
  python : Python
  hashing : Hashing
  reprs : List String → String
  repr : String → String
  decode : List UInt8 → String

/-- `child_env`. -/
def ExecutorConfig.childEnv (x : ExecutorConfig) : List (String × String) :=
  if x.egressProxyUrl = "" then []
  else
    [("HTTPS_PROXY", x.egressProxyUrl), ("https_proxy", x.egressProxyUrl),
      ("HTTP_PROXY", x.egressProxyUrl), ("http_proxy", x.egressProxyUrl),
      ("NO_PROXY", "localhost,127.0.0.1"), ("no_proxy", "localhost,127.0.0.1")]

/-- `build_runner`. -/
def ExecutorConfig.buildRunner (x : ExecutorConfig) : LocalProbeRunner where
  cloneUrl := x.cloneUrl
  cacheRoot := x.cacheRoot
  extraEnv := x.childEnv
  reprs := x.reprs
  repr := x.repr
  decode := x.decode

/-! ## The handler -/

/-- `ProbeTarget` of a request. -/
def targetOf : Verifier.ProbeTarget → ProbeTarget
  | .base => .base
  | .head => .head

/-- The spec of a probe that was loaded. -/
def ExecutorConfig.boundSpec (x : ExecutorConfig) (q : Verifier.ProbeRequest)
    (probe : ApprovedProbe) : RunSpec where
  repository := String.ofList probe.repository
  issueNumber := probe.issueNumber
  commitSha := q.params.commitSha
  target := targetOf q.params.target
  probeIdentifier := String.ofList (probeIdentifier probe)
  scriptHash := String.ofList probe.scriptHash
  timeoutSeconds := min q.params.timeoutSeconds
    (min (manifestTimeout probe.manifest) x.maxTimeoutSeconds)
  maxOutputBytes := q.params.maxOutputBytes
  requiredTools := (requiredTools probe.manifest).map String.ofList
  setupTimeoutSeconds := min (manifestSetupTimeout probe.manifest) x.maxTimeoutSeconds
  manifestHash := ""
  requestId := ""
  scriptContent := String.ofList probe.scriptContent
  setupSteps := (manifestSetupSteps probe.manifest).map (·.map String.ofList)
  cacheInputs := (manifestCacheInputs probe.manifest).map String.ofList

/-- `spec_for`. What is not a `ProbeRegistryError` leaves the handler, with status 500. -/
def ExecutorConfig.specFor (x : ExecutorConfig) (q : Verifier.ProbeRequest) :
    Except Verifier.HttpError RunSpec :=
  if q.params.repository ∉ x.repositoryAllowlist then
    .error ⟨403, "repository is not allowlisted"⟩
  else
    match loadProbe x.python x.hashing (x.registry q.params.repository q.params.issueNumber) true
        q.params.repository.toList q.params.issueNumber with
    | .error (.registry _) => .error ⟨422, "no approved probe in the verifier registry"⟩
    | .error .escaped => .error ⟨500, "Internal Server Error"⟩
    | .ok probe =>
        if String.ofList probe.scriptHash ≠ q.params.scriptHash ∨
            String.ofList probe.manifestHash ≠ q.params.manifestHash then
          .error ⟨409, "registry probe does not match the approved snapshot"⟩
        else if String.ofList (probeIdentifier probe) ≠ q.params.probeIdentifier then
          .error ⟨409, "probe identifier mismatch"⟩
        else .ok (x.boundSpec q probe)

/-- `ProbeResponse.from_result`. -/
def fromResult (q : Verifier.ProbeRequest) (result : ProbeRunResult) : ProbeResponse where
  requestId := q.requestId
  repository := q.params.repository
  commitSha := q.params.commitSha
  scriptHash := q.params.scriptHash
  commandIdentity := result.commandIdentity
  exitCode := result.exitCode
  stdout := result.stdout
  stderr := result.stderr
  outputTruncated := result.outputTruncated
  timedOut := result.timedOut
  durationMs := result.durationMs
  infrastructureError := result.infrastructureError
  failureStage := result.failureStage
  toolVersions := result.toolVersions

/-- `kill_stray_processes`. -/
def killStray (uid : ℕ) : P Unit := if uid = 0 then .ret () else sweep .stray maxRounds

/-- `await asyncio.to_thread(kill_stray_processes)`. A cancellation ends the wait at once, and what
the other thread does from then on it does beside the executor. -/
def awaitStray (uid : ℕ) : P Unit :=
  .act (fun _ _ => .look) fun i _ => if i.cancelled then .raise .cancelled else killStray uid

/-- What `run_probe` does with the slot. -/
def ExecutorConfig.inSlot (x : ExecutorConfig) (spec : RunSpec) : P ProbeRunResult :=
  withCleanup (x.buildRunner.run spec) (awaitStray x.uid)

/-- `run_probe`, of a request that was parsed. -/
def ExecutorConfig.runProbe (x : ExecutorConfig) (q : Verifier.ProbeRequest) :
    P (Except Verifier.HttpError ProbeResponse) :=
  if q.params.protocolVersion ≠ protocolVersion then
    .ret (.error ⟨400, "unsupported protocol_version"⟩)
  else
    match x.specFor q with
    | .error e => .ret (.error e)
    | .ok spec => do
        if ← ask (·.locked) then pure (.error ⟨409, "verifier is at capacity"⟩)
        else do
          let result ← x.inSlot spec
          pure (.ok (fromResult q result))

/-! ## What is bound -/

/-- What the registry holds for a probe that was loaded. -/
structure Loaded (x : ExecutorConfig) (content : Registered) (probe : ApprovedProbe) : Prop where
  accepted : Accepted x.python probe.manifest
  script : ∃ bytes, content.script = .bytes bytes ∧ bytes.length ≤ maxScriptBytes ∧
    x.hashing.sha256Hex bytes = probe.scriptHash ∧
    x.hashing.decodeUtf8 bytes = some probe.scriptContent

theorem readScript_ok {py : Python} {hashing : Hashing} {content : Registered} {items : Items}
    {hash text : Text} (h : readScript py hashing content items = .ok (hash, text)) :
    ∃ bytes, content.script = .bytes bytes ∧ bytes.length ≤ maxScriptBytes ∧
      hashing.sha256Hex bytes = hash ∧ hashing.decodeUtf8 bytes = some text := by
  unfold readScript at h
  dsimp only at h
  cases hscript : content.script with
  | notFound =>
      rw [hscript] at h
      cases h
  | denied =>
      rw [hscript] at h
      cases h
  | unreadable error =>
      rw [hscript] at h
      cases h
  | bytes bytes =>
      rw [hscript] at h
      dsimp only at h
      obtain ⟨⟨⟩, hlength, h⟩ := bind_ok.mp h
      obtain ⟨⟨⟩, -, h⟩ := bind_ok.mp h
      cases hdecode : hashing.decodeUtf8 bytes with
      | none =>
          rw [hdecode] at h
          cases h
      | some decoded =>
          rw [hdecode] at h
          obtain ⟨rfl, rfl⟩ := Prod.mk.inj (Except.ok.inj h)
          exact ⟨bytes, rfl, of_decide_eq_true (require_ok.mp hlength), rfl, hdecode⟩

theorem loadProbe_ok {x : ExecutorConfig} {allowSmoke : Bool} {content : Registered}
    {repository : Text} {issueNumber : Int} {probe : ApprovedProbe}
    (h : loadProbe x.python x.hashing content allowSmoke repository issueNumber = .ok probe) :
    Loaded x content probe ∧ probe.repository = repository ∧ probe.issueNumber = issueNumber := by
  unfold loadProbe at h
  obtain ⟨⟨⟩, -, h⟩ := bind_ok.mp h
  obtain ⟨⟨⟩, -, h⟩ := bind_ok.mp h
  obtain ⟨raw, -, h⟩ := bind_ok.mp h
  obtain ⟨items, hitems, h⟩ := bind_ok.mp h
  obtain ⟨⟨hash, text⟩, hscript, h⟩ := bind_ok.mp h
  dsimp only at h
  split at h
  · cases h
  obtain rfl := Except.ok.inj h
  have haccepted : Accepted x.python items := by
    unfold validateManifest at hitems
    split at hitems
    · obtain ⟨⟨⟩, hvalid, hret⟩ := bind_ok.mp hitems
      obtain rfl := Except.ok.inj hret
      exact validateItems_ok hvalid
    · cases hitems
  exact ⟨⟨haccepted, readScript_ok hscript⟩, rfl, rfl⟩

theorem invalidSetupStep_eq_none {r : LocalProbeRunner} {spec : RunSpec} :
    r.invalidSetupStep spec = none ↔ ∀ argv ∈ spec.setupSteps, "" ∉ argv ∧
      ∃ program, argv.head? = some program ∧ '/' ∉ program.toList ∧
        program ∈ spec.requiredTools := by
  unfold LocalProbeRunner.invalidSetupStep
  rw [List.findSome?_eq_none_iff]
  refine forall₂_congr fun argv _ => ?_
  cases argv with
  | nil => simp
  | cons program args =>
      dsimp only
      constructor
      · intro h
        split_ifs at h with hempty hbad
        rw [not_or, not_not] at hbad
        exact ⟨hempty, program, rfl, hbad⟩
      · rintro ⟨hempty, p, hp, hgood⟩
        obtain rfl := Option.some.inj hp
        rw [if_neg hempty, if_neg (by rw [not_or, not_not]; exact hgood)]

/-- **What the validator accepts, the runner accepts**: a setup step of an approved manifest names
one of the tools, and no argument of it is empty. -/
theorem boundSpec_steps {x : ExecutorConfig} {content : Registered} {probe : ApprovedProbe}
    (h : Loaded x content probe) (r : LocalProbeRunner) (q : Verifier.ProbeRequest) :
    r.invalidSetupStep (x.boundSpec q probe) = none := by
  rw [invalidSetupStep_eq_none]
  intro argv hargv
  obtain ⟨texts, htexts, rfl⟩ := List.mem_map.mp hargv
  obtain ⟨step, hstep, rfl⟩ := List.mem_map.mp htexts
  obtain ⟨args, hargs, ⟨htool, hslash⟩, -⟩ := h.accepted.setup.setup step hstep
  obtain ⟨rfl, hne, -, hlengths⟩ := asArgv_some.mp hargs
  have htext : (args.map Yaml.str).map Yaml.text = args := by
    rw [List.map_map]
    exact List.map_id args
  dsimp only
  rw [htext]
  constructor
  · intro hempty
    obtain ⟨a, ha, hnil⟩ := List.mem_map.mp hempty
    have hzero : a = [] := by
      have htoList := congrArg String.toList hnil
      simpa using htoList
    have hone := (hlengths a ha).1
    rw [hzero] at hone
    cases hone
  · obtain ⟨program, rest, rfl⟩ := List.exists_cons_of_ne_nil hne
    refine ⟨String.ofList program, rfl, ?_, ?_⟩
    · rw [String.toList_ofList]
      exact hslash
    · exact List.mem_map_of_mem htool

/-- A spec that is bound to a request: the approved script, at the commit and against the target of
the request, within the limits, and with steps that the runner accepts. -/
structure ExecutorConfig.Bound (x : ExecutorConfig) (q : Verifier.ProbeRequest) (spec : RunSpec) :
    Prop where
  allowed : q.params.repository ∈ x.repositoryAllowlist
  repository : spec.repository = q.params.repository
  commitSha : spec.commitSha = q.params.commitSha
  target : spec.target = targetOf q.params.target
  scriptHash : spec.scriptHash = q.params.scriptHash
  script : ∃ bytes text, (x.registry q.params.repository q.params.issueNumber).script =
      .bytes bytes ∧ spec.scriptHash = String.ofList (x.hashing.sha256Hex bytes) ∧
    x.hashing.decodeUtf8 bytes = some text ∧ spec.scriptContent = String.ofList text
  timeout : spec.timeoutSeconds ≤ x.maxTimeoutSeconds ∧
    (1 ≤ q.params.timeoutSeconds → 1 ≤ spec.timeoutSeconds)
  setupTimeout : 1 ≤ spec.setupTimeoutSeconds ∧ spec.setupTimeoutSeconds ≤ x.maxTimeoutSeconds
  steps : x.buildRunner.invalidSetupStep spec = none

theorem Loaded.timeout_pos {x : ExecutorConfig} {content : Registered} {probe : ApprovedProbe}
    (h : Loaded x content probe) : 1 ≤ manifestTimeout probe.manifest := by
  obtain ⟨n, hn, hlow, -⟩ := h.accepted.timeout
  unfold manifestTimeout
  rw [hn]
  exact hlow

theorem Loaded.setupTimeout_pos {x : ExecutorConfig} {content : Registered} {probe : ApprovedProbe}
    (h : Loaded x content probe) : 1 ≤ manifestSetupTimeout probe.manifest := by
  unfold manifestSetupTimeout
  split
  · next n hn =>
      obtain ⟨m, hm, hlow, -⟩ := h.accepted.setup.setupTimeout _ hn
      cases hm
      exact hlow
  · decide

theorem specFor_bound {x : ExecutorConfig} {q : Verifier.ProbeRequest} {spec : RunSpec}
    (h : x.specFor q = .ok spec) : x.Bound q spec := by
  unfold ExecutorConfig.specFor at h
  split at h
  · cases h
  · next hallowed =>
      split at h
      · cases h
      · cases h
      · next probe hload =>
          obtain ⟨hloaded, hrepository, -⟩ := loadProbe_ok hload
          split_ifs at h with hhash hidentifier
          obtain rfl := Except.ok.inj h
          rw [not_or, not_not, not_not] at hhash
          have hpos : (1 : Int) ≤ x.maxTimeoutSeconds := by
            have hmax := x.maxTimeout_pos
            omega
          obtain ⟨bytes, hbytes, -, hsha, hdecode⟩ := hloaded.script
          refine ⟨not_not.mp hallowed, ?_, rfl, rfl, hhash.1, ⟨bytes, _, hbytes, ?_, hdecode, rfl⟩,
            ⟨?_, fun hq => ?_⟩, ⟨?_, ?_⟩, boundSpec_steps hloaded _ q⟩
          · show String.ofList probe.repository = _
            rw [hrepository]
            exact String.ofList_toList
          · rw [hsha]
            rfl
          · exact Int.le_trans (Int.min_le_right _ _) (Int.min_le_right _ _)
          · exact Int.le_min.mpr ⟨by omega, Int.le_min.mpr ⟨hloaded.timeout_pos, hpos⟩⟩
          · exact Int.le_min.mpr ⟨hloaded.setupTimeout_pos, hpos⟩
          · exact Int.min_le_right _ _

/-! ## What the executor leaves behind -/

theorem killEach_returns {ps : List ℕ} {s s' : Table} {l : List (Answer × Table)}
    {res : Except Exc Unit} (h : (killEach ps).Runs Op.apply Later s l res s') : res = .ok () := by
  induction ps generalizing s l with
  | nil => exact h.ret_inv.2.1
  | cons p ps ih =>
      obtain ⟨i, s₁, l', -, -, hn⟩ := h.act_inv
      exact ih hn

theorem readEntries_error {hunt : Hunt} {ps : List ℕ} {s s' : Table}
    {l : List (Answer × Table)} {e : Exc}
    (h : (readEntries hunt ps).Runs Op.apply Later s l (.error e) s') :
    e = .undecodable ∧ ∃ x ∈ l, x.1.garbled = true := by
  induction ps generalizing s l with
  | nil =>
      obtain ⟨-, hres, -⟩ := h.ret_inv
      cases hres
  | cons p ps ih =>
      obtain ⟨i, s₁, l', -, rfl, hn⟩ := h.act_inv
      split at hn
      · next hgarbled =>
          obtain ⟨-, hres, -⟩ := hn.raise_inv
          exact ⟨Except.error.inj hres, (i, s₁), List.mem_cons_self,
            (Bool.and_eq_true_iff.mp hgarbled).1⟩
      · rcases hn.bind_inv with ⟨e', hres, hfail⟩ | ⟨rest, s₂, l₁, l₂, -, -, hk⟩
        · obtain rfl := Except.error.inj hres
          obtain ⟨he, x, hx, hgarbled⟩ := ih hfail
          exact ⟨he, x, List.mem_cons_of_mem _ hx, hgarbled⟩
        · obtain ⟨-, hres, -⟩ := hk.ret_inv
          cases hres

/-- A sweep raises nothing but the error of a `status` that is no UTF-8. -/
theorem sweep_error {hunt : Hunt} {n : ℕ} {s s' : Table} {l : List (Answer × Table)} {e : Exc}
    (h : (sweep hunt n).Runs Op.apply Later s l (.error e) s') :
    e = .undecodable ∧ ∃ x ∈ l, x.1.garbled = true := by
  induction n generalizing s l with
  | zero =>
      obtain ⟨-, hres, -⟩ := h.ret_inv
      cases hres
  | succ n ih =>
      rcases Prog.Runs.bind_inv h with ⟨e', hres, hfail⟩ | ⟨pids, s₁, l₁, l₂, rfl, -, hk⟩
      · obtain rfl := Except.error.inj hres
        obtain ⟨i, s₁, l', -, rfl, hn⟩ := Prog.Runs.act_inv hfail
        split at hn
        · obtain ⟨-, hres, -⟩ := hn.ret_inv
          cases hres
        · obtain ⟨he, x, hx, hgarbled⟩ := readEntries_error hn
          exact ⟨he, x, List.mem_cons_of_mem _ hx, hgarbled⟩
      · split at hk
        · obtain ⟨-, hres, -⟩ := hk.ret_inv
          cases hres
        · rcases Prog.Runs.bind_inv hk with ⟨e', -, hfail⟩ | ⟨u, s₂, l₃, l₄, rfl, -, hrest⟩
          · cases killEach_returns hfail
          · obtain ⟨i, s₃, l₅, -, rfl, hsweep⟩ := Prog.Runs.act_inv hrest
            obtain ⟨he, x, hx, hgarbled⟩ := ih hsweep
            exact ⟨he, x, List.mem_append_right _ (List.mem_append_right _
              (List.mem_cons_of_mem _ hx)), hgarbled⟩

/-- A run with something to do at its end is the run, and that. -/
theorem withCleanup_runs {α : Type} {p : P α} {fin : P Unit} {s s' : Table}
    {l : List (Answer × Table)} {res : Except Exc α}
    (h : (withCleanup p fin).Runs Op.apply Later s l res s') :
    ∃ s₁ l₁ l₂ res₁ out, l = l₁ ++ l₂ ∧ p.Runs Op.apply Later s l₁ res₁ s₁ ∧
      fin.Runs Op.apply Later s₁ l₂ out s' ∧ res = out.bind fun _ => res₁ := by
  rcases Prog.Runs.bind_inv h with ⟨e, rfl, hfail⟩ | ⟨a, s₁, l₁, l₂, rfl, hok, hk⟩
  · rcases hfail.handle_inv with ⟨a, hres, -, -⟩ | ⟨e', s₂, l₃, l₄, rfl, hp, hh, -⟩
    · cases hres
    · rcases Prog.Runs.bind_inv hh with ⟨e'', hres, hend⟩ | ⟨u, s₃, l₅, l₆, rfl, hend, hraise⟩
      · obtain rfl := Except.error.inj hres
        exact ⟨s₂, l₃, l₄, _, _, rfl, hp, hend, rfl⟩
      · obtain ⟨rfl, hres, rfl⟩ := hraise.raise_inv
        rw [List.append_nil]
        exact ⟨s₂, l₃, l₅, _, _, rfl, hp, hend, hres⟩
  · rcases hok.handle_inv with ⟨a', hres, hp, -⟩ | ⟨e', s₂, l₃, l₄, -, -, hh, -⟩
    · obtain rfl := Except.ok.inj hres
      rcases Prog.Runs.bind_inv hk with ⟨e, rfl, hend⟩ | ⟨u, s₃, l₅, l₆, rfl, hend, hret⟩
      · exact ⟨s₁, l₁, l₂, _, _, rfl, hp, hend, rfl⟩
      · obtain ⟨rfl, rfl, rfl⟩ := hret.ret_inv
        rw [List.append_nil]
        exact ⟨s₁, l₁, l₅, _, _, rfl, hp, hend, rfl⟩
    · -- the handler raises again
      rcases Prog.Runs.bind_inv hh with ⟨e'', hres, -⟩ | ⟨u, s₃, l₅, l₆, -, -, hraise⟩
      · cases hres
      · obtain ⟨-, hres, -⟩ := hraise.raise_inv
        cases hres

/-- How the slot is left when the sweep is not waited for to its end: the task is cancelled while
another thread sweeps, or the `status` of a process is no UTF-8. -/
inductive Broken (l : List (Answer × Table)) : Exc → Prop
  | cancelled {i : Answer} {s : Table} : l = [(i, s)] → i.cancelled = true → Broken l .cancelled
  | undecodable {x : Answer × Table} : x ∈ l → x.1.garbled = true → Broken l .undecodable

/-- **Nobody who was there when a probe ended is alive once the slot is left**, its result or
exception sent or not, unless the wait for the sweep is broken off or ten rounds of it found somebody
each. A process that lost the thread it began with is excepted. -/
theorem probe_contained (x : ExecutorConfig) (hroot : x.uid ≠ 0) (spec : RunSpec)
    {s s' : Table} {l : List (Answer × Table)} {res : Except Exc ProbeRunResult}
    (h : (x.inSlot spec).Runs Op.apply Later s l res s')
    (hlisted : ∀ i ∈ l, i.1.unlisted = false) :
    ∃ s₁ l₁ l₂ res₁, l = l₁ ++ l₂ ∧ (x.buildRunner.run spec).Runs Op.apply Later s l₁ res₁ s₁ ∧
      ((∃ e, res = .error e ∧ Broken l₂ e) ∨ res = res₁ ∧
        ((∀ (p : ℕ) (old new : Proc), s₁[p]? = some old → s'[p]? = some new →
            new.leader = .present → new.alive = false) ∨
          maxRounds ≤ rounds ((awaitStray x.uid).steps l₂))) := by
  obtain ⟨s₁, l₁, l₂, res₁, out, rfl, hrun, hsweep, rfl⟩ := withCleanup_runs h
  refine ⟨s₁, l₁, l₂, res₁, rfl, hrun, ?_⟩
  obtain ⟨i, s₂, l', hlater, rfl, hn⟩ := hsweep.act_inv
  split at hn
  · next hcancelled =>
      obtain ⟨rfl, rfl, -⟩ := hn.raise_inv
      exact Or.inl ⟨_, rfl, .cancelled rfl hcancelled⟩
  next hcancelled =>
    have hkill : killStray x.uid = sweep .stray maxRounds := if_neg hroot
    rw [hkill] at hn
    cases out with
    | error e =>
        obtain ⟨rfl, y, hy, hgarbled⟩ := sweep_error hn
        exact Or.inl ⟨_, rfl, .undecodable (List.mem_cons_of_mem _ hy) hgarbled⟩
    | ok u =>
        refine Or.inr ⟨rfl, ?_⟩
        have hsteps : (awaitStray x.uid).steps ((i, s₂) :: l') =
            ⟨i, s₂, .look⟩ :: (sweep .stray maxRounds).steps l' := by
          rw [← hkill]
          unfold awaitStray
          exact congrArg (_ :: Prog.steps · l') (if_neg hcancelled)
        have hrounds : rounds ((awaitStray x.uid).steps ((i, s₂) :: l')) =
            rounds ((sweep .stray maxRounds).steps l') := by
          rw [hsteps]
          exact List.countP_cons_of_neg Bool.false_ne_true
        rw [hrounds]
        refine (sweep_runs hn fun y hy => hlisted y (List.mem_append_right _
          (List.mem_cons_of_mem _ hy))).imp_left fun hcleared => ?_
        intro p old new hold hnew hfirst
        have hunwanted := hcleared.since hlater p old new hold hnew hfirst
        by_contra halive
        rw [Hunt.wants_iff.mpr ⟨eq_true_of_ne_false halive, ?_, ?_⟩] at hunwanted
        · cases hunwanted
        · rw [hfirst]
          decide
        · exact fun marker hmarker => by cases hmarker

/-! ### An executor -/

def demoHash : String := "00112233445566778899aabbccddeeff00112233445566778899aabbccddeeff"

def demoExecutor : ExecutorConfig where
  cloneUrl repository := "https://github.com/" ++ repository ++ ".git"
  cacheRoot := none
  egressProxyUrl := ""
  repositoryAllowlist := ["apache/superset"]
  maxTimeoutSeconds := 3600
  maxTimeout_pos := by decide
  uid := 10001
  registry _ _ := {
    directory := "/probes/apache/superset/4213".toList
    manifest := .file false
      (.value (.dict (demoManifest "0123456789abcdef0123456789abcdef01234567")))
    script := .bytes []
    commit := none }
  python := asciiPython
  hashing := ⟨fun _ => some "03ac6742".toList, fun _ => demoHash.toList,
    fun _ => some "exit 1".toList⟩
  reprs _ := ""
  repr _ := ""
  decode bytes := String.ofList (bytes.map fun b => Char.ofNat b.toNat)

def demoRequest : Verifier.ProbeRequest where
  requestId := "9f2d"
  params := {
    repository := "apache/superset"
    issueNumber := 4213
    commitSha := "2fd4e1c6"
    target := .base
    probeIdentifier := "apache/superset#4213@sha256:0011223344556677"
    scriptHash := demoHash
    manifestHash := "03ac6742"
    timeoutSeconds := 600
    maxOutputBytes := 65536 }

def demoRunSpec : RunSpec where
  repository := "apache/superset"
  issueNumber := 4213
  commitSha := "2fd4e1c6"
  target := .base
  probeIdentifier := "apache/superset#4213@sha256:0011223344556677"
  scriptHash := demoHash
  timeoutSeconds := 600
  maxOutputBytes := 65536
  requiredTools := ["bash"]
  setupTimeoutSeconds := 1800
  manifestHash := ""
  requestId := ""
  scriptContent := "exit 1"
  setupSteps := []
  cacheInputs := []

/-- The runner refuses to run, and the sweep finds a process that was there before. -/
theorem probe_contained_demo : ∃ (l : List (Answer × Table)) (s' : Table),
    (demoExecutor.inSlot demoRunSpec).Runs Op.apply Later [{ marker := none, alive := true }] l
      ((demoExecutor.inSlot demoRunSpec).alone Op.apply { exposed := ["DEVIN_API_KEY"] }
        [{ marker := none, alive := true }]).1 s' ∧
      ∃ s₁ l₁ l₂ res₁, l = l₁ ++ l₂ ∧
        (demoExecutor.buildRunner.run demoRunSpec).Runs Op.apply Later
          [{ marker := none, alive := true }] l₁ res₁ s₁ ∧
        ((∀ (p : ℕ) (old new : Proc), s₁[p]? = some old → s'[p]? = some new →
            new.leader = .present → new.alive = false) ∨
          maxRounds ≤ rounds ((awaitStray demoExecutor.uid).steps l₂)) := by
  obtain ⟨l, hrun, hl⟩ := Prog.runs_alone Op.apply (demoExecutor.inSlot demoRunSpec)
    { exposed := ["DEVIN_API_KEY"] } Later.refl [{ marker := none, alive := true }]
  refine ⟨l, _, hrun, ?_⟩
  obtain ⟨s₁, l₁, l₂, res₁, rfl, hbefore, hend⟩ := probe_contained demoExecutor (by decide)
    demoRunSpec hrun fun i hi => by rw [hl i hi]
  refine ⟨s₁, l₁, l₂, res₁, rfl, hbefore, ?_⟩
  rcases hend with ⟨e, -, hbroken⟩ | ⟨-, hclean⟩
  · cases hbroken with
    | @cancelled i s hlast hcancelled =>
        have hi := hl (i, s) (List.mem_append_right _ (hlast ▸ List.mem_singleton.mpr rfl))
        rw [show i = _ from hi] at hcancelled
        cases hcancelled
    | undecodable hx hgarbled =>
        rw [hl _ (List.mem_append_right _ hx)] at hgarbled
        cases hgarbled
  · exact hclean

/-! ## What the executor answers -/

/-- What is done for a request: it is refused, or its spec is bound and the runner runs it. -/
inductive ExecutorConfig.Handled (x : ExecutorConfig) (q : Verifier.ProbeRequest) (es : List Op)
    (res : Except Exc (Except Verifier.HttpError ProbeResponse)) : Prop
  | refused (e : Verifier.HttpError) : es = [] → res = .ok (.error e) →
      ExecutorConfig.Handled x q es res
  | answered {spec : RunSpec} {result : ProbeRunResult} : x.Bound q spec →
      x.buildRunner.Conduct spec es (.ok result) → res = .ok (.ok (fromResult q result)) →
      ExecutorConfig.Handled x q es res
  | raised {spec : RunSpec} {res' : Except Exc ProbeRunResult} {e : Exc} : x.Bound q spec →
      x.buildRunner.Conduct spec es res' →
      (res' = .error e ∨ e = .cancelled ∨ e = .undecodable) → res = .error e →
      ExecutorConfig.Handled x q es res

theorem awaitStray_unseen (uid : ℕ) :
    Unseen (awaitStray uid) fun e => e = .cancelled ∨ e = .undecodable := by
  refine Tracks.act fun i _ => ?_
  split
  · exact Tracks.raise ⟨rfl, fun e he => Or.inl (Except.error.inj he).symm⟩
  · unfold killStray
    split
    · exact Tracks.ret ⟨rfl, fun _ h => by cases h⟩
    · exact sweep_unseen (fun _ => Or.inr rfl) _

/-- What was done in the slot is what the run did. -/
theorem inSlot_tracks (x : ExecutorConfig) (spec : RunSpec) :
    Tracks (x.inSlot spec) fun es res => ∃ res', x.buildRunner.Conduct spec es res' ∧
      (res = res' ∨ ∃ e, res = .error e ∧ (e = .cancelled ∨ e = .undecodable)) :=
  (withCleanup_tracks (run_conduct _ spec) (awaitStray_unseen x.uid)).weaken fun es res h => by
    obtain ⟨es', last, res', out, rfl, hconduct, ⟨rfl, herror⟩, rfl⟩ := h
    rw [List.append_nil]
    refine ⟨res', hconduct, ?_⟩
    cases out with
    | ok u => exact Or.inl rfl
    | error e => exact Or.inr ⟨e, rfl, herror e rfl⟩

theorem runProbe_tracks (x : ExecutorConfig) (q : Verifier.ProbeRequest) :
    Tracks (x.runProbe q) (x.Handled q) := by
  unfold ExecutorConfig.runProbe
  split
  · exact Tracks.ret (.refused _ rfl rfl)
  · split
    · exact Tracks.ret (.refused _ rfl rfl)
    · next spec hspec =>
        have hbound := specFor_bound hspec
        refine Unseen.bind (E := fun _ => False) Unseen.ask (fun _ h => h.elim) fun locked => ?_
        split
        · exact Tracks.ret (.refused _ rfl rfl)
        · refine Tracks.bind (inSlot_tracks x spec)
            (B := fun result es res => es = [] ∧ res = .ok (.ok (fromResult q result)))
            (fun result => Tracks.ret ⟨rfl, rfl⟩) ?_ ?_
          · rintro es e ⟨res', hconduct, rfl | ⟨e', he, hbroken⟩⟩
            · exact .raised hbound hconduct (Or.inl rfl) rfl
            · obtain rfl := Except.error.inj he
              exact .raised hbound hconduct (Or.inr hbroken) rfl
          · rintro result es₁ es₂ res ⟨res', hconduct, rfl | ⟨e, he, -⟩⟩ ⟨rfl, rfl⟩
            · rw [List.append_nil]
              exact .answered hbound hconduct rfl
            · cases he

/-- The requests one after the other: whoever comes while the slot is taken is refused at once. An
exception ends its request with status 500. -/
def ExecutorConfig.serve (x : ExecutorConfig) : List Verifier.ProbeRequest →
    P (List (Except Exc (Except Verifier.HttpError ProbeResponse)))
  | [] => .ret []
  | q :: qs => do
      let out ← ((x.runProbe q).bind fun answer => .ret (.ok answer)).handle fun e =>
        .ret (.error e)
      let outs ← ExecutorConfig.serve x qs
      pure (out :: outs)

/-- What was done for the requests, in their order. -/
inductive ExecutorConfig.Served (x : ExecutorConfig) : List Verifier.ProbeRequest → List Op →
    List (Except Exc (Except Verifier.HttpError ProbeResponse)) → Prop
  | nil : ExecutorConfig.Served x [] [] []
  | cons {q : Verifier.ProbeRequest} {qs : List Verifier.ProbeRequest} {es es' : List Op}
      {out : Except Exc (Except Verifier.HttpError ProbeResponse)}
      {outs : List (Except Exc (Except Verifier.HttpError ProbeResponse))} :
      x.Handled q es out → ExecutorConfig.Served x qs es' outs →
      ExecutorConfig.Served x (q :: qs) (es ++ es') (out :: outs)

/-- The outcome of a request, with its exception. -/
theorem outcome_tracks (x : ExecutorConfig) (q : Verifier.ProbeRequest) :
    Tracks (((x.runProbe q).bind fun answer => .ret (.ok answer)).handle fun e => .ret (.error e))
      fun es res => ∃ out, res = .ok out ∧ x.Handled q es out := by
  have hanswer : Tracks ((x.runProbe q).bind fun answer =>
      (.ret (.ok answer) : P (Except Exc (Except Verifier.HttpError ProbeResponse)))) fun es res =>
        (∀ out, res = .ok out → x.Handled q es out) ∧
          ∀ e, res = .error e → x.Handled q es (.error e) := by
    refine Tracks.bind (runProbe_tracks x q) (B := fun answer es res => es = [] ∧
      res = .ok (.ok answer)) (fun answer => Tracks.ret ⟨rfl, rfl⟩) ?_ ?_
    · exact fun es e h => ⟨(fun out hout => by cases hout), fun e' he => by cases he; exact h⟩
    · rintro answer es₁ es₂ res h ⟨rfl, rfl⟩
      rw [List.append_nil]
      exact ⟨fun out hout => by cases hout; exact h, fun e he => by cases he⟩
  refine Tracks.handle hanswer (B := fun e es res => es = [] ∧ res = .ok (.error e))
    (fun e => Tracks.ret ⟨rfl, rfl⟩) ?_ ?_
  · exact fun out es h => ⟨out, rfl, h.1 out rfl⟩
  · rintro e es₁ es₂ res h ⟨rfl, rfl⟩
    rw [List.append_nil]
    exact ⟨.error e, rfl, h.2 e rfl⟩

/-- **What the executor does over its life**: each request in its turn is refused, or fails while its
directories are made, or its approved script is run as planned, and the removal of its workspace is
called before the next one is made. -/
theorem serve_conduct (x : ExecutorConfig) (qs : List Verifier.ProbeRequest) :
    Tracks (x.serve qs) fun es res => ∃ outs, res = .ok outs ∧ x.Served qs es outs := by
  induction qs with
  | nil => exact Tracks.ret ⟨[], rfl, .nil⟩
  | cons q qs ih =>
      refine Tracks.bind (outcome_tracks x q) (B := fun out es res =>
        ∃ outs, res = .ok (out :: outs) ∧ x.Served qs es outs) (fun out => ?_) ?_ ?_
      · refine Tracks.bind ih (B := fun outs es res => es = [] ∧ res = .ok (out :: outs))
          (fun outs => Tracks.ret ⟨rfl, rfl⟩) ?_ ?_
        · rintro es e ⟨outs, hres, -⟩
          cases hres
        · rintro outs es₁ es₂ res ⟨outs', hres, hserved⟩ ⟨rfl, rfl⟩
          obtain rfl := Except.ok.inj hres
          rw [List.append_nil]
          exact ⟨outs, rfl, hserved⟩
      · rintro es e ⟨out, hres, -⟩
        cases hres
      · rintro out es₁ es₂ res ⟨out', hres, hhandled⟩ ⟨outs, rfl, hserved⟩
        obtain rfl := Except.ok.inj hres
        exact ⟨out :: outs, rfl, .cons hhandled hserved⟩

/-! ## What the children can read -/

/-- What is at a path that `credential_exposure` looks at; `none` when a directory cannot be
listed. -/
inductive PathState
  | missing
  | directory (entries : Option (List String))
  | file

/-- `CREDENTIAL_ENV_NAMES`. -/
def credentialEnvNames : List String :=
  ["DEVIN_API_KEY", "GITHUB_TOKEN", "GITHUB_WEBHOOK_SECRET", "SLACK_BOT_TOKEN",
    "SLACK_SIGNING_SECRET", "OPERATOR_TOKEN", "DATABASE_URL"]

/-- `CREDENTIAL_ENV_SUFFIXES`. -/
def credentialEnvSuffixes : List String :=
  ["_TOKEN", "_SECRET", "_API_KEY", "_PASSWORD", "_PRIVATE_KEY"]

/-- The name of a variable that holds a credential; `upper` is `str.upper`. -/
def isCredentialName (upper : Text → Text) (name : String) : Bool :=
  decide (name ∈ credentialEnvNames) ||
    credentialEnvSuffixes.any fun ending => ending.toList.isSuffixOf (upper name.toList)

/-- `credential_exposure`. -/
def credentialExposure (upper : Text → Text) (own : List String)
    (environ : List (String × String)) (paths : List (String × PathState)) : List String :=
  ((environ.filter fun v => v.2 ≠ "" && isCredentialName upper v.1).map (·.1)).mergeSort ++
    paths.flatMap fun path =>
      match path.2 with
      | .missing => []
      | .directory none | .file => [path.1]
      | .directory (some entries) =>
          (entries.mergeSort.filter fun name => decide (name ∉ own)).map (path.1 ++ "/" ++ ·)

/-- The variables that children get, besides those of `extra_env`. -/
def runnerNames : List String :=
  ["PATH", "HOME", "LANG", "LC_ALL", "GIT_TERMINAL_PROMPT", "GIT_CONFIG_NOSYSTEM", "CI",
    "REMEDIATOR_PROBE_RUN", "PROBE_TARGET", "PROBE_COMMIT", "PROBE_REPOSITORY", "PROBE_IDENTIFIER",
    "npm_config_cache", "YARN_CACHE_FOLDER", "PIP_CACHE_DIR"]

/-- The variables of `child_env`. -/
def proxyNames : List String :=
  ["HTTPS_PROXY", "https_proxy", "HTTP_PROXY", "http_proxy", "NO_PROXY", "no_proxy"]

theorem mem_update {env more : List (String × String)} {v : String × String}
    (h : v ∈ update env more) : v ∈ env ∨ v ∈ more := by
  unfold update at h
  induction more generalizing env with
  | nil => exact Or.inl h
  | cons item more ih =>
      rw [List.foldl_cons] at h
      rcases ih h with hmem | hmem
      · rcases mem_assign hmem with rfl | hmem
        · exact Or.inr List.mem_cons_self
        · exact Or.inl hmem
      · exact Or.inr (List.mem_cons_of_mem _ hmem)

theorem name_mem {names : List String} {env : List (String × String)} {v : String × String}
    (h : env.map (·.1) ⊆ names) (hv : v ∈ env) : v.1 ∈ names := h (List.mem_map_of_mem hv)

theorem minimalEnv_names (home : String) : (minimalEnv home).map (·.1) ⊆ runnerNames := by
  show ["PATH", "HOME", "LANG", "LC_ALL", "GIT_TERMINAL_PROMPT", "GIT_CONFIG_NOSYSTEM", "CI"] ⊆
    runnerNames
  decide

theorem probeEnv_names (spec : RunSpec) : (probeEnv spec).map (·.1) ⊆ runnerNames := by
  show ["PROBE_TARGET", "PROBE_COMMIT", "PROBE_REPOSITORY", "PROBE_IDENTIFIER"] ⊆ runnerNames
  decide

theorem marker_names (marker : String) : [(probeRunMarker, marker)].map (·.1) ⊆ runnerNames := by
  show ["REMEDIATOR_PROBE_RUN"] ⊆ runnerNames
  decide

theorem LocalProbeRunner.Cached.names {r : LocalProbeRunner} {cache : List (String × String)}
    (h : r.Cached cache) : cache.map (·.1) ⊆ runnerNames := by
  rcases h with rfl | ⟨root, key, -, rfl⟩
  · exact List.nil_subset _
  · show ["npm_config_cache", "YARN_CACHE_FOLDER", "PIP_CACHE_DIR"] ⊆ runnerNames
    decide

theorem runEnv_names (r : LocalProbeRunner) {workspace marker : String} {v : String × String}
    (h : v ∈ r.runEnv workspace marker) : v.1 ∈ runnerNames ∨ v ∈ r.extraEnv := by
  unfold LocalProbeRunner.runEnv at h
  rcases mem_update h with h | h
  · exact (mem_update h).imp_left (name_mem (minimalEnv_names _))
  · exact Or.inl (name_mem (marker_names _) h)

theorem Progress.does_of_mem {tasks : List Task} {ops : List Op} {b : Bool}
    (h : Progress tasks ops b) {op : Op} (hop : op ∈ ops) : ∃ task ∈ tasks, task.does op := by
  induction h with
  | stopped => cases hop
  | failed tasks hdoes =>
      obtain rfl := List.mem_singleton.mp hop
      exact ⟨_, List.mem_cons_self, hdoes⟩
  | done => cases hop
  | next hdoes _ _ ih =>
      rcases List.mem_cons.mp hop with rfl | hop
      · exact ⟨_, List.mem_cons_self, hdoes⟩
      · obtain ⟨task, htask, hdoes'⟩ := ih hop
        exact ⟨task, List.mem_cons_of_mem _ htask, hdoes'⟩

/-- The environments of the children of a run. -/
theorem plan_env {r : LocalProbeRunner} {spec : RunSpec} {workspace : String}
    {env env' : List (String × String)} {task : Task} (htask : task ∈ r.plan spec workspace env env')
    {e : Exec} (hdoes : task.does (.exec e)) : e.env = env ∨ e.env = env' := by
  unfold LocalProbeRunner.plan LocalProbeRunner.identityTasks at htask
  simp only [List.mem_append, List.mem_cons, List.mem_map, List.not_mem_nil, or_false] at htask
  rcases htask with ⟨argv, -, rfl⟩ | (rfl | rfl) | rfl | ⟨argv, -, rfl⟩ | rfl
  · obtain ⟨e', he, -, henv⟩ := hdoes
    cases he
    exact Or.inl henv
  · obtain ⟨e', he, -, henv⟩ := hdoes
    cases he
    exact Or.inl henv
  · obtain ⟨e', he, -, henv⟩ := hdoes
    cases he
    exact Or.inl henv
  · cases hdoes
  · obtain ⟨e', he, -, henv⟩ := hdoes
    cases he
    exact Or.inr henv
  · obtain ⟨e', he, -, henv, -⟩ := hdoes
    cases he
    exact Or.inr henv

theorem LocalProbeRunner.Conduct.names {r : LocalProbeRunner} {spec : RunSpec} {es : List Op}
    {res : Except Exc ProbeRunResult} (h : r.Conduct spec es res) {e : Exec} (he : .exec e ∈ es)
    {v : String × String} (hv : v ∈ e.env) : v.1 ∈ runnerNames ∨ v ∈ r.extraEnv := by
  cases h with
  | refused hnil =>
      rw [hnil] at he
      cases he
  | unready hprefix =>
      have hmem := hprefix.subset he
      simp at hmem
  | @worked workspace marker es' _ hes hworked =>
      obtain ⟨versions, planned, cache, rfl, hcache, hversions, b, hprogress, -⟩ := hworked
      have hcases : e.env = r.runEnv workspace marker ∨
          e.env = update (update (r.runEnv workspace marker) (probeEnv spec)) cache := by
        rw [hes] at he
        simp only [List.mem_append, List.mem_cons, List.not_mem_nil, or_false, reduceCtorEq,
          false_or] at he
        rcases he with he | he
        · obtain ⟨tool, -, e', heq, -, henv⟩ := hversions _ he
          cases heq
          exact Or.inl henv
        · obtain ⟨task, htask, hdoes⟩ := hprogress.does_of_mem he
          exact plan_env htask hdoes
      rcases hcases with henv | henv
      · rw [henv] at hv
        exact runEnv_names r hv
      · rw [henv] at hv
        rcases mem_update hv with hv | hv
        · rcases mem_update hv with hv | hv
          · exact runEnv_names r hv
          · exact Or.inl (name_mem (probeEnv_names spec) hv)
        · exact Or.inl (name_mem hcache.names hv)

theorem childEnv_names {x : ExecutorConfig} {v : String × String} (h : v ∈ x.childEnv) :
    v.1 ∈ proxyNames := by
  unfold ExecutorConfig.childEnv at h
  split at h
  · cases h
  · have hname := List.mem_map_of_mem (f := (·.1)) h
    exact hname

theorem not_isCredentialName {upper : Text → Text}
    (hupper : ∀ t, IsAscii t → upper t = t.map Char.toUpper) {name : String}
    (h : name ∈ runnerNames ++ proxyNames) : isCredentialName upper name = false := by
  have hchecked : ∀ name ∈ runnerNames ++ proxyNames, IsAscii name.toList ∧
      isCredentialName (fun t => t.map Char.toUpper) name = false := by decide +kernel
  obtain ⟨hascii, hname⟩ := hchecked name h
  unfold isCredentialName at hname ⊢
  rw [hupper _ hascii]
  exact hname

/-- **No child of a probe is given a credential**: what `credential_exposure` looks for in an
environment is in that of none of them. -/
theorem children_hold_no_credential (x : ExecutorConfig) (q : Verifier.ProbeRequest)
    (upper : Text → Text) (hupper : ∀ t, IsAscii t → upper t = t.map Char.toUpper) :
    Tracks (x.runProbe q) fun es _ =>
      ∀ e, .exec e ∈ es → credentialExposure upper [] e.env [] = [] := by
  refine (runProbe_tracks x q).weaken fun es res h e he => ?_
  have hnames : ∀ v ∈ e.env, isCredentialName upper v.1 = false := by
    intro v hv
    have hconduct : ∃ spec res', x.buildRunner.Conduct spec es res' := by
      cases h with
      | refused error hnil =>
          rw [hnil] at he
          cases he
      | answered hbound hconduct => exact ⟨_, _, hconduct⟩
      | raised hbound hconduct => exact ⟨_, _, hconduct⟩
    obtain ⟨spec, res', hconduct⟩ := hconduct
    refine not_isCredentialName hupper (List.mem_append.mpr ?_)
    exact (hconduct.names he hv).imp_right childEnv_names
  have hnone : (e.env.filter fun v => v.2 ≠ "" && isCredentialName upper v.1) = [] := by
    refine List.filter_eq_nil_iff.mpr fun v hv => ?_
    rw [hnames v hv, Bool.and_false]
    exact Bool.false_ne_true
  unfold credentialExposure
  rw [hnone, List.map_nil, List.mergeSort_nil]
  rfl

theorem children_hold_no_credential_demo :
    Tracks (demoExecutor.runProbe demoRequest) fun es _ => ∀ e, .exec e ∈ es →
      credentialExposure (fun t => t.map Char.toUpper) [] e.env [] = [] :=
  children_hold_no_credential demoExecutor demoRequest _ fun _ _ => rfl

end Remediator.Probes.Host
