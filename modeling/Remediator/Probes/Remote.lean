import Remediator.Lib.Machine
import Remediator.Clients.Http
import Remediator.Models

set_option autoImplicit false

/-! # The remote probe runner

`remediator/probes/remote.py`: before a probe the worker asks the verifier for its capabilities
and refuses, as an infrastructure failure, a verifier it cannot trust; then it names the approved
snapshot to `POST /probe` and compares what the answer says it ran with what was asked for.

The bodies of the replies are of an arbitrary type: how JSON and the wire types are decoded is a
parameter. A `ValueError` of a decoder is caught, and another exception (the `RecursionError` of a
body that is nested too deeply) leaves the runner. Times are in milliseconds.
-/

namespace Remediator.Probes

open Clients

/-! ## Wire types -/

/-- `Isolation`, without the fields that only describe. -/
structure Isolation where
  uid : Int
  rootWritable : Bool
  noNewPrivs : Option Bool
  effectiveCapabilities : Option String
  pidsLimit : Option Int
  memoryLimitBytes : Option Int
  dockerSocketPresent : Bool
  credentialExposure : List String
  directEgress : Option Bool

/-- `problems.append(text)` under a condition. -/
def problem (wrong : Bool) (text : String) : List String := if wrong then [text] else []

/-- `Isolation.unenforced`. -/
def Isolation.unenforced (iso : Isolation) : List String :=
  problem (decide (iso.uid = 0)) "runs as root" ++
  problem iso.rootWritable "root filesystem is writable" ++
  problem iso.dockerSocketPresent "docker socket is mounted" ++
  problem (decide (iso.noNewPrivs = some false)) "no-new-privileges is not set" ++
  problem (decide (iso.effectiveCapabilities ≠ none ∧
      iso.effectiveCapabilities ≠ some "0000000000000000"))
    "effective capabilities are not empty" ++
  problem iso.pidsLimit.isNone "no pids limit visible in the cgroup" ++
  problem iso.memoryLimitBytes.isNone "no memory limit visible in the cgroup" ++
  match iso.directEgress with
  | some true => ["direct internet egress is possible from the probe executor"]
  | none => ["egress restriction was not verified"]
  | some false => []

/-- `Capabilities`, without the fields that the worker does not read. -/
structure Capabilities where
  protocolVersion : String
  isolation : Isolation
  tools : List (String × Bool)
  repositoryAllowlist : List String
  registryPresent : Bool
  execution : String

/-- `key_isolated_from_probes`. -/
def Capabilities.keyIsolatedFromProbes (caps : Capabilities) : Bool :=
  decide (caps.execution = "runner")

/-- `ProbeResponse`, without the fields that the worker does not read. -/
structure ProbeResponse where
  requestId : String
  repository : String
  commitSha : String
  scriptHash : String
  commandIdentity : String
  exitCode : Option Int
  stdout : String
  stderr : String
  outputTruncated : Bool
  timedOut : Bool
  durationMs : Int
  infrastructureError : Option String
  failureStage : Option String
  toolVersions : List (String × String)

/-- `ProbeRunSpec`, without what only the executor reads. -/
structure ProbeRunSpec where
  repository : String
  issueNumber : Int
  commitSha : String
  target : ProbeTarget
  probeIdentifier : String
  scriptHash : String
  timeoutSeconds : Int
  maxOutputBytes : Int
  requiredTools : List String
  setupTimeoutSeconds : Int
  manifestHash : String
  requestId : String

/-- `target.value.lower()`. -/
def targetText : ProbeTarget → String
  | .base => "base"
  | .head => "head"

/-- `command_identity`. -/
def commandIdentity (spec : ProbeRunSpec) : String :=
  "bash probe.sh sha256:" ++ spec.scriptHash ++ " @ " ++ spec.repository ++ "@" ++ spec.commitSha ++
    " (" ++ targetText spec.target ++ ")"

/-! ## Replies -/

/-- Why a body is not decoded: a `ValueError`, by the name of its class, or another exception. -/
inductive Undecoded
  | value (name : String)
  | escapes (e : Json.Exc)

/-- The decoders of the bodies, the text under `detail` and the `repr` of a list of strings. -/
structure Wire (Body : Type) where
  capabilities : Body → Except Undecoded Capabilities
  response : Body → Except Undecoded ProbeResponse
  detail : Body → Except Json.Exc String
  repr : List String → String

structure RemoteProbeRunner (Body : Type) where
  wire : Wire Body
  requireIsolation : Bool

/-- The report that `capabilities` keeps, with the time of its checks. -/
abbrev Cache := Option (Nat × Capabilities)

/-- What one call of the runner meets: the replies to its two requests, and the clock when it
starts, asks for the capabilities and gives up. -/
structure Call (Body : Type) where
  started : Nat
  asked : Nat
  ended : Nat
  capabilities : Reply Body
  probe : Reply Body

variable {Body : Type}

/-- `_CAPABILITIES_TTL_SECONDS`. -/
def capabilitiesTtl : Nat := 30000

/-- `VERIFIER_PROTOCOL_VERSION`. -/
def protocolVersion : String := "verifier.v2"

/-- The checks of a decoded report; a refusal is its reason. -/
def RemoteProbeRunner.vet (rr : RemoteProbeRunner Body) (caps : Capabilities) :
    Except String Capabilities :=
  let iso := caps.isolation
  if caps.protocolVersion ≠ protocolVersion then
    .error ("verifier speaks " ++ caps.protocolVersion ++ ", expected " ++ protocolVersion)
  else if iso.credentialExposure ≠ [] then
    .error ("verifier can see credentials " ++ rr.wire.repr iso.credentialExposure ++
      "; refusing to use it")
  else if iso.uid = 0 then .error "verifier runs as root; refusing to use it"
  else if iso.rootWritable then .error "verifier root filesystem is writable; refusing to use it"
  else if caps.registryPresent = false then .error "verifier has no probe registry mounted"
  else if rr.requireIsolation ∧ caps.keyIsolatedFromProbes = false then
    .error ("verifier executes probes " ++ caps.execution ++
      ": the HMAC key would be readable by repository code; " ++
      "deploy the separate executor (VERIFIER_EXECUTION=runner)")
  else if rr.requireIsolation ∧ iso.unenforced ≠ [] then
    .error ("verifier isolation not enforced: " ++ "; ".intercalate iso.unenforced)
  else .ok caps

/-- The part of `capabilities` after the cache. -/
def RemoteProbeRunner.fetch (rr : RemoteProbeRunner Body) :
    Reply Body → Except Json.Exc (Except String Capabilities)
  | .failed error => .ok (.error ("verifier unreachable: " ++ error))
  | .response status body =>
      if status = 401 then
        .ok (.error "verifier rejected our signature; check PROBE_VERIFIER_SHARED_SECRET")
      else if status ≠ 200 then
        .ok (.error ("verifier capabilities returned HTTP " ++ toString status))
      else
        match rr.wire.capabilities body with
        | .error (.value name) => .ok (.error ("verifier capabilities malformed: " ++ name))
        | .error (.escapes e) => .error e
        | .ok caps => .ok (rr.vet caps)

/-- The report of the cache, if it is young enough to be used. -/
def fromCache (fresh : Bool) (cache : Cache) (c : Call Body) : Option (Nat × Capabilities) :=
  cache.filter (fun kept => !fresh && decide (c.asked - kept.1 < capabilitiesTtl))

/-- `capabilities`: the report or the reason for refusing. -/
def RemoteProbeRunner.capabilities (rr : RemoteProbeRunner Body) (fresh : Bool) (cache : Cache)
    (c : Call Body) : Except Json.Exc (Except String Capabilities) :=
  match fromCache fresh cache c with
  | some kept => .ok (.ok kept.2)
  | none => rr.fetch c.capabilities

/-- What `capabilities` assigns to the cache when a reply has come. -/
def RemoteProbeRunner.keep (rr : RemoteProbeRunner Body) (now : Nat) (reply : Reply Body)
    (cache : Cache) : Cache :=
  match rr.fetch reply with
  | .ok (.ok caps) => some (now, caps)
  | _ => cache

/-- What `run` ends with: `VerifierBusyError`, or a result. -/
inductive Outcome
  | busy
  | result (r : ProbeRunResult)

/-- `_infra`. -/
def infraResult (identity : String) (c : Call Body) (reason : String) : ProbeRunResult where
  runnerMode := "remote"
  commandIdentity := identity
  exitCode := none
  stdout := ""
  stderr := ""
  outputTruncated := false
  timedOut := false
  durationMs := (c.ended : Int) - c.started
  infrastructureError := some reason
  failureStage := some "preflight"
  toolVersions := []

def infra (identity : String) (c : Call Body) (reason : String) : Outcome :=
  .result (infraResult identity c reason)

/-- The response describes the execution that was asked for. -/
def Names (spec : ProbeRunSpec) (resp : ProbeResponse) : Prop :=
  resp.commandIdentity = commandIdentity spec ∧ resp.requestId = spec.requestId ∧
    resp.repository = spec.repository ∧ resp.commitSha = spec.commitSha ∧
    resp.scriptHash = spec.scriptHash

instance (spec : ProbeRunSpec) (resp : ProbeResponse) : Decidable (Names spec resp) :=
  inferInstanceAs (Decidable (_ ∧ _))

/-- The result that a response is turned into. -/
def ProbeResponse.result (identity : String) (resp : ProbeResponse) : ProbeRunResult where
  runnerMode := "remote"
  commandIdentity := identity
  exitCode := resp.exitCode
  stdout := resp.stdout
  stderr := resp.stderr
  outputTruncated := resp.outputTruncated
  timedOut := resp.timedOut
  durationMs := resp.durationMs
  infrastructureError := resp.infrastructureError
  failureStage := resp.failureStage
  toolVersions := resp.toolVersions

/-- The end of `run`, on the reply to `POST /probe`. -/
def RemoteProbeRunner.conclude (rr : RemoteProbeRunner Body) (spec : ProbeRunSpec) (c : Call Body) :
    Except Json.Exc Outcome :=
  let identity := commandIdentity spec
  match c.probe with
  | .failed error => .ok (infra identity c ("verifier request failed: " ++ error))
  | .response status body =>
      if status = 200 then
        match rr.wire.response body with
        | .error (.value name) => .ok (infra identity c ("verifier response malformed: " ++ name))
        | .error (.escapes e) => .error e
        | .ok resp =>
            if Names spec resp then .ok (.result (resp.result identity))
            else .ok (infra identity c "verifier reported a different execution than requested")
      else
        match rr.wire.detail body with
        | .error e => .error e
        | .ok detail =>
            if status = 409 ∧ detail = "verifier is at capacity" then .ok .busy
            else .ok (infra identity c
              ("verifier returned HTTP " ++ toString status ++ ": " ++ detail))

/-- The required tools that the verifier does not report as present. -/
def missingTools (spec : ProbeRunSpec) (caps : Capabilities) : List String :=
  spec.requiredTools.filter (fun tool => decide (List.lookup tool caps.tools ≠ some true))

/-- `run`. -/
def RemoteProbeRunner.run (rr : RemoteProbeRunner Body) (cache : Cache) (spec : ProbeRunSpec)
    (c : Call Body) : Except Json.Exc Outcome :=
  let identity := commandIdentity spec
  match rr.capabilities false cache c with
  | .error e => .error e
  | .ok (.error reason) => .ok (infra identity c reason)
  | .ok (.ok caps) =>
      if spec.repository ∉ caps.repositoryAllowlist then
        .ok (infra identity c "repository is not in the verifier allowlist")
      else if missingTools spec caps ≠ [] then
        .ok (infra identity c
          ("verifier lacks required tools: " ++ rr.wire.repr (missingTools spec caps)))
      else if spec.manifestHash = "" ∨ spec.requestId = "" then
        .ok (infra identity c "spec lacks manifest_hash/request_id")
      else rr.conclude spec c

/-- The life of a runner: the time, the replies to `GET /capabilities` that have come so far, each
with the time of its checks, and the cache. The calls that wait for them may overlap. -/
inductive RemoteProbeRunner.Reached (rr : RemoteProbeRunner Body) :
    Nat → List (Nat × Reply Body) → Cache → Prop
  | init (now : Nat) : Reached rr now [] none
  | pass {now later : Nat} {replies : List (Nat × Reply Body)} {cache : Cache} :
      Reached rr now replies cache → now ≤ later → Reached rr later replies cache
  | reply {now : Nat} {replies : List (Nat × Reply Body)} {cache : Cache} (reply : Reply Body) :
      Reached rr now replies cache →
      Reached rr now ((now, reply) :: replies) (rr.keep now reply cache)

/-! ## Trust in the verifier -/

/-- The confinement that `unenforced` asks for. -/
structure Enforced (iso : Isolation) : Prop where
  uid : iso.uid ≠ 0
  readOnly : iso.rootWritable = false
  socket : iso.dockerSocketPresent = false
  privileges : iso.noNewPrivs ≠ some false
  capabilities : iso.effectiveCapabilities = none ∨
    iso.effectiveCapabilities = some "0000000000000000"
  pids : iso.pidsLimit.isSome = true
  memory : iso.memoryLimitBytes.isSome = true
  egress : iso.directEgress = some false

/-- A report that passes every check. -/
structure RemoteProbeRunner.Trusted (rr : RemoteProbeRunner Body) (caps : Capabilities) : Prop where
  version : caps.protocolVersion = protocolVersion
  credentials : caps.isolation.credentialExposure = []
  uid : caps.isolation.uid ≠ 0
  readOnly : caps.isolation.rootWritable = false
  registry : caps.registryPresent = true
  isolated : rr.requireIsolation = true →
    caps.execution = "runner" ∧ Enforced caps.isolation

theorem problem_eq_nil {wrong : Bool} {text : String} : problem wrong text = [] ↔ wrong = false := by
  cases wrong with
  | true => exact ⟨nofun, nofun⟩
  | false => exact ⟨fun _ => rfl, fun _ => rfl⟩

theorem Isolation.unenforced_eq_nil {iso : Isolation} : iso.unenforced = [] ↔ Enforced iso := by
  unfold Isolation.unenforced
  simp only [List.append_eq_nil_iff, problem_eq_nil, decide_eq_false_iff_not, not_and, not_not]
  constructor
  · rintro ⟨⟨⟨⟨⟨⟨⟨huid, hroot⟩, hsocket⟩, hpriv⟩, hcaps⟩, hpids⟩, hmem⟩, hegress⟩
    refine ⟨huid, hroot, hsocket, hpriv, ?_, ?_, ?_, ?_⟩
    · by_cases hnone : iso.effectiveCapabilities = none
      · exact Or.inl hnone
      · exact Or.inr (hcaps hnone)
    · simpa using hpids
    · simpa using hmem
    · split at hegress
      · cases hegress
      · cases hegress
      · assumption
  · rintro ⟨huid, hroot, hsocket, hpriv, hcaps, hpids, hmem, hegress⟩
    refine ⟨⟨⟨⟨⟨⟨⟨huid, hroot⟩, hsocket⟩, hpriv⟩, fun hne => hcaps.resolve_left hne⟩, ?_⟩, ?_⟩, ?_⟩
    · simpa using hpids
    · simpa using hmem
    · rw [hegress]

theorem RemoteProbeRunner.vet_ok {rr : RemoteProbeRunner Body} {caps caps' : Capabilities} :
    rr.vet caps = .ok caps' ↔ caps' = caps ∧ rr.Trusted caps := by
  unfold RemoteProbeRunner.vet
  dsimp only
  constructor
  · intro h
    split_ifs at h with hv hc hu hr hg hk hi
    obtain rfl := Except.ok.inj h
    refine ⟨rfl, not_not.mp hv, not_not.mp hc, hu, by simpa using hr, by simpa using hg, ?_⟩
    intro hreq
    rw [not_and] at hk hi
    refine ⟨?_, Isolation.unenforced_eq_nil.mp (not_not.mp (hi hreq))⟩
    simpa [Capabilities.keyIsolatedFromProbes] using hk hreq
  · rintro ⟨rfl, hv, hc, hu, hr, hg, hi⟩
    rw [if_neg (not_not.mpr hv), if_neg (not_not.mpr hc), if_neg hu, if_neg (by simp [hr]),
      if_neg (by simp [hg]), if_neg, if_neg]
    · rintro ⟨hreq, hne⟩
      exact hne (Isolation.unenforced_eq_nil.mpr (hi hreq).2)
    · rintro ⟨hreq, hne⟩
      simp [Capabilities.keyIsolatedFromProbes, (hi hreq).1] at hne

theorem RemoteProbeRunner.fetch_ok {rr : RemoteProbeRunner Body} {reply : Reply Body}
    {caps : Capabilities} :
    rr.fetch reply = .ok (.ok caps) ↔
      ∃ body, reply = .response 200 body ∧ rr.wire.capabilities body = .ok caps ∧
        rr.Trusted caps := by
  cases reply with
  | failed error => exact ⟨nofun, by rintro ⟨_, h, _⟩; cases h⟩
  | response status body =>
      unfold RemoteProbeRunner.fetch
      dsimp only
      constructor
      · intro h
        split_ifs at h with h401 h200
        · cases h
        · cases h
        · rcases hdec : rr.wire.capabilities body with (name | e) | caps'
          · rw [hdec] at h
            cases h
          · rw [hdec] at h
            cases h
          · rw [hdec] at h
            obtain ⟨rfl, htrust⟩ := vet_ok.mp (Except.ok.inj h)
            rw [not_not.mp h200]
            exact ⟨body, rfl, hdec, htrust⟩
      · rintro ⟨body', heq, hdec, htrust⟩
        obtain ⟨rfl, rfl⟩ := Reply.response.inj heq
        rw [if_neg (by decide), if_neg (by decide), hdec]
        exact congrArg Except.ok (vet_ok.mpr ⟨rfl, htrust⟩)

/-- What the cache holds was reported before, with status 200, and passed every check. -/
theorem RemoteProbeRunner.Reached.kept {rr : RemoteProbeRunner Body} {now : Nat}
    {replies : List (Nat × Reply Body)} {cache : Cache} (h : rr.Reached now replies cache)
    {at_ : Nat} {caps : Capabilities} (hk : cache = some (at_, caps)) :
    at_ ≤ now ∧ ∃ reply, (at_, reply) ∈ replies ∧ rr.fetch reply = .ok (.ok caps) := by
  induction h with
  | init now => cases hk
  | pass _ hle ih => exact ⟨(ih hk).1.trans hle, (ih hk).2⟩
  | reply reply _ ih =>
      unfold RemoteProbeRunner.keep at hk
      split at hk
      · next caps' hfetch =>
          obtain ⟨rfl, rfl⟩ := Prod.mk.inj (Option.some.inj hk)
          exact ⟨le_refl _, reply, List.mem_cons_self, hfetch⟩
      · obtain ⟨hle, reply', hmem, hfetch⟩ := ih hk
        exact ⟨hle, reply', List.mem_cons_of_mem _ hmem, hfetch⟩

/-! ## What a run relies on -/

/-- The report that a run goes by: the reply to its own request, or one that came before and is
not older than the cache allows. -/
def RemoteProbeRunner.Reported (rr : RemoteProbeRunner Body) (replies : List (Nat × Reply Body))
    (c : Call Body) (caps : Capabilities) : Prop :=
  ∃ body, rr.wire.capabilities body = .ok caps ∧
    (c.capabilities = .response 200 body ∨
      ∃ at_, (at_, .response 200 body) ∈ replies ∧ at_ ≤ c.asked ∧
        c.asked - at_ < capabilitiesTtl)

/-- Everything that has to hold of the replies for the exit code to be believed: the report `caps`
passed every check, and the response `resp` describes the execution that was asked for. -/
structure RemoteProbeRunner.Vouches (rr : RemoteProbeRunner Body)
    (replies : List (Nat × Reply Body)) (spec : ProbeRunSpec) (c : Call Body) (caps : Capabilities)
    (resp : ProbeResponse) : Prop where
  reported : rr.Reported replies c caps
  trusted : rr.Trusted caps
  allowed : spec.repository ∈ caps.repositoryAllowlist
  tools : ∀ tool ∈ spec.requiredTools, List.lookup tool caps.tools = some true
  answered : ∃ body, c.probe = .response 200 body ∧ rr.wire.response body = .ok resp
  names : Names spec resp

/-- A verifier without a free slot. -/
def RemoteProbeRunner.AtCapacity (rr : RemoteProbeRunner Body) (c : Call Body) : Prop :=
  ∃ body, c.probe = .response 409 body ∧ rr.wire.detail body = .ok "verifier is at capacity"

theorem RemoteProbeRunner.capabilities_ok {rr : RemoteProbeRunner Body}
    {replies : List (Nat × Reply Body)} {cache : Cache} {c : Call Body}
    (hcache : rr.Reached c.asked replies cache) {fresh : Bool} {caps : Capabilities}
    (h : rr.capabilities fresh cache c = .ok (.ok caps)) :
    rr.Trusted caps ∧ rr.Reported replies c caps := by
  unfold RemoteProbeRunner.capabilities at h
  split at h
  · next kept hkept =>
      obtain ⟨hmem, hyoung⟩ := Option.filter_eq_some_iff.mp hkept
      obtain rfl := Except.ok.inj (Except.ok.inj h)
      obtain ⟨hle, reply, hreply, hfetch⟩ := hcache.kept (show cache = some (kept.1, kept.2) from hmem)
      obtain ⟨body, rfl, hdec, htrust⟩ := fetch_ok.mp hfetch
      exact ⟨htrust, body, hdec, Or.inr ⟨kept.1, hreply, hle,
        of_decide_eq_true (Bool.and_eq_true_iff.mp hyoung).2⟩⟩
  · obtain ⟨body, hreply, hdec, htrust⟩ := fetch_ok.mp h
    exact ⟨htrust, body, hdec, Or.inl hreply⟩

theorem infra_failed {identity reason : String} {c : Call Body} {result : ProbeRunResult}
    (h : infra identity c reason = .result result) : result.infrastructureFailed = true := by
  obtain rfl := Outcome.result.inj h
  rfl

/-- The reply to `POST /probe` is an answer to this request. -/
def RemoteProbeRunner.Answered (rr : RemoteProbeRunner Body) (spec : ProbeRunSpec) (c : Call Body)
    (resp : ProbeResponse) : Prop :=
  (∃ body, c.probe = .response 200 body ∧ rr.wire.response body = .ok resp) ∧ Names spec resp

/-- A result that is no infrastructure failure is that of an answer to this request. -/
theorem RemoteProbeRunner.conclude_result {rr : RemoteProbeRunner Body} {spec : ProbeRunSpec}
    {c : Call Body} {result : ProbeRunResult} (h : rr.conclude spec c = .ok (.result result))
    (hsound : result.infrastructureFailed = false) :
    ∃ resp, rr.Answered spec c resp ∧ result = resp.result (commandIdentity spec) := by
  have hinfra : ∀ reason,
      Except.ok (ε := Json.Exc) (infra (commandIdentity spec) c reason) ≠ .ok (.result result) := by
    intro reason heq
    rw [infra_failed (Except.ok.inj heq)] at hsound
    cases hsound
  unfold RemoteProbeRunner.conclude at h
  dsimp only at h
  split at h
  · exact absurd h (hinfra _)
  · next status body hprobe =>
      split_ifs at h with hstatus
      · split at h
        · exact absurd h (hinfra _)
        · cases h
        · next resp hresp =>
            split_ifs at h with hnames
            · obtain rfl := Outcome.result.inj (Except.ok.inj h)
              exact ⟨resp, ⟨⟨body, by rw [hprobe, hstatus], hresp⟩, hnames⟩, rfl⟩
            · exact absurd h (hinfra _)
      · split at h
        · cases h
        · split_ifs at h with hbusy
          · cases h
          · exact absurd h (hinfra _)

/-- `POST /probe` is made: no check before it refuses. -/
structure RemoteProbeRunner.Posts (rr : RemoteProbeRunner Body) (cache : Cache)
    (spec : ProbeRunSpec) (c : Call Body) (caps : Capabilities) : Prop where
  report : rr.capabilities false cache c = .ok (.ok caps)
  allowed : spec.repository ∈ caps.repositoryAllowlist
  tools : missingTools spec caps = []
  named : spec.manifestHash ≠ "" ∧ spec.requestId ≠ ""

theorem RemoteProbeRunner.Posts.run_eq {rr : RemoteProbeRunner Body} {cache : Cache}
    {spec : ProbeRunSpec} {c : Call Body} {caps : Capabilities}
    (h : rr.Posts cache spec c caps) : rr.run cache spec c = rr.conclude spec c := by
  unfold RemoteProbeRunner.run
  rw [h.report]
  dsimp only
  rw [if_neg (not_not.mpr h.allowed), if_neg (not_not.mpr h.tools),
    if_neg (not_or.mpr h.named)]

/-- A run makes the request, or it is refused before, or the report is not decoded. -/
theorem RemoteProbeRunner.run_cases (rr : RemoteProbeRunner Body) (cache : Cache)
    (spec : ProbeRunSpec) (c : Call Body) :
    (∃ caps, rr.Posts cache spec c caps) ∨
      (∃ reason, rr.run cache spec c = .ok (infra (commandIdentity spec) c reason)) ∨
      ∃ e, rr.run cache spec c = .error e := by
  unfold RemoteProbeRunner.run
  dsimp only
  split
  · next e _ => exact Or.inr (Or.inr ⟨e, rfl⟩)
  · next reason _ => exact Or.inr (Or.inl ⟨reason, rfl⟩)
  · next caps hcaps =>
      by_cases hallow : spec.repository ∈ caps.repositoryAllowlist
      · by_cases htools : missingTools spec caps = []
        · rw [if_neg (not_not.mpr hallow), if_neg (not_not.mpr htools)]
          split
          · exact Or.inr (Or.inl ⟨_, rfl⟩)
          · next hnamed => exact Or.inl ⟨caps, hcaps, hallow, htools, not_or.mp hnamed⟩
        · rw [if_neg (not_not.mpr hallow), if_pos htools]
          exact Or.inr (Or.inl ⟨_, rfl⟩)
      · rw [if_pos hallow]
        exact Or.inr (Or.inl ⟨_, rfl⟩)

/-- **A result that is no infrastructure failure is vouched for.** -/
theorem RemoteProbeRunner.run_result {rr : RemoteProbeRunner Body}
    {replies : List (Nat × Reply Body)} {cache : Cache} {spec : ProbeRunSpec} {c : Call Body}
    {result : ProbeRunResult} (hcache : rr.Reached c.asked replies cache)
    (h : rr.run cache spec c = .ok (.result result))
    (hsound : result.infrastructureFailed = false) :
    ∃ caps resp, rr.Vouches replies spec c caps resp ∧
      result = resp.result (commandIdentity spec) := by
  rcases rr.run_cases cache spec c with ⟨caps, hposts⟩ | ⟨reason, hrun⟩ | ⟨e, hrun⟩
  · rw [hposts.run_eq] at h
    obtain ⟨htrust, hreported⟩ := capabilities_ok hcache hposts.report
    obtain ⟨resp, ⟨hanswer, hnames⟩, hres⟩ := conclude_result h hsound
    refine ⟨caps, resp, ⟨hreported, htrust, hposts.allowed, ?_, hanswer, hnames⟩, hres⟩
    intro tool htool
    have hmissing := hposts.tools
    unfold missingTools at hmissing
    rw [List.filter_eq_nil_iff] at hmissing
    simpa using hmissing tool htool
  · rw [h] at hrun
    rw [infra_failed (Except.ok.inj hrun).symm] at hsound
    cases hsound
  · rw [h] at hrun
    cases hrun

theorem RemoteProbeRunner.conclude_busy {rr : RemoteProbeRunner Body} {spec : ProbeRunSpec}
    {c : Call Body} : rr.conclude spec c = .ok .busy ↔ rr.AtCapacity c := by
  unfold RemoteProbeRunner.conclude RemoteProbeRunner.AtCapacity
  dsimp only
  constructor
  · intro h
    split at h
    · cases h
    · next status body hprobe =>
        split at h
        · split at h
          · cases h
          · cases h
          · split at h
            · cases h
            · cases h
        · split at h
          · cases h
          · next detail hdetail =>
              split at h
              · next hbusy => exact ⟨body, by rw [hprobe, hbusy.1], by rw [hdetail, hbusy.2]⟩
              · cases h
  · rintro ⟨body, hprobe, hdetail⟩
    rw [hprobe]
    dsimp only
    rw [if_neg (by decide), hdetail]
    rfl

/-- The run is busy exactly when the request meets a verifier without a free slot. -/
theorem RemoteProbeRunner.run_busy {rr : RemoteProbeRunner Body} {cache : Cache}
    {spec : ProbeRunSpec} {c : Call Body} :
    rr.run cache spec c = .ok .busy ↔ (∃ caps, rr.Posts cache spec c caps) ∧ rr.AtCapacity c := by
  constructor
  · intro h
    rcases rr.run_cases cache spec c with ⟨caps, hposts⟩ | ⟨reason, hrun⟩ | ⟨e, hrun⟩
    · exact ⟨⟨caps, hposts⟩, conclude_busy.mp (hposts.run_eq.symm.trans h)⟩
    · cases h.symm.trans hrun
    · cases h.symm.trans hrun
  · rintro ⟨⟨caps, hposts⟩, hfull⟩
    exact hposts.run_eq.trans (conclude_busy.mpr hfull)

end Remediator.Probes
