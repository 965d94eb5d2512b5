import Remediator.Probes.Executor

set_option autoImplicit false

/-! # What a verdict rests on

The way of a probe from the worker over the front of the verifier to the executor and back: each of
the three compares what comes back with what it asked for, and a result that the worker does not
count as an infrastructure failure is that of the approved script.
-/

namespace Remediator.Probes.Host

open Interleave Clients

/-! ## The front -/

/-- The result of `_RemoteExecution._infra`. -/
def unreached (identity : String) (durationMs : Int) (reason : String) : ProbeRunResult where
  runnerMode := "local"
  commandIdentity := identity
  exitCode := none
  stdout := ""
  stderr := ""
  outputTruncated := false
  timedOut := false
  durationMs := durationMs
  infrastructureError := some reason
  failureStage := some "preflight"
  toolVersions := []

variable {Body Body' : Type}

/-- `_RemoteExecution.run` on the reply of the executor: `none` is `ExecutorBusy`. Only a
`ValueError` of the decoder is caught. -/
def relay (wire : Wire Body) (q : Verifier.ProbeRequest) (identity : String) (durationMs : Int) :
    Reply Body → Except Json.Exc (Option ProbeResponse)
  | .failed error =>
      .ok (some (fromResult q
        (unreached identity durationMs ("probe executor unreachable: " ++ error))))
  | .response status body =>
      if status = 200 then
        match wire.response body with
        | .error (.value name) =>
            .ok (some (fromResult q
              (unreached identity durationMs ("executor response malformed: " ++ name))))
        | .error (.escapes e) => .error e
        | .ok result =>
            if result.requestId ≠ q.requestId ∨ result.commandIdentity ≠ identity ∨
                result.repository ≠ q.params.repository ∨ result.commitSha ≠ q.params.commitSha ∨
                result.scriptHash ≠ q.params.scriptHash then
              .ok (some (fromResult q (unreached identity durationMs
                "executor reported a different execution than asked")))
            else .ok (some result)
      else
        match wire.detail body with
        | .error e => .error e
        | .ok detail =>
            if status = 409 ∧ detail = "verifier is at capacity" then .ok none
            else .ok (some (fromResult q (unreached identity durationMs
              ("probe executor returned HTTP " ++ toString status ++ ": " ++ detail))))

/-- A request that the executor has answered with a response: the run of its handler. -/
structure ExecutorConfig.Ran (x : ExecutorConfig) where
  request : Verifier.ProbeRequest
  response : ProbeResponse
  actions : List (Answer × Table)
  run : ∃ s s', (x.runProbe request).Runs Op.apply Later s actions (.ok (.ok response)) s'

/-- The response was sent in one of the runs that took place. -/
def ExecutorConfig.Sent (x : ExecutorConfig) (history : List x.Ran) (resp : ProbeResponse) : Prop :=
  ∃ ran ∈ history, ran.response = resp

/-- The front sent the response, at once or later from its store: it relayed a reply to one of its
requests, and what it has from the executor was sent in a run that took place. -/
def ExecutorConfig.Relayed (x : ExecutorConfig) (history : List x.Ran) (wire : Wire Body)
    (resp : ProbeResponse) : Prop :=
  ∃ q identity durationMs reply, relay wire q identity durationMs reply = .ok (some resp) ∧
    ∀ body sent, reply = .response 200 body → wire.response body = .ok sent → x.Sent history sent

/-- A response that carries no infrastructure failure was sent by the executor. -/
theorem ExecutorConfig.Relayed.sent {x : ExecutorConfig} {history : List x.Ran} {wire : Wire Body}
    {resp : ProbeResponse} (h : x.Relayed history wire resp)
    (hsound : resp.infrastructureError = none) : x.Sent history resp := by
  obtain ⟨q, identity, durationMs, reply, hrelay, hsent⟩ := h
  have hnot : ∀ reason, Except.ok (ε := Json.Exc)
      (some (fromResult q (unreached identity durationMs reason))) ≠ .ok (some resp) := by
    rintro reason heq
    obtain rfl := Option.some.inj (Except.ok.inj heq)
    cases hsound
  unfold relay at hrelay
  split at hrelay
  · exact absurd hrelay (hnot _)
  · next status body =>
      split_ifs at hrelay with hstatus
      · split at hrelay
        · exact absurd hrelay (hnot _)
        · cases hrelay
        · next result hresult =>
            split_ifs at hrelay with hother
            · exact absurd hrelay (hnot _)
            · obtain rfl := Option.some.inj (Except.ok.inj hrelay)
              exact hsent body result (by rw [hstatus]) hresult
      · split at hrelay
        · cases hrelay
        · split_ifs at hrelay with hbusy
          · cases hrelay
          · exact absurd hrelay (hnot _)

/-! ## The chain -/

theorem targetText_inj {front : String} {t t' : ProbeTarget}
    (h : front ++ targetText t ++ ")" = front ++ targetText t' ++ ")") : t = t' := by
  have htext := congrArg String.toList h
  simp only [String.toList_append, List.append_assoc, List.append_cancel_left_eq] at htext
  cases t with
  | base =>
      cases t' with
      | base => rfl
      | head => exact absurd htext (by decide)
  | head =>
      cases t' with
      | base => exact absurd htext (by decide)
      | head => rfl

/-- The identity of an execution tells its target. -/
theorem target_eq {spec spec' : ProbeRunSpec} (hid : commandIdentity spec = commandIdentity spec')
    (hscript : spec.scriptHash = spec'.scriptHash) (hrepository : spec.repository = spec'.repository)
    (hcommit : spec.commitSha = spec'.commitSha) : spec.target = spec'.target := by
  unfold commandIdentity at hid
  rw [hscript, hrepository, hcommit] at hid
  exact targetText_inj hid

/-- The plan was followed to its end, and the script ended by itself with the exit code of the
result, or was overdue. -/
structure LocalProbeRunner.Performed (r : LocalProbeRunner) (spec : RunSpec) (es : List Op)
    (exitCode : Option Int) (timedOut : Bool) : Prop where
  conduct : ∃ workspace marker cache versions planned, r.Cached cache ∧
    es = [.mkdir (workspace ++ "/repo"), .mkdir (workspace ++ "/home")] ++
      (versions ++ planned ++ [.rmtree workspace]) ∧
    (∀ op ∈ versions, ∃ tool ∈ runTools spec,
      (command (r.runEnv workspace marker) (fun _ => True) [tool, "--version"]).does op) ∧
    Progress (r.plan spec workspace (r.runEnv workspace marker)
      (update (update (r.runEnv workspace marker) (probeEnv spec)) cache)) planned true ∧
    ∃ e out err, planned.getLast? = some (.exec e) ∧
      ((∃ code, e.child = .exited code out err ∧ exitCode = some code ∧ timedOut = false) ∨
        e.child = .overdue out err ∧ exitCode = none ∧ timedOut = true)

theorem LocalProbeRunner.Conduct.performed {r : LocalProbeRunner} {spec : RunSpec} {es : List Op}
    {result : ProbeRunResult} (h : r.Conduct spec es (.ok result))
    (hsound : result.infrastructureError = none) :
    result.commandIdentity = commandIdentity spec.toProbeRunSpec ∧
      r.Performed spec es result.exitCode result.timedOut := by
  have hnot : ∀ stage, ¬ InfraAt stage result := by
    intro stage hinfra
    have hfailed := hinfra.failed
    rw [hsound] at hfailed
    cases hfailed
  cases h with
  | refused _ hres hinfra =>
      obtain rfl := Except.ok.inj hres
      exact absurd hinfra (hnot _)
  | unready _ _ hres => cases hres
  | @worked workspace marker es' _ hes hworked =>
      obtain ⟨versions, planned, cache, rfl, hcache, hversions, b, hprogress, hending⟩ := hworked
      rw [List.nil_append] at hending
      cases hending with
      | infra hinfra => exact absurd hinfra (hnot _)
      | verdict hlast hverdict =>
          exact ⟨hverdict.identity, workspace, marker, cache, versions, planned, hcache, hes,
            hversions, hprogress, _, _, _, hlast, hverdict.ended⟩

/-- The result of the worker is that of a run of the executor that took place: for a request with the
id of the worker's, of the script with the approved hash, at the commit and against the target. -/
def ExecutorConfig.Backs (x : ExecutorConfig) (history : List x.Ran) (spec : ProbeRunSpec)
    (result : ProbeRunResult) : Prop :=
  ∃ ran ∈ history, ∃ bound, x.Bound ran.request bound ∧ ran.request.requestId = spec.requestId ∧
    bound.repository = spec.repository ∧ bound.commitSha = spec.commitSha ∧
    bound.scriptHash = spec.scriptHash ∧ bound.target = spec.target ∧
    x.buildRunner.Performed bound (events ((x.runProbe ran.request).steps ran.actions))
      result.exitCode result.timedOut

/-- **A verdict of the worker rests on a run of the approved script**, whatever the verifier
answered before: a result that is no infrastructure failure is backed by one of the runs of the
executor that took place, at the exact commit. -/
theorem verdict_backed {rr : RemoteProbeRunner Body} {replies : List (ℕ × Reply Body)} {cache : Cache}
    {spec : ProbeRunSpec} {c : Call Body} {result : ProbeRunResult} (x : ExecutorConfig)
    (history : List x.Ran) (wire : Wire Body') (hcache : rr.Reached c.asked replies cache)
    (h : rr.run cache spec c = .ok (.result result))
    (hsound : result.infrastructureFailed = false)
    (hfront : ∀ body resp, c.probe = .response 200 body → rr.wire.response body = .ok resp →
      x.Relayed history wire resp) : x.Backs history spec result := by
  obtain ⟨caps, resp, hv, rfl⟩ := RemoteProbeRunner.run_result hcache h hsound
  have hnone : resp.infrastructureError = none := by
    simpa [ProbeRunResult.infrastructureFailed, ProbeResponse.result] using hsound
  obtain ⟨body, hprobe, hresp⟩ := hv.answered
  obtain ⟨hid, hrequest, hrepo, hsha, hhash⟩ := hv.names
  obtain ⟨ran, hran, rfl⟩ := (hfront body resp hprobe hresp).sent hnone
  obtain ⟨s, s', hrun⟩ := ran.run
  have hhandled := runProbe_tracks x ran.request _ _ _ _ hrun
  generalize hres : (Except.ok (Except.ok ran.response) :
    Except Exc (Except Verifier.HttpError ProbeResponse)) = res at hhandled
  cases hhandled with
  | refused e _ hrefused => cases hres.trans hrefused
  | raised _ _ _ hraised => cases hres.trans hraised
  | @answered bound performed hbound hconduct hanswered =>
      have hresponse := Except.ok.inj (Except.ok.inj (hres.trans hanswered))
      rw [hresponse] at hnone hid hrequest hrepo hsha hhash
      obtain ⟨hidentity, hperformed⟩ := hconduct.performed hnone
      have hrepository : bound.repository = spec.repository := hbound.repository.trans hrepo
      have hcommit : bound.commitSha = spec.commitSha := hbound.commitSha.trans hsha
      have hscript : bound.scriptHash = spec.scriptHash := hbound.scriptHash.trans hhash
      refine ⟨ran, hran, bound, hbound, hrequest, hrepository, hcommit, hscript,
        target_eq (hidentity.symm.trans hid) hscript hrepository hcommit, ?_⟩
      rw [hresponse]
      exact hperformed

/-! ### A probe that reproduces the defect -/

/-- Bodies that carry what they decode to. -/
def plainWire : Wire (Capabilities ⊕ ProbeResponse) where
  capabilities := Sum.elim .ok fun _ => .error (.value "ValidationError")
  response := Sum.elim (fun _ => .error (.value "ValidationError")) .ok
  detail := fun _ => .ok ""
  repr := fun _ => ""

/-- The children do what the runner hopes for, and the script exits with 1. -/
def demoAnswer (s : Table) : Answer where
  child :=
    if s.length = 6 then .exited 0 ["2fd4e1c6".toList.map fun c => UInt8.ofNat c.toNat] []
    else if s.length = 7 then
      .exited 0 ["https://github.com/apache/superset.git".toList.map fun c => UInt8.ofNat c.toNat] []
    else if s.length = 9 then .exited 1 [] []
    else .exited 0 [] []

/-- The response of a run. -/
def responseOf : Except Exc (Except Verifier.HttpError ProbeResponse) → Option ProbeResponse
  | .ok (.ok resp) => some resp
  | _ => none

theorem responseOf_eq_some {res : Except Exc (Except Verifier.HttpError ProbeResponse)}
    {resp : ProbeResponse} (h : responseOf res = some resp) : res = .ok (.ok resp) := by
  unfold responseOf at h
  split at h
  · rw [Option.some.inj h]
  · cases h

def demoOutcome : Option ProbeResponse :=
  responseOf ((demoExecutor.runProbe demoRequest).answered Op.apply demoAnswer []).1

def demoSpec : ProbeRunSpec where
  repository := "apache/superset"
  issueNumber := 4213
  commitSha := "2fd4e1c6"
  target := .base
  probeIdentifier := "apache/superset#4213@sha256:0011223344556677"
  scriptHash := demoHash
  timeoutSeconds := 600
  maxOutputBytes := 65536
  requiredTools := ["bash"]
  setupTimeoutSeconds := 1800
  manifestHash := "03ac6742"
  requestId := "9f2d"

/-- A call with this reply to `POST /probe`. -/
def demoProbeCall (reply : Reply (Capabilities ⊕ ProbeResponse)) :
    Call (Capabilities ⊕ ProbeResponse) where
  started := 0
  asked := 0
  ended := 20
  capabilities := .response 200 (.inl {
    protocolVersion := protocolVersion
    isolation := ⟨10001, false, some true, some "0000000000000000", some 256, some 2147483648,
      false, [], some false⟩
    tools := [("bash", true)], repositoryAllowlist := ["apache/superset"]
    registryPresent := true, execution := "runner" })
  probe := reply

/-- The executor's response reaches the worker. -/
def demoReply : Reply (Capabilities ⊕ ProbeResponse) :=
  (demoOutcome.map fun resp => .response 200 (.inr resp)).getD (.failed "")

/-- The result of the worker. -/
def resultOf : Except Json.Exc Outcome → Option ProbeRunResult
  | .ok (.result r) => some r
  | _ => none

theorem resultOf_eq_some {out : Except Json.Exc Outcome} {result : ProbeRunResult}
    (h : resultOf out = some result) : out = .ok (.result result) := by
  rcases out with e | (_ | r)
  · cases h
  · cases h
  · rw [Option.some.inj h]

/-- A reply that carries the response of a run. -/
theorem demoReply_inv {outcome : Option ProbeResponse} {body : Capabilities ⊕ ProbeResponse}
    {resp : ProbeResponse}
    (hreply : (outcome.map fun resp => Reply.response 200 (.inr resp)).getD (.failed "") =
      .response 200 body)
    (hresp : plainWire.response body = .ok resp) : outcome = some resp := by
  cases outcome with
  | none => cases hreply
  | some sent =>
      obtain ⟨-, rfl⟩ := Reply.response.inj hreply
      rw [Except.ok.inj hresp]

/-- The run that the executor's response is from. -/
theorem demoOutcome_ran {resp : ProbeResponse} (h : demoOutcome = some resp) :
    ∃ ran : demoExecutor.Ran, ran.response = resp := by
  obtain ⟨l, hrun, -⟩ := Prog.runs_answered Op.apply (demoExecutor.runProbe demoRequest)
    demoAnswer Later.refl []
  rw [responseOf_eq_some h] at hrun
  exact ⟨⟨demoRequest, resp, l, _, _, hrun⟩, rfl⟩

theorem demoOutcome_relayed {history : List demoExecutor.Ran} {resp : ProbeResponse}
    (h : demoOutcome = some resp) (hsent : demoExecutor.Sent history resp) :
    demoExecutor.Relayed history plainWire resp := by
  have hfields : demoOutcome.map (fun r => (r.requestId, r.repository, r.commitSha, r.scriptHash)) =
      some ("9f2d", "apache/superset", "2fd4e1c6", demoHash) := by decide +kernel
  rw [h] at hfields
  obtain ⟨hid, hrest⟩ := Prod.mk.inj (Option.some.inj hfields)
  obtain ⟨hrepository, hrest⟩ := Prod.mk.inj hrest
  obtain ⟨hcommit, hscript⟩ := Prod.mk.inj hrest
  refine ⟨demoRequest, resp.commandIdentity, 0, .response 200 (.inr resp), ?_, ?_⟩
  · unfold relay plainWire
    simp [hid, hrepository, hcommit, hscript, demoRequest]
  · intro body sent hbody hdecoded
    obtain ⟨-, rfl⟩ := Reply.response.inj hbody
    obtain rfl := Except.ok.inj hdecoded
    exact hsent

def plainRunner : RemoteProbeRunner (Capabilities ⊕ ProbeResponse) := ⟨plainWire, true⟩

theorem verdict_backed_demo : ∃ (history : List demoExecutor.Ran) (result : ProbeRunResult),
    demoExecutor.Backs history demoSpec result ∧ result.exitCode = some 1 ∧
      result.timedOut = false := by
  have hview : (resultOf (plainRunner.run none demoSpec (demoProbeCall demoReply))).map
      (fun r => (r.infrastructureFailed, r.exitCode, r.timedOut)) = some (false, some 1, false) := by
    decide +kernel
  obtain ⟨result, hresult, hfields⟩ := Option.map_eq_some_iff.mp hview
  obtain ⟨hsound, hrest⟩ := Prod.mk.inj hfields
  obtain ⟨hcode, htime⟩ := Prod.mk.inj hrest
  have hanswered : demoOutcome.isSome = true := by decide +kernel
  obtain ⟨sent, hsent⟩ := Option.isSome_iff_exists.mp hanswered
  obtain ⟨ran, hran⟩ := demoOutcome_ran hsent
  have hrelayed : ∀ body resp, (demoProbeCall demoReply).probe = .response 200 body →
      plainRunner.wire.response body = .ok resp → demoExecutor.Relayed [ran] plainWire resp := by
    intro body resp hprobe hresp
    have hsame := demoReply_inv hprobe hresp
    refine demoOutcome_relayed hsame ⟨ran, List.mem_singleton.mpr rfl, hran.trans ?_⟩
    exact Option.some.inj (hsent.symm.trans hsame)
  exact ⟨[ran], result, verdict_backed demoExecutor [ran] plainWire (.init 0)
    (resultOf_eq_some hresult) hsound hrelayed, hcode, htime⟩

end Remediator.Probes.Host
