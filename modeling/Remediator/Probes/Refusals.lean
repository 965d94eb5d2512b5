import Remediator.Probes.Grammar
import Remediator.Probes.Load

set_option autoImplicit false

/-! # What the registry quotes

The registry as a list of checks, each with the values that its refusal quotes: it refuses at the
first check that fails, and nothing of the text of a refusal but those values can have the marker of
a missing probe. The one refusal that has it by itself is that of a missing manifest.
-/

namespace Remediator.Probes

open Text

/-! ## Checks -/

/-- A check of the registry: whether it passes, and the values that its refusal quotes. There are
none where an exception of Python itself is raised instead. -/
structure Check where
  passes : Bool
  quotes : Option (List Text)

/-- The first check that fails. -/
def firstFailing (checks : List Check) : Option Check := checks.find? fun check => !check.passes

/-- The program does what its list of checks says, and no literal of a refusal has to do with the
marker. -/
inductive Follows {α : Type} (p : Checked α) (checks : List Check) : Prop
  | accepts (a : α) (hp : p = .ok a) (h : firstFailing checks = none)
  | refuses (message : List Piece) (hp : p = .error (.registry message))
      (h : firstFailing checks = some ⟨false, some (values message)⟩)
      (hform : formatted missingProbeMarker message = true)
  | raises (hp : p = .error .escaped) (h : firstFailing checks = some ⟨false, none⟩)

theorem firstFailing_append_of_none {checks : List Check} (h : firstFailing checks = none)
    (more : List Check) : firstFailing (checks ++ more) = firstFailing more := by
  unfold firstFailing at h ⊢
  rw [List.find?_append, h, Option.none_or]

theorem firstFailing_append_of_some {checks : List Check} {check : Check}
    (h : firstFailing checks = some check) (more : List Check) :
    firstFailing (checks ++ more) = some check := by
  unfold firstFailing at h ⊢
  rw [List.find?_append, h, Option.some_or]

section Rules

variable {α β : Type}

theorem follows_ok (a : α) : Follows (.ok a : Checked α) [] := .accepts a rfl rfl

theorem follows_refuse {message : List Piece}
    (hform : formatted missingProbeMarker message = true) :
    Follows (refuse message : Checked α) [⟨false, some (values message)⟩] :=
  .refuses message rfl rfl hform

theorem follows_escaped : Follows (.error .escaped : Checked α) [⟨false, none⟩] := .raises rfl rfl

theorem follows_require (ok : Bool) {message : List Piece}
    (hform : formatted missingProbeMarker message = true) :
    Follows (require ok message) [⟨ok, some (values message)⟩] := by
  cases ok with
  | true => exact .accepts () rfl rfl
  | false => exact follows_refuse hform

theorem follows_requireShown (py : Python) (ok : Bool) (value : Yaml)
    {message : Text → List Piece}
    (hform : ∀ shown, formatted missingProbeMarker (message shown) = true) :
    Follows (requireShown py ok value message)
      [⟨ok, (py.repr value).map fun shown => values (message shown)⟩] := by
  unfold requireShown
  cases ok with
  | true => exact .accepts () rfl rfl
  | false =>
      cases py.repr value with
      | none => exact follows_escaped
      | some shown => exact follows_refuse (hform shown)

/-- One program after the other: the checks of the one, then those of the other. -/
theorem Follows.bind {p : Checked α} {k : α → Checked β} {checks more : List Check}
    (hp : Follows p checks) (hk : ∀ a, p = .ok a → Follows (k a) more) :
    Follows (p >>= k) (checks ++ more) := by
  cases hp with
  | accepts a hp h =>
      subst hp
      have hrest := firstFailing_append_of_none h more
      cases hk a rfl with
      | accepts b hk hmore => exact .accepts b hk (hrest.trans hmore)
      | refuses message hk hmore hform => exact .refuses message hk (hrest.trans hmore) hform
      | raises hk hmore => exact .raises hk (hrest.trans hmore)
  | refuses message hp h hform =>
      subst hp
      exact .refuses message rfl (firstFailing_append_of_some h more) hform
  | raises hp h =>
      subst hp
      exact .raises rfl (firstFailing_append_of_some h more)

theorem Follows.then {p : Checked α} {q : Checked β} {checks more : List Check}
    (hp : Follows p checks) (hq : Follows q more) :
    Follows (p >>= fun _ => q) (checks ++ more) :=
  hp.bind fun _ _ => hq

/-- A loop: the checks of every round. -/
theorem follows_forM {f : α → Checked Unit} {checks : α → List Check}
    (hf : ∀ x, Follows (f x) (checks x)) (xs : List α) :
    Follows (xs.forM f) (xs.flatMap checks) := by
  induction xs with
  | nil => exact follows_ok ()
  | cons x xs ih =>
      show Follows (f x >>= fun _ => xs.forM f) (checks x ++ xs.flatMap checks)
      exact (hf x).then ih

/-- The same result at the end of a program without checks of its own. -/
theorem Follows.map {p : Checked α} {checks : List Check} (hp : Follows p checks) (f : α → β) :
    Follows (p >>= fun a => .ok (f a)) checks := by
  have h : Follows (p >>= fun a => .ok (f a)) (checks ++ []) :=
    hp.bind fun a _ => follows_ok (f a)
  rwa [List.append_nil] at h

end Rules

/-! ## The checks of the registry -/

section Checks

variable (py : Python) (manifestPath : Text)

/-- The check of `_require_int`. -/
def intCheck (items : Items) (key : String) (lo hi : Int) : Check :=
  match items.get key with
  | .int n =>
      ⟨decide (lo ≤ n ∧ n ≤ hi),
        some [py.reprStr key.toList, (toString lo).toList, (toString hi).toList]⟩
  | _ => ⟨false, some [py.reprStr key.toList]⟩

def pathCheck (value : Yaml) : Check :=
  ⟨value.isText fun t => relPathRe t && decide ("..".toList ∉ t.splitOn '/'),
    (py.repr value).map fun shown => [manifestPath, shown]⟩

def resourceKeyCheck (key : Yaml) : Check :=
  match py.str key with
  | .error .other => ⟨false, none⟩
  | .error (.valueError message) => ⟨false, some [manifestPath, message]⟩
  | .ok text =>
      match validateResourceKey py text with
      | .error message => ⟨false, some (manifestPath :: values message)⟩
      | .ok _ => ⟨true, none⟩

def stepChecks (tools : List Text) (step : Yaml) : List Check :=
  let argv := (asArgv step).getD []
  let program := argv.headD []
  [⟨(asArgv step).isSome, (py.repr step).map fun shown => [manifestPath, shown]⟩,
    ⟨decide (program ∈ tools ∧ '/' ∉ program), some [manifestPath, py.reprStr program]⟩,
    ⟨argv.all fun a => decide ('\x00' ∉ a ∧ '\n' ∉ a), some [manifestPath]⟩]

def setupTimeoutChecks (items : Items) : List Check :=
  match items.lookup "setup_timeout_seconds" with
  | none => []
  | some _ => [intCheck py items "setup_timeout_seconds" minTimeout maxTimeout]

def setupChecks (items : Items) (tools : List Text) : List Check :=
  ⟨(shortList items "setup" maxSetupSteps).isSome, some [manifestPath]⟩ ::
    (((shortList items "setup" maxSetupSteps).getD []).flatMap (stepChecks py manifestPath tools) ++
      (setupTimeoutChecks py items ++
        ⟨(shortList items "cache_inputs" maxCacheInputs).isSome, some [manifestPath]⟩ ::
          (((shortList items "cache_inputs" maxCacheInputs).getD []).flatMap
              (fun value => [pathCheck py manifestPath value]) ++
            ⟨(shortList items "resource_keys" maxResourceKeys).isSome, some [manifestPath]⟩ ::
              ((shortList items "resource_keys" maxResourceKeys).getD []).flatMap
                fun key => [resourceKeyCheck py manifestPath key])))

def toolCheck (tool : Yaml) : Check :=
  ⟨tool.isText toolRe, (py.repr tool).map fun shown => [manifestPath, shown]⟩

/-- Whether two fields are numbers that differ; without a number the check is never reached. -/
def codesDiffer (codes : Items) : Bool :=
  match codes.get "base", codes.get "head" with
  | .int base, .int head => decide (base ≠ head)
  | _, _ => true

def itemChecks (repository : Text) (issueNumber : Int) (items : Items) : List Check :=
  let codes := (exitCodesOf items).getD []
  let tools := (toolsOf items).getD []
  [⟨(items.get "schema_version").isStr "probe.v1".toList,
      some [manifestPath, py.reprStr "probe.v1".toList]⟩,
    ⟨(items.get "repository").isStr repository, (py.repr (items.get "repository")).map fun shown =>
      [manifestPath, shown, py.reprStr repository]⟩,
    ⟨(items.get "issue_number").isInt issueNumber,
      (py.repr (items.get "issue_number")).map fun shown =>
        [manifestPath, shown, (toString issueNumber).toList]⟩,
    ⟨(items.get "base_sha").isText shaRe, some [manifestPath]⟩,
    ⟨(items.get "script").isText isScriptName, some [manifestPath]⟩,
    ⟨(exitCodesOf items).isSome, some [manifestPath]⟩,
    intCheck py codes "base" 0 255,
    intCheck py codes "head" 0 255,
    ⟨codesDiffer codes, some [manifestPath]⟩,
    intCheck py items "timeout_seconds" minTimeout maxTimeout,
    ⟨(runtimeOf items).isSome, some [manifestPath]⟩,
    ⟨(toolsOf items).isSome, some [manifestPath]⟩] ++
  (tools.flatMap (fun tool => [toolCheck py manifestPath tool]) ++
    ⟨(items.get "script_sha256").isText hex256Re, some [manifestPath]⟩ ::
      setupChecks py manifestPath items (tools.map Yaml.text))

def documentChecks (repository : Text) (issueNumber : Int) : Yaml → List Check
  | .dict items => itemChecks py manifestPath repository issueNumber items
  | _ => [⟨false, some [manifestPath]⟩]

/-! ### The validator follows them -/

theorem follows_requireInt (items : Items) (key : String) (lo hi : Int) :
    Follows (requireInt py items key lo hi) [intCheck py items key lo hi] := by
  unfold requireInt intCheck
  cases items.get key with
  | int n =>
      by_cases hbound : lo ≤ n ∧ n ≤ hi
      · simp only [hbound, and_self, if_true, decide_true]
        exact .accepts n rfl rfl
      · simp only [hbound, if_false, decide_false]
        exact follows_refuse rfl
  | _ => exact follows_refuse rfl

theorem follows_validateRelativePath (value : Yaml) :
    Follows (validateRelativePath py manifestPath "cache_inputs entry" value)
      [pathCheck py manifestPath value] :=
  follows_requireShown py _ value fun _ => rfl

theorem resourceKey_formatted {text : Text} {message : List Piece}
    (h : validateResourceKey py text = .error message) :
    formatted missingProbeMarker (.val manifestPath :: lit ": " :: message) = true := by
  unfold validateResourceKey at h
  dsimp only at h
  split_ifs at h
  · cases h
    rfl
  · cases h
    rfl
  · cases h
    rfl

theorem follows_checkResourceKey (key : Yaml) :
    Follows (checkResourceKey py manifestPath key) [resourceKeyCheck py manifestPath key] := by
  unfold checkResourceKey resourceKeyCheck
  rcases py.str key with (message | _) | text
  · exact follows_refuse rfl
  · exact follows_escaped
  · rcases hkey : validateResourceKey py text with message | key'
    · simp only [hkey]
      exact follows_refuse (resourceKey_formatted py manifestPath hkey)
    · simp only [hkey]
      exact .accepts () rfl rfl

theorem follows_validateStep (tools : List Text) (step : Yaml) :
    Follows (validateStep py manifestPath tools step) (stepChecks py manifestPath tools step) :=
  (follows_requireShown py _ step fun _ => rfl).then
    ((follows_require _ rfl).then (follows_require _ rfl))

theorem follows_checkSetupTimeout (items : Items) :
    Follows (checkSetupTimeout py items) (setupTimeoutChecks py items) := by
  unfold checkSetupTimeout setupTimeoutChecks
  cases items.lookup "setup_timeout_seconds" with
  | none => exact follows_ok ()
  | some _ =>
      exact (follows_requireInt py items "setup_timeout_seconds" minTimeout maxTimeout).map
        fun _ => ()

theorem follows_validateSetup (items : Items) (tools : List Text) :
    Follows (validateSetup py manifestPath items tools)
      (setupChecks py manifestPath items tools) := by
  refine (follows_require _ rfl).then ?_
  refine (follows_forM (follows_validateStep py manifestPath tools) _).then ?_
  refine (follows_checkSetupTimeout py items).then ?_
  refine (follows_require _ rfl).then ?_
  refine (follows_forM (follows_validateRelativePath py manifestPath) _).then ?_
  refine (follows_require _ rfl).then ?_
  exact follows_forM (follows_checkResourceKey py manifestPath) _

theorem follows_checkTool (tool : Yaml) :
    Follows (checkTool py manifestPath tool) [toolCheck py manifestPath tool] :=
  follows_requireShown py _ tool fun _ => rfl

theorem follows_validateItems (repository : Text) (issueNumber : Int) (items : Items) :
    Follows (validateItems py manifestPath repository issueNumber items)
      (itemChecks py manifestPath repository issueNumber items) := by
  unfold validateItems itemChecks
  refine (follows_require _ rfl).then ?_
  refine (follows_requireShown py _ _ fun _ => rfl).then ?_
  refine (follows_requireShown py _ _ fun _ => rfl).then ?_
  refine (follows_require _ rfl).then ?_
  refine (follows_require _ rfl).then ?_
  refine (follows_require _ rfl).then ?_
  refine (follows_requireInt py _ "base" 0 255).bind fun base hbase => ?_
  refine (follows_requireInt py _ "head" 0 255).bind fun head hhead => ?_
  -- the numbers that were read are those of the check
  have hdiffer : codesDiffer ((exitCodesOf items).getD []) = decide (base ≠ head) := by
    unfold codesDiffer
    rw [(requireInt_ok.mp hbase).1, (requireInt_ok.mp hhead).1]
  rw [hdiffer]
  refine (follows_require _ rfl).then ?_
  refine (follows_requireInt py items "timeout_seconds" minTimeout maxTimeout).then ?_
  refine (follows_require _ rfl).then ?_
  refine (follows_require _ rfl).then ?_
  refine (follows_forM (follows_checkTool py manifestPath) _).then ?_
  exact (follows_require _ rfl).then (follows_validateSetup py manifestPath items _)

theorem follows_validateManifest (repository : Text) (issueNumber : Int) (manifest : Yaml) :
    Follows (validateManifest py manifestPath repository issueNumber manifest)
      (documentChecks py manifestPath repository issueNumber manifest) := by
  cases manifest with
  | dict items =>
      exact (follows_validateItems py manifestPath repository issueNumber items).map fun _ => items
  | _ => exact follows_refuse rfl

end Checks

section Registry

variable (py : Python) (hashing : Hashing) (content : Registered)

/-- The checks of the script that the manifest names. -/
def scriptChecks (items : Items) : List Check :=
  let script := (items.get "script").text
  let digest := (items.get "script_sha256").text
  let path := content.scriptPath script
  match content.script with
  | .notFound => [⟨false, some [content.manifestPath, py.reprStr script]⟩]
  | .denied => [⟨false, none⟩]
  | .unreadable error => [⟨false, some [path, error]⟩]
  | .bytes bytes =>
      [⟨decide (bytes.length ≤ maxScriptBytes), some [path, (toString maxScriptBytes).toList]⟩,
        ⟨hashing.sha256Hex bytes == digest,
          some [path, (hashing.sha256Hex bytes).take 12, digest.take 12]⟩,
        ⟨(hashing.decodeUtf8 bytes).isSome, some [path]⟩]

/-- The checks of the repository and the number of an issue. -/
def addressChecks (repository : Text) (issueNumber : Int) : List Check :=
  [⟨decide (0 < issueNumber), some [(toString issueNumber).toList]⟩,
    ⟨isOwnerName repository, some [py.reprStr repository]⟩]

/-- The checks of reading the manifest, where there is something at its path. -/
def readChecks : List Check :=
  match content.manifest with
  | .noFile => []
  | .denied _ => [⟨false, none⟩]
  | .file linked read =>
      [⟨!linked, some [content.directory]⟩,
        match read with
        | .value _ => ⟨true, none⟩
        | .unreadable error => ⟨false, some [content.manifestPath, error]⟩
        | .escaped => ⟨false, none⟩]

/-- The checks of what was read. -/
def valueChecks (repository : Text) (issueNumber : Int) : List Check :=
  match content.manifest with
  | .file _ (.value v) =>
      documentChecks py content.manifestPath repository issueNumber v ++
        (scriptChecks py hashing content (v.asDict.getD []) ++
          [⟨(hashing.manifestHash (v.asDict.getD [])).isSome, none⟩])
  | _ => []

/-- The checks of `load_approved_probe` where there is something at the path of the manifest. -/
def registryChecks (repository : Text) (issueNumber : Int) : List Check :=
  addressChecks py repository issueNumber ++
    (readChecks content ++ valueChecks py hashing content repository issueNumber)

theorem follows_readScript (items : Items) :
    Follows (readScript py hashing content items) (scriptChecks py hashing content items) := by
  unfold readScript scriptChecks
  cases content.script with
  | notFound => exact follows_refuse rfl
  | denied => exact follows_escaped
  | unreadable error => exact follows_refuse rfl
  | bytes bytes =>
      refine (follows_require _ rfl).then ?_
      refine (follows_require _ rfl).then ?_
      cases hashing.decodeUtf8 bytes with
      | none => exact follows_refuse rfl
      | some text => exact .accepts _ rfl rfl

theorem validateManifest_ok {manifestPath repository : Text} {issueNumber : Int} {manifest : Yaml}
    {items : Items}
    (h : validateManifest py manifestPath repository issueNumber manifest = .ok items) :
    manifest.asDict = some items := by
  cases manifest with
  | dict entries =>
      unfold validateManifest at h
      obtain ⟨_, -, hitems⟩ := bind_ok.mp h
      cases hitems
      rfl
  | _ => cases h

theorem follows_readManifest (h : content.manifest ≠ .noFile) :
    Follows (readManifest content) (readChecks content) := by
  unfold readManifest readChecks
  cases hmanifest : content.manifest with
  | noFile => exact absurd hmanifest h
  | denied isThere => exact .raises rfl rfl
  | file linked read =>
      cases linked with
      | true => exact .refuses _ rfl rfl rfl
      | false =>
          cases read with
          | value v => exact .accepts v rfl rfl
          | unreadable error => exact .refuses _ rfl rfl rfl
          | escaped => exact .raises rfl rfl

theorem readManifest_ok {v : Yaml} (h : readManifest content = .ok v) :
    content.manifest = .file false (.value v) := by
  unfold readManifest at h
  cases hmanifest : content.manifest with
  | noFile =>
      rw [hmanifest] at h
      cases h
  | denied isThere =>
      rw [hmanifest] at h
      cases h
  | file linked read =>
      rw [hmanifest] at h
      cases linked with
      | true => cases h
      | false =>
          cases read with
          | value w =>
              cases h
              rfl
          | _ => cases h

/-- **Where there is something at the path of the manifest, the registry refuses at the first check
that fails.** -/
theorem follows_loadApprovedProbe (repository : Text) (issueNumber : Int)
    (h : content.manifest ≠ .noFile) :
    Follows (loadApprovedProbe py hashing content repository issueNumber)
      (registryChecks py hashing content repository issueNumber) := by
  unfold loadApprovedProbe loadProbe registryChecks addressChecks
  rw [Bool.false_and, Bool.or_false]
  refine (follows_require (decide (0 < issueNumber)) rfl).then ?_
  refine (follows_require (isOwnerName repository) rfl).then ?_
  refine (follows_readManifest content h).bind fun v hv => ?_
  unfold valueChecks
  rw [readManifest_ok content hv]
  refine (follows_validateManifest py _ repository issueNumber v).bind fun items hitems => ?_
  rw [validateManifest_ok py hitems]
  refine (follows_readScript py hashing content items).bind fun script _ => ?_
  dsimp only [Option.getD_some]
  cases hashing.manifestHash items with
  | none => exact follows_escaped
  | some manifestHash => exact .accepts _ rfl rfl

/-- Where there is no manifest file, the registry says so, if the issue has an address. -/
theorem load_noFile {repository : Text} {issueNumber : Int} (h : content.manifest = .noFile)
    (hnumber : 0 < issueNumber) (hname : isOwnerName repository = true) :
    loadApprovedProbe py hashing content repository issueNumber =
      refuse [lit "no approved probe registered at ", .val content.manifestPath] := by
  unfold loadApprovedProbe loadProbe readManifest
  rw [decide_eq_true hnumber, hname, h]
  rfl

/-- Without an address, the registry refuses at the first check that fails. -/
theorem load_unaddressed {repository : Text} {issueNumber : Int}
    (h : ¬ (0 < issueNumber ∧ isOwnerName repository = true)) :
    Follows (loadApprovedProbe py hashing content repository issueNumber)
      (addressChecks py repository issueNumber) := by
  unfold loadApprovedProbe loadProbe addressChecks
  by_cases hnumber : 0 < issueNumber
  · have hname : isOwnerName repository = false := by
      rw [← Bool.not_eq_true]
      exact fun hname => h ⟨hnumber, hname⟩
    rw [decide_eq_true hnumber, hname]
    exact .refuses _ rfl rfl rfl
  · rw [decide_eq_false hnumber]
    exact .refuses _ rfl rfl rfl

end Registry

end Remediator.Probes
