import Remediator.Probes.Registry

set_option autoImplicit false

/-! # Loading an approved probe

`load_approved_probe` over what the file system holds for an issue, and what the dispatcher and the
worker make of its refusals: `remediator/probe_policy.py`, the end of `_dispatch`, and the claim
predicate `MISSING_PROBE_BLOCKED`. Both look for a marker in the text of a refusal.
-/

namespace Remediator.Probes

open Text

/-! ## What the file system holds -/

/-- What reading and parsing a manifest gives: a value, an `OSError` or a `YAMLError`, or another
exception, as for bytes that are not UTF-8 or a date that does not exist. -/
inductive ManifestRead
  | value (v : Yaml)
  | unreadable (error : Text)
  | escaped

/-- What is at the path of the manifest: no file, so nothing, a directory or a link to nothing;
something that may not be looked at, so that `is_file` raises; or a file, perhaps behind a link. -/
inductive ManifestEntry
  | noFile
  | denied (isThere : Bool)
  | file (linked : Bool) (read : ManifestRead)

/-- What is at the path of the script that the manifest names. -/
inductive ScriptEntry
  | notFound
  /-- looking at the path raises, as for a name that is too long -/
  | denied
  | unreadable (error : Text)
  | bytes (content : List UInt8)

/-- What the registry holds for an issue; `directory` is the text of the path of its directory. -/
structure Registered where
  directory : Text
  manifest : ManifestEntry
  script : ScriptEntry
  /-- `registry_commit_for` -/
  commit : Option Text

/-- There is a manifest file for the issue. -/
def Registered.hasManifest (content : Registered) : Bool :=
  match content.manifest with
  | .noFile => false
  | .denied isThere => isThere
  | .file _ _ => true

/-- `ApprovedProbe`, without the fields that are read off the manifest. -/
structure ApprovedProbe where
  repository : Text
  issueNumber : Int
  manifestPath : Text
  scriptPath : Text
  manifest : Items
  manifestHash : Text
  scriptHash : Text
  scriptContent : Text
  registryCommit : Option Text

/-- Hashing and decoding. -/
structure Hashing where
  /-- `canonical_manifest_hash`; it raises for a value that JSON has no form for, as a date -/
  manifestHash : Items → Option Text
  /-- `sha256_hex` -/
  sha256Hex : List UInt8 → Text
  /-- `bytes.decode("utf-8")` -/
  decodeUtf8 : List UInt8 → Option Text

/-! ## `load_approved_probe` -/

def maxScriptBytes : Nat := 256 * 1024

/-- `probe_directory` finds an owner and a name. -/
def isOwnerName (repository : Text) : Bool :=
  let owner := repository.takeWhile (· != '/')
  let name := (repository.drop owner.length).drop 1
  !owner.isEmpty && !name.isEmpty && decide ('/' ∉ name) && !contains "..".toList repository

section Load

variable (py : Python) (hashing : Hashing) (content : Registered)

def Registered.manifestPath : Text := content.directory ++ "/probe.yaml".toList

def Registered.scriptPath (script : Text) : Text := content.directory ++ '/' :: script

/-- The manifest as a value. -/
def readManifest : Checked Yaml :=
  match content.manifest with
  | .noFile => refuse [lit "no approved probe registered at ", .val content.manifestPath]
  | .denied _ => .error .escaped
  | .file linked read =>
      if linked then
        refuse [.val content.directory, lit ": probe directory and manifest must not be symlinks"]
      else
        match read with
        | .value v => .ok v
        | .unreadable error =>
            refuse [.val content.manifestPath, lit ": unreadable manifest (", .val error, lit ")"]
        | .escaped => .error .escaped

/-- The script that the manifest names, as text. -/
def readScript (items : Items) : Checked (Text × Text) :=
  let script := (items.get "script").text
  let digest := (items.get "script_sha256").text
  let path := content.scriptPath script
  match content.script with
  | .notFound => refuse [.val content.manifestPath, lit ": script ", .val (py.reprStr script),
      lit " not found"]
  | .denied => .error .escaped
  | .unreadable error => refuse [.val path, lit ": unreadable script (", .val error, lit ")"]
  | .bytes bytes => do
      require (decide (bytes.length ≤ maxScriptBytes))
        [.val path, lit ": script exceeds ", .val (toString maxScriptBytes).toList, lit " bytes"]
      let hash := hashing.sha256Hex bytes
      require (hash == digest)
        [.val path, lit ": content hash ", .val (hash.take 12), lit " does not match manifest ",
          lit "script_sha256 ", .val (digest.take 12), lit "; probe was altered"]
      match hashing.decodeUtf8 bytes with
      | none => refuse [.val path, lit ": script must be UTF-8"]
      | some text => .ok (hash, text)

/-- `load_approved_probe`; with `allowSmoke` the reserved number is loaded too. -/
def loadProbe (allowSmoke : Bool) (repository : Text) (issueNumber : Int) :
    Checked ApprovedProbe := do
  require (decide (0 < issueNumber) || (allowSmoke && decide (issueNumber = 0)))
    [lit "issue number ", .val (toString issueNumber).toList,
      lit " is reserved; not a remediable case"]
  require (isOwnerName repository)
    [lit "repository ", .val (py.reprStr repository), lit " is not owner/name"]
  let raw ← readManifest content
  let items ← validateManifest py content.manifestPath repository issueNumber raw
  let (hash, text) ← readScript py hashing content items
  match hashing.manifestHash items with
  | none => .error .escaped
  | some manifestHash =>
      pure {
        repository := repository
        issueNumber := issueNumber
        manifestPath := content.manifestPath
        scriptPath := content.scriptPath (items.get "script").text
        manifest := items
        manifestHash := manifestHash
        scriptHash := hash
        scriptContent := text
        registryCommit := content.commit }

/-- `load_approved_probe`, as the dispatcher calls it. -/
def loadApprovedProbe (repository : Text) (issueNumber : Int) : Checked ApprovedProbe :=
  loadProbe py hashing content false repository issueNumber

end Load

/-! ## What the pipeline makes of it -/

/-- `_MISSING_PROBE_MARKER`. -/
def missingProbeMarker : Text := "no approved probe registered".toList

/-- `MISSING_PROBE_BLOCK_PREFIX`. -/
def missingProbeBlockStart : Text := "approved probe unavailable:".toList

/-- `is_missing_probe_error`. -/
def isMissingProbeError (message : Text) : Bool := contains missingProbeMarker message

/-- `is_missing_probe_block`. -/
def isMissingProbeBlock (reason : Text) : Bool :=
  let reason := stripBy Devin.isSpace reason
  startsWith missingProbeBlockStart reason && isMissingProbeError reason

/-- `MISSING_PROBE_BLOCKED`, of the failure reason. -/
def missingProbeBlocked (reason : Text) : Bool :=
  like (missingProbeBlockStart ++ '%' :: (missingProbeMarker ++ ['%'])) reason

/-- What `_dispatch` does with the registry's answer. -/
inductive Route
  | snapshot (probe : ApprovedProbe)
  | withoutProbe (detail : Text)
  | humanBlock (reason : Text)
  /-- an exception leaves `_dispatch` -/
  | raised

/-- The end of `_dispatch`. -/
def dispatchProbe (probeRequired : Bool) : Checked ApprovedProbe → Route
  | .ok probe => .snapshot probe
  | .error (.registry message) =>
      if probeRequired = false ∧ isMissingProbeError (join message) then
        .withoutProbe (join message)
      else .humanBlock (missingProbeBlockStart ++ ' ' :: join message)
  | .error _ => .raised

theorem dispatchProbe_refusal (probeRequired : Bool) (message : List Piece) :
    dispatchProbe probeRequired (.error (.registry message)) =
      if probeRequired = false ∧ isMissingProbeError (join message) then
        .withoutProbe (join message)
      else .humanBlock (missingProbeBlockStart ++ ' ' :: join message) := rfl

end Remediator.Probes
