import Mathlib.Data.Rat.Defs
import Remediator.Lib.Pieces
import Remediator.Devin.Status

set_option autoImplicit false

/-! # The probe registry

`remediator/probes/registry.py`: `validate_manifest` over whatever `yaml.safe_load` returns. Every
field is tested for its type, then for its grammar; the patterns go through `re.match`, whose `$`
also matches before a line feed at the end, and the resource keys through `str.isalnum`, which is
wider than ASCII.
-/

namespace Remediator.Probes

open Text

/-! ## Values -/

/-- What `yaml.safe_load` returns. A float is `none` when it is not finite; `other` is a date, a
byte string or a set. -/
inductive Yaml
  | null
  | bool (b : Bool)
  | int (n : Int)
  | float (q : Option ℚ)
  | str (t : Text)
  | other (t : Text)
  | list (xs : List Yaml)
  | dict (items : List (Yaml × Yaml))

/-- `value == text`. -/
def Yaml.isStr (text : Text) : Yaml → Bool
  | .str t => t == text
  | _ => false

/-- `value == n` of a number `n`. -/
def Yaml.isInt (n : Int) : Yaml → Bool
  | .int m => m == n
  | .bool b => (if b then 1 else 0) == n
  | .float (some q) => q == n
  | _ => false

/-- The items of a mapping. -/
abbrev Items := List (Yaml × Yaml)

/-- `items[key]`, if it is there. -/
def Items.lookup (items : Items) (key : String) : Option Yaml :=
  (items.find? fun item => item.1.isStr key.toList).map (·.2)

/-- `items.get(key)`. -/
def Items.get (items : Items) (key : String) : Yaml := (items.lookup key).getD .null

/-- An exception of the validator. -/
inductive RegistryExc
  /-- `ProbeRegistryError` -/
  | registry (message : List Piece)
  /-- an exception of Python itself -/
  | escaped

/-- What `str(value)` raises. -/
inductive StrExc
  | valueError (message : Text)
  | other

/-- What Python's library does with texts and values: `str` and `repr` raise, for example, on a
number with too many digits, and case and character classes are those of Unicode. -/
structure Python where
  str : Yaml → Except StrExc Text
  /-- `repr(value)`; `none` when it raises -/
  repr : Yaml → Option Text
  reprStr : Text → Text
  /-- `str.lower()` -/
  lower : Text → Text
  /-- `str.isalnum()` of one character -/
  isAlnum : Char → Bool
  lower_upper : ∀ t, ∀ c ∈ lower t, c.isUpper = false
  isAlnum_ascii : ∀ c, c.toNat < 128 → isAlnum c = c.isAlphanum

/-- A literal of a message. -/
def lit (text : String) : Piece := .lit text.toList

/-! ## Patterns -/

def isHexChar (c : Char) : Bool := c.isDigit || (decide ('a' ≤ c) && decide (c ≤ 'f'))

def isToolChar (c : Char) : Bool := c.isAlphanum || "_.+-".toList.contains c

def isPathChar (c : Char) : Bool := c.isAlphanum || "_.@-".toList.contains c

/-- `n` hexadecimal digits. -/
def isHex (n : Nat) (t : Text) : Bool := t.length == n && t.all isHexChar

/-- Between 1 and 64 characters of a tool name. -/
def isTool (t : Text) : Bool := decide (1 ≤ t.length ∧ t.length ≤ 64) && t.all isToolChar

/-- Names of path characters between slashes. -/
def isRelPath (t : Text) : Bool :=
  (t.splitOn '/').all fun name => !name.isEmpty && name.all isPathChar

/-- `_SHA_RE.match`. -/
def shaRe (t : Text) : Bool := matchLine (isHex 40) t

/-- `_HEX256_RE.match`. -/
def hex256Re (t : Text) : Bool := matchLine (isHex 64) t

/-- `_TOOL_RE.match`. -/
def toolRe (t : Text) : Bool := matchLine isTool t

/-- `_REL_PATH_RE.match`. -/
def relPathRe (t : Text) : Bool := matchLine isRelPath t

/-! ## The validator -/

def minTimeout : Int := 1
def maxTimeout : Int := 6 * 3600
def maxSetupSteps : Nat := 8
def maxArgvItems : Nat := 32
def maxArgLength : Nat := 256
def maxCacheInputs : Nat := 8
def maxResourceKeys : Nat := 8
def resourceKeyMaxLength : Nat := 128

abbrev Checked (α : Type) := Except RegistryExc α

/-- `raise ProbeRegistryError(message)`. -/
def refuse {α : Type} (message : List Piece) : Checked α := .error (.registry message)

/-- `if not ok: raise ProbeRegistryError(message)`. -/
def require (ok : Bool) (message : List Piece) : Checked Unit :=
  if ok then .ok () else refuse message

/-- The same, with the `repr` of a value in the message. -/
def requireShown (py : Python) (ok : Bool) (value : Yaml) (message : Text → List Piece) :
    Checked Unit :=
  if ok then .ok ()
  else
    match py.repr value with
    | some shown => refuse (message shown)
    | none => .error .escaped

section Validator

variable (py : Python) (manifestPath : Text)

/-- `key.strip().lower()`. -/
def normalizeKey (key : Text) : Text := py.lower (stripBy Devin.isSpace key)

/-- `validate_resource_key`; the error is the message of a `ValueError`. -/
def validateResourceKey (key : Text) : Except (List Piece) Text :=
  let key := normalizeKey py key
  if key.isEmpty ∨ resourceKeyMaxLength < key.length then
    .error [lit "resource key must be 1-128 characters"]
  else if !key.all (fun c => py.isAlnum c || "-_./:".toList.contains c) then
    .error [lit "resource key ", .val (py.reprStr key),
      lit " has characters outside [a-z0-9-_./:]"]
  else if contains "..".toList key ∨ startsWith "/".toList key then
    .error [lit "resource key ", .val (py.reprStr key), lit " may not look like a path"]
  else .ok key

/-- `validate_resource_key(str(key))`, with a `ValueError` turned into a refusal. -/
def checkResourceKey (key : Yaml) : Checked Unit :=
  match py.str key with
  | .error .other => .error .escaped
  | .error (.valueError message) => refuse [.val manifestPath, lit ": ", .val message]
  | .ok text =>
      match validateResourceKey py text with
      | .error message => refuse (.val manifestPath :: lit ": " :: message)
      | .ok _ => .ok ()

/-- `value` is a text with the property. -/
def Yaml.isText (ok : Text → Bool) : Yaml → Bool
  | .str t => ok t
  | _ => false

/-- `_validate_relative_path`. -/
def validateRelativePath (what : String) (value : Yaml) : Checked Unit :=
  requireShown py
    (value.isText fun t => relPathRe t && decide ("..".toList ∉ t.splitOn '/')) value fun shown =>
      [.val manifestPath, lit ": ", .lit (what.toList ++ [' ']), .val shown,
        lit " must be a plain repository-relative path"]

/-- `_require_int`. -/
def requireInt (items : Items) (key : String) (lo hi : Int) : Checked Int :=
  match items.get key with
  | .int n =>
      if lo ≤ n ∧ n ≤ hi then .ok n
      else refuse [lit "manifest field ", .val (py.reprStr key.toList), lit " must be within [",
        .val (toString lo).toList, lit ", ", .val (toString hi).toList, lit "]"]
  | _ => refuse [lit "manifest field ", .val (py.reprStr key.toList), lit " must be an integer"]

/-- An argument of a setup step. -/
def asArgument : Yaml → Option Text
  | .str t => if 0 < t.length ∧ t.length ≤ maxArgLength then some t else none
  | _ => none

/-- The arguments of a setup step. -/
def asArgv : Yaml → Option (List Text)
  | .list xs => if xs.isEmpty ∨ maxArgvItems < xs.length then none else xs.mapM asArgument
  | _ => none

/-- The checks of one setup step. -/
def validateStep (tools : List Text) (step : Yaml) : Checked Unit := do
  requireShown py (asArgv step).isSome step fun shown =>
    [.val manifestPath, lit ": setup step ", .val shown, lit " is not a valid argv"]
  let argv := (asArgv step).getD []
  let program := argv.headD []
  require (decide (program ∈ tools ∧ '/' ∉ program))
    [.val manifestPath, lit ": setup step ", .val (py.reprStr program),
      lit " is not one of runtime.tools"]
  require (argv.all fun a => decide ('\x00' ∉ a ∧ '\n' ∉ a))
    [.val manifestPath, lit ": setup argv may not contain NUL/newline"]

/-- `items.get(key, [])`, if it is a list of at most `limit`. -/
def shortList (items : Items) (key : String) (limit : Nat) : Option (List Yaml) :=
  match (items.lookup key).getD (.list []) with
  | .list xs => if limit < xs.length then none else some xs
  | _ => none

/-- `if "setup_timeout_seconds" in manifest`. -/
def checkSetupTimeout (items : Items) : Checked Unit :=
  match items.lookup "setup_timeout_seconds" with
  | none => .ok ()
  | some _ => requireInt py items "setup_timeout_seconds" minTimeout maxTimeout >>= fun _ => .ok ()

/-- `_validate_setup`. -/
def validateSetup (items : Items) (tools : List Text) : Checked Unit := do
  require (shortList items "setup" maxSetupSteps).isSome
    [.val manifestPath, lit ": setup must be a list of at most 8 argv arrays"]
  ((shortList items "setup" maxSetupSteps).getD []).forM (validateStep py manifestPath tools)
  checkSetupTimeout py items
  require (shortList items "cache_inputs" maxCacheInputs).isSome
    [.val manifestPath, lit ": cache_inputs must be a short list of paths"]
  ((shortList items "cache_inputs" maxCacheInputs).getD []).forM
    (validateRelativePath py manifestPath "cache_inputs entry")
  require (shortList items "resource_keys" maxResourceKeys).isSome
    [.val manifestPath, lit ": resource_keys must be a short list"]
  ((shortList items "resource_keys" maxResourceKeys).getD []).forM
    (checkResourceKey py manifestPath)

/-- A mapping, or nothing. -/
def Yaml.asDict : Yaml → Option Items
  | .dict items => some items
  | _ => none

/-- A list that is not empty, or nothing. -/
def Yaml.asTools : Yaml → Option (List Yaml)
  | .list (tool :: tools) => some (tool :: tools)
  | _ => none

/-- `str(t)` of a text. -/
def Yaml.text : Yaml → Text
  | .str t => t
  | _ => []

/-- One entry of `runtime.tools`. -/
def checkTool (tool : Yaml) : Checked Unit :=
  requireShown py (tool.isText toolRe) tool fun shown =>
    [.val manifestPath, lit ": runtime.tools entry ", .val shown, lit " is invalid"]

/-- The name of the script is a file inside the probe directory. -/
def isScriptName (t : Text) : Bool :=
  !t.isEmpty && decide ('/' ∉ t) && !startsWith ".".toList t && t != "probe.yaml".toList

/-- `runtime` of a manifest. -/
def runtimeOf (items : Items) : Option Items := (items.get "runtime").asDict

/-- `runtime.tools` of a manifest. -/
def toolsOf (items : Items) : Option (List Yaml) :=
  (runtimeOf items).bind fun runtime => (Items.get runtime "tools").asTools

/-- `expected_exit_codes` of a manifest. -/
def exitCodesOf (items : Items) : Option Items := (items.get "expected_exit_codes").asDict

/-- `validate_manifest`, of a mapping. -/
def validateItems (repository : Text) (issueNumber : Int) (items : Items) : Checked Unit := do
  require ((items.get "schema_version").isStr "probe.v1".toList)
    [.val manifestPath, lit ": schema_version must be ", .val (py.reprStr "probe.v1".toList)]
  requireShown py ((items.get "repository").isStr repository) (items.get "repository") fun shown =>
    [.val manifestPath, lit ": repository ", .val shown, lit " != ", .val (py.reprStr repository)]
  requireShown py ((items.get "issue_number").isInt issueNumber) (items.get "issue_number")
    fun shown =>
      [.val manifestPath, lit ": issue_number ", .val shown, lit " != ",
        .val (toString issueNumber).toList]
  require ((items.get "base_sha").isText shaRe)
    [.val manifestPath, lit ": base_sha must be a 40-hex commit SHA"]
  require ((items.get "script").isText isScriptName)
    [.val manifestPath, lit ": script must name a file inside the probe directory"]
  require (exitCodesOf items).isSome
    [.val manifestPath, lit ": expected_exit_codes must be a mapping"]
  let codes := (exitCodesOf items).getD []
  let baseCode ← requireInt py codes "base" 0 255
  let headCode ← requireInt py codes "head" 0 255
  require (decide (baseCode ≠ headCode))
    [.val manifestPath,
      lit ": expected base and head exit codes must differ, otherwise the ",
      lit "probe cannot distinguish a fix from no change"]
  let _ ← requireInt py items "timeout_seconds" minTimeout maxTimeout
  require (runtimeOf items).isSome [.val manifestPath, lit ": runtime must be a mapping"]
  require (toolsOf items).isSome
    [.val manifestPath, lit ": runtime.tools must list required executables"]
  let tools := (toolsOf items).getD []
  tools.forM (checkTool py manifestPath)
  require ((items.get "script_sha256").isText hex256Re)
    [.val manifestPath, lit ": script_sha256 must be a 64-hex digest"]
  validateSetup py manifestPath items (tools.map Yaml.text)

/-- `validate_manifest`. -/
def validateManifest (repository : Text) (issueNumber : Int) (manifest : Yaml) : Checked Items :=
  match manifest with
  | .dict items => do
      validateItems py manifestPath repository issueNumber items
      pure items
  | _ => refuse [.val manifestPath, lit " must be a mapping"]

end Validator

end Remediator.Probes
