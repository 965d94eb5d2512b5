import Remediator.Probes.Registry

set_option autoImplicit false

/-! # The grammar of a manifest

What an accepted manifest may contain. The validator enforces it up to two slips: a text that ends
with a line feed passes the patterns, and a letter or digit outside ASCII passes the character test
of a resource key.
-/

namespace Remediator.Probes

open Text

/-! ## The declared grammar -/

/-- `items.get(key, [])`, when it is a list. -/
def Items.listOf (items : Items) (key : String) : List Yaml :=
  match (items.lookup key).getD (.list []) with
  | .list xs => xs
  | _ => []

/-- `[a-z0-9-_./:]`. -/
def isKeyChar (c : Char) : Bool := c.isLower || c.isDigit || "-_./:".toList.contains c

/-- A resource key after its normalisation. -/
structure IsResourceKey (key : Text) : Prop where
  nonempty : key ≠ []
  short : key.length ≤ 128
  chars : ∀ c ∈ key, isKeyChar c = true
  noParent : ¬ "..".toList <:+: key
  relative : ¬ "/".toList <+: key

/-- A repository-relative path without a parent segment. -/
def IsRelativePath (path : Text) : Prop :=
  ∀ name ∈ path.splitOn '/', name ≠ [] ∧ name ≠ "..".toList ∧ ∀ c ∈ name, isPathChar c = true

/-- An argument vector whose program is one of the tools. -/
structure IsArgv (tools : List Yaml) (argv : List Text) : Prop where
  nonempty : argv ≠ []
  bounded : argv.length ≤ 32
  lengths : ∀ a ∈ argv, 1 ≤ a.length ∧ a.length ≤ 256
  clean : ∀ a ∈ argv, '\x00' ∉ a ∧ '\n' ∉ a
  program : ∃ tool, argv.head? = some tool ∧ .str tool ∈ tools ∧ '/' ∉ tool

/-- An integer between two bounds. -/
def IsWithin (lo hi : Int) (value : Yaml) : Prop := ∃ n, value = .int n ∧ lo ≤ n ∧ n ≤ hi

/-- The manifest is of the declared grammar. -/
structure Declared (py : Python) (items : Items) : Prop where
  baseSha : ∃ t, items.get "base_sha" = .str t ∧ t.length = 40 ∧ ∀ c ∈ t, isHexChar c = true
  scriptSha256 : ∃ t, items.get "script_sha256" = .str t ∧ t.length = 64 ∧
    ∀ c ∈ t, isHexChar c = true
  script : ∃ t, items.get "script" = .str t ∧ t ≠ [] ∧ '/' ∉ t
  tools : ∃ tools, toolsOf items = some tools ∧ ∀ tool ∈ tools, ∃ t, tool = .str t ∧
    1 ≤ t.length ∧ t.length ≤ 64 ∧ ∀ c ∈ t, isToolChar c = true
  cacheInputs : ∀ input ∈ items.listOf "cache_inputs", ∃ t, input = .str t ∧ IsRelativePath t
  resourceKeys : ∀ key ∈ items.listOf "resource_keys",
    ∃ t, py.str key = .ok t ∧ IsResourceKey (normalizeKey py t)
  setup : ∀ step ∈ items.listOf "setup",
    ∃ argv, step = .list (argv.map .str) ∧ IsArgv ((toolsOf items).getD []) argv
  exitCodes : ∃ codes base head, items.get "expected_exit_codes" = .dict codes ∧
    Items.get codes "base" = .int base ∧ Items.get codes "head" = .int head ∧
    (0 ≤ base ∧ base ≤ 255) ∧ (0 ≤ head ∧ head ≤ 255) ∧ base ≠ head
  timeout : IsWithin 1 (6 * 3600) (items.get "timeout_seconds")
  setupTimeout : ∀ value, items.lookup "setup_timeout_seconds" = some value →
    IsWithin 1 (6 * 3600) value

/-- No text that a pattern has read ends with a line feed, and the letters and digits of the
resource keys are ASCII. -/
structure Exact (py : Python) (items : Items) : Prop where
  baseSha : ∀ t, items.get "base_sha" = .str t → ¬ EndsLine t
  scriptSha256 : ∀ t, items.get "script_sha256" = .str t → ¬ EndsLine t
  tools : ∀ tools, toolsOf items = some tools → ∀ t, .str t ∈ tools → ¬ EndsLine t
  cacheInputs : ∀ t, .str t ∈ items.listOf "cache_inputs" → ¬ EndsLine t
  resourceKeys : ∀ key ∈ items.listOf "resource_keys", ∀ t, py.str key = .ok t →
    ∀ c ∈ normalizeKey py t, py.isAlnum c = true → c.toNat < 128

/-! ## The patterns -/

section Patterns

variable {t : Text}

theorem isHex_iff {n : Nat} : isHex n t = true ↔ t.length = n ∧ ∀ c ∈ t, isHexChar c = true := by
  simp [isHex]

theorem isTool_iff : isTool t = true ↔
    1 ≤ t.length ∧ t.length ≤ 64 ∧ ∀ c ∈ t, isToolChar c = true := by
  simp [isTool, and_assoc]

theorem isRelPath_iff : isRelPath t = true ↔
    ∀ name ∈ t.splitOn '/', name ≠ [] ∧ ∀ c ∈ name, isPathChar c = true := by
  simp [isRelPath]

theorem isHex_line {n : Nat} (h : isHex n t = true) : '\n' ∉ t := by
  intro hmem
  have hchar := (isHex_iff.mp h).2 _ hmem
  revert hchar
  decide

theorem isTool_line (h : isTool t = true) : '\n' ∉ t := by
  intro hmem
  have hchar := (isTool_iff.mp h).2.2 _ hmem
  revert hchar
  decide

theorem isRelPath_line (h : isRelPath t = true) : '\n' ∉ t := by
  intro hmem
  obtain ⟨name, hname, hmem⟩ := mem_splitOn '/' hmem (by decide)
  have hchar := (isRelPath_iff.mp h name hname).2 _ hmem
  revert hchar
  decide

end Patterns

/-! ## What the validator accepts -/

section Accepted

variable {α β : Type} {py : Python} {path : Text}

theorem bind_ok {x : Checked α} {f : α → Checked β} {b : β} :
    (x >>= f) = .ok b ↔ ∃ a, x = .ok a ∧ f a = .ok b := by
  cases x with
  | ok a =>
      constructor
      · exact fun h => ⟨a, rfl, h⟩
      · rintro ⟨a', h, hf⟩
        cases h
        exact hf
  | error e =>
      constructor
      · intro h
        cases h
      · rintro ⟨a, h, -⟩
        cases h

theorem forM_ok {f : α → Checked Unit} {xs : List α} {u : Unit} :
    xs.forM f = .ok u ↔ ∀ x ∈ xs, f x = .ok () := by
  induction xs with
  | nil => exact ⟨fun _ _ hx => absurd hx List.not_mem_nil, fun _ => rfl⟩
  | cons x xs ih =>
      show (f x >>= fun _ => xs.forM f) = .ok u ↔ _
      rw [bind_ok, List.forall_mem_cons]
      constructor
      · rintro ⟨⟨⟩, hx, hxs⟩
        exact ⟨hx, ih.mp hxs⟩
      · rintro ⟨hx, hxs⟩
        exact ⟨(), hx, ih.mpr hxs⟩

theorem require_ok {ok : Bool} {message : List Piece} {u : Unit} :
    require ok message = .ok u ↔ ok = true := by
  cases ok <;> simp [require, refuse]

theorem requireShown_ok {ok : Bool} {value : Yaml} {message : Text → List Piece} {u : Unit} :
    requireShown py ok value message = .ok u ↔ ok = true := by
  cases ok with
  | true => simp [requireShown]
  | false =>
      simp only [requireShown, Bool.false_eq_true, if_false, iff_false]
      cases py.repr value <;> simp [refuse]

theorem requireInt_ok {items : Items} {key : String} {lo hi n : Int} :
    requireInt py items key lo hi = .ok n ↔ items.get key = .int n ∧ lo ≤ n ∧ n ≤ hi := by
  unfold requireInt
  cases items.get key with
  | int m =>
      dsimp only
      by_cases hm : lo ≤ m ∧ m ≤ hi
      · rw [if_pos hm]
        constructor
        · intro h
          cases h
          exact ⟨rfl, hm⟩
        · rintro ⟨h, -⟩
          cases h
          rfl
      · rw [if_neg hm]
        constructor
        · intro h
          cases h
        · rintro ⟨h, hn⟩
          cases h
          exact absurd hn hm
  | _ => simp [refuse]

theorem isText_iff {ok : Text → Bool} {value : Yaml} :
    value.isText ok = true ↔ ∃ t, value = .str t ∧ ok t = true := by
  cases value <;> simp [Yaml.isText]

theorem validateResourceKey_ok {t k : Text} : validateResourceKey py t = .ok k ↔
    k = normalizeKey py t ∧ k ≠ [] ∧ k.length ≤ 128 ∧
      (∀ c ∈ k, py.isAlnum c = true ∨ c ∈ "-_./:".toList) ∧
      ¬ "..".toList <:+: k ∧ ¬ "/".toList <+: k := by
  unfold validateResourceKey
  dsimp only
  generalize normalizeKey py t = key
  have hall : (!key.all (fun c => py.isAlnum c || "-_./:".toList.contains c)) = true ↔
      ¬ ∀ c ∈ key, py.isAlnum c = true ∨ c ∈ "-_./:".toList := by
    rw [Bool.not_eq_true', ← Bool.not_eq_true, not_iff_not, List.all_eq_true]
    simp only [Bool.or_eq_true, List.contains_iff_mem]
  constructor
  · intro h
    split at h
    · cases h
    · next hlength =>
        split at h
        · cases h
        · next hchars =>
            split at h
            · cases h
            · next hpath =>
                cases h
                rw [not_or] at hlength hpath
                refine ⟨rfl, by simpa using hlength.1, not_lt.mp hlength.2,
                  not_not.mp fun hnot => hchars (hall.mpr hnot),
                  fun hparent => hpath.1 (contains_iff.mpr hparent),
                  fun hroot => hpath.2 (List.isPrefixOf_iff_prefix.mpr hroot)⟩
  · rintro ⟨rfl, hne, hshort, hchars, hparent, hroot⟩
    rw [if_neg, if_neg, if_neg]
    · rw [not_or]
      exact ⟨fun h => hparent (contains_iff.mp h),
        fun h => hroot (List.isPrefixOf_iff_prefix.mp h)⟩
    · exact fun hnot => hall.mp hnot hchars
    · rw [not_or]
      exact ⟨by simpa using hne, not_lt.mpr hshort⟩

theorem checkResourceKey_ok {key : Yaml} : checkResourceKey py path key = .ok () ↔
    ∃ t k, py.str key = .ok t ∧ validateResourceKey py t = .ok k := by
  unfold checkResourceKey
  cases hstr : py.str key with
  | error e => cases e <;> simp [refuse]
  | ok t =>
      cases hkey : validateResourceKey py t with
      | error message => simp [refuse, hkey]
      | ok k => simp [hkey]

theorem asArgument_some {value : Yaml} {a : Text} :
    asArgument value = some a ↔ value = .str a ∧ 1 ≤ a.length ∧ a.length ≤ 256 := by
  cases value with
  | str t =>
      simp only [asArgument, Option.ite_none_right_eq_some, Option.some.injEq, Yaml.str.injEq]
      constructor
      · rintro ⟨h, rfl⟩
        exact ⟨rfl, h⟩
      · rintro ⟨rfl, h⟩
        exact ⟨h, rfl⟩
  | _ => simp [asArgument]

theorem mapM_asArgument {xs : List Yaml} {argv : List Text} :
    xs.mapM asArgument = some argv ↔
      xs = argv.map .str ∧ ∀ a ∈ argv, 1 ≤ a.length ∧ a.length ≤ 256 := by
  induction xs generalizing argv with
  | nil => cases argv <;> simp
  | cons x xs ih =>
      rw [List.mapM_cons]
      constructor
      · intro h
        obtain ⟨a, ha, h⟩ := Option.bind_eq_some_iff.mp h
        obtain ⟨as, has, h⟩ := Option.bind_eq_some_iff.mp h
        cases h
        obtain ⟨rfl, hlength⟩ := asArgument_some.mp ha
        obtain ⟨rfl, hlengths⟩ := ih.mp has
        exact ⟨rfl, List.forall_mem_cons.mpr ⟨hlength, hlengths⟩⟩
      · rintro ⟨hxs, hlengths⟩
        cases argv with
        | nil => cases hxs
        | cons a as =>
            obtain ⟨rfl, rfl⟩ := List.cons.inj hxs
            obtain ⟨hlength, hlengths⟩ := List.forall_mem_cons.mp hlengths
            refine Option.bind_eq_some_iff.mpr ⟨a, asArgument_some.mpr ⟨rfl, hlength⟩, ?_⟩
            exact Option.bind_eq_some_iff.mpr ⟨as, ih.mpr ⟨rfl, hlengths⟩, rfl⟩

theorem asArgv_some {step : Yaml} {argv : List Text} : asArgv step = some argv ↔
    step = .list (argv.map .str) ∧ argv ≠ [] ∧ argv.length ≤ 32 ∧
      ∀ a ∈ argv, 1 ≤ a.length ∧ a.length ≤ 256 := by
  cases step with
  | list xs =>
      simp only [asArgv, Option.ite_none_left_eq_some, mapM_asArgument, Yaml.list.injEq, not_or]
      constructor
      · rintro ⟨⟨hne, hbound⟩, rfl, hlengths⟩
        refine ⟨rfl, by simpa using hne, ?_, hlengths⟩
        simpa [maxArgvItems] using hbound
      · rintro ⟨rfl, hne, hbound, hlengths⟩
        refine ⟨⟨by simpa using hne, ?_⟩, rfl, hlengths⟩
        simpa [maxArgvItems] using hbound
  | _ => simp [asArgv]

theorem validateStep_ok {tools : List Text} {step : Yaml} :
    validateStep py path tools step = .ok () ↔ ∃ argv, asArgv step = some argv ∧
      (argv.headD [] ∈ tools ∧ '/' ∉ argv.headD []) ∧ ∀ a ∈ argv, '\x00' ∉ a ∧ '\n' ∉ a := by
  unfold validateStep
  simp only [bind_ok, requireShown_ok, require_ok, decide_eq_true_eq, List.all_eq_true]
  constructor
  · rintro ⟨⟨⟩, hsome, ⟨⟩, hprogram, hclean⟩
    obtain ⟨argv, hargv⟩ := Option.isSome_iff_exists.mp hsome
    rw [hargv] at hprogram hclean
    exact ⟨argv, hargv, hprogram, hclean⟩
  · rintro ⟨argv, hargv, hprogram, hclean⟩
    rw [hargv]
    exact ⟨(), rfl, (), hprogram, hclean⟩

theorem shortList_some {items : Items} {key : String} {limit : Nat} {xs : List Yaml}
    (h : shortList items key limit = some xs) : items.listOf key = xs := by
  unfold shortList at h
  unfold Items.listOf
  generalize (items.lookup key).getD (.list []) = value at h ⊢
  cases value with
  | list ys =>
      dsimp only at h ⊢
      split at h
      · cases h
      · exact Option.some.inj h
  | _ => cases h

theorem checkSetupTimeout_ok {items : Items} {u : Unit} (h : checkSetupTimeout py items = .ok u) :
    ∀ value, items.lookup "setup_timeout_seconds" = some value → IsWithin 1 (6 * 3600) value := by
  intro value hvalue
  unfold checkSetupTimeout at h
  rw [hvalue] at h
  obtain ⟨n, hn, -⟩ := bind_ok.mp h
  obtain ⟨hget, hwithin⟩ := requireInt_ok.mp hn
  refine ⟨n, ?_, hwithin⟩
  simpa [Items.get, hvalue] using hget

/-- What an accepted setup has passed. -/
structure SetupAccepted (py : Python) (items : Items) (tools : List Text) : Prop where
  setup : ∀ step ∈ items.listOf "setup", ∃ argv, asArgv step = some argv ∧
    (argv.headD [] ∈ tools ∧ '/' ∉ argv.headD []) ∧ ∀ a ∈ argv, '\x00' ∉ a ∧ '\n' ∉ a
  setupTimeout : ∀ value, items.lookup "setup_timeout_seconds" = some value →
    IsWithin 1 (6 * 3600) value
  cacheInputs : ∀ input ∈ items.listOf "cache_inputs", ∃ t, input = .str t ∧
    relPathRe t = true ∧ "..".toList ∉ t.splitOn '/'
  resourceKeys : ∀ key ∈ items.listOf "resource_keys",
    ∃ t k, py.str key = .ok t ∧ validateResourceKey py t = .ok k

theorem validateSetup_ok {items : Items} {tools : List Text}
    (h : validateSetup py path items tools = .ok ()) : SetupAccepted py items tools := by
  unfold validateSetup at h
  simp only [bind_ok, require_ok, forM_ok] at h
  obtain ⟨⟨⟩, hsteps, ⟨⟩, hsetup, ⟨⟩, htimeout, ⟨⟩, hinputs, ⟨⟩, hcache, ⟨⟩, hshort, hkeys⟩ := h
  obtain ⟨steps, hsteps⟩ := Option.isSome_iff_exists.mp hsteps
  obtain ⟨inputs, hinputs⟩ := Option.isSome_iff_exists.mp hinputs
  obtain ⟨keys, hshort⟩ := Option.isSome_iff_exists.mp hshort
  rw [hsteps] at hsetup
  rw [hinputs] at hcache
  rw [hshort] at hkeys
  refine ⟨?_, ?_, ?_, ?_⟩
  · rw [shortList_some hsteps]
    exact fun step hstep => validateStep_ok.mp (hsetup step hstep)
  · exact checkSetupTimeout_ok htimeout
  · rw [shortList_some hinputs]
    intro input hinput
    obtain ⟨t, rfl, ht⟩ := isText_iff.mp (requireShown_ok.mp (hcache input hinput))
    rw [Bool.and_eq_true, decide_eq_true_eq] at ht
    exact ⟨t, rfl, ht⟩
  · rw [shortList_some hshort]
    exact fun key hkey => checkResourceKey_ok.mp (hkeys key hkey)

/-- What an accepted manifest has passed. -/
structure Accepted (py : Python) (items : Items) : Prop where
  baseSha : ∃ t, items.get "base_sha" = .str t ∧ shaRe t = true
  script : ∃ t, items.get "script" = .str t ∧ isScriptName t = true
  exitCodes : ∃ codes base head, items.get "expected_exit_codes" = .dict codes ∧
    Items.get codes "base" = .int base ∧ Items.get codes "head" = .int head ∧
    (0 ≤ base ∧ base ≤ 255) ∧ (0 ≤ head ∧ head ≤ 255) ∧ base ≠ head
  timeout : IsWithin 1 (6 * 3600) (items.get "timeout_seconds")
  tools : ∃ tools, toolsOf items = some tools ∧ ∀ tool ∈ tools, ∃ t, tool = .str t ∧ toolRe t = true
  scriptSha256 : ∃ t, items.get "script_sha256" = .str t ∧ hex256Re t = true
  setup : SetupAccepted py items (((toolsOf items).getD []).map Yaml.text)

theorem validateItems_ok {repository : Text} {issueNumber : Int} {items : Items}
    (h : validateItems py path repository issueNumber items = .ok ()) : Accepted py items := by
  unfold validateItems at h
  simp only [bind_ok, require_ok, requireShown_ok, requireInt_ok, forM_ok, isText_iff,
    decide_eq_true_eq] at h
  obtain ⟨⟨⟩, -, ⟨⟩, -, ⟨⟩, -, ⟨⟩, hsha, ⟨⟩, hscript, ⟨⟩, hcodes, base, hbase, head, hhead, ⟨⟩, hne,
    timeout, htimeout, ⟨⟩, -, ⟨⟩, hsome, ⟨⟩, htools, ⟨⟩, hdigest, hsetup⟩ := h
  obtain ⟨codes, hcodes⟩ := Option.isSome_iff_exists.mp hcodes
  obtain ⟨tools, hsome⟩ := Option.isSome_iff_exists.mp hsome
  rw [hcodes] at hbase hhead
  have hdict : items.get "expected_exit_codes" = .dict codes := by
    unfold exitCodesOf Yaml.asDict at hcodes
    split at hcodes
    · next items' hitems =>
        cases hcodes
        exact hitems
    · cases hcodes
  refine ⟨hsha, hscript, ⟨codes, base, head, hdict, hbase.1, hhead.1, hbase.2, hhead.2, hne⟩,
    ⟨timeout, htimeout⟩, ⟨tools, hsome, fun tool htool => ?_⟩, hdigest, validateSetup_ok hsetup⟩
  rw [hsome] at htools
  exact isText_iff.mp (requireShown_ok.mp (htools tool htool))

end Accepted

/-! ## The grammar of what is accepted -/

section Grammar

variable {py : Python} {items : Items}

/-- The argument vector of an accepted step. -/
theorem SetupAccepted.isArgv {tools : List Yaml} {step : Yaml}
    (htools : ∀ tool ∈ tools, ∃ t, tool = .str t) {argv : List Text}
    (hargv : asArgv step = some argv)
    (hprogram : argv.headD [] ∈ tools.map Yaml.text ∧ '/' ∉ argv.headD [])
    (hclean : ∀ a ∈ argv, '\x00' ∉ a ∧ '\n' ∉ a) :
    step = .list (argv.map .str) ∧ IsArgv tools argv := by
  obtain ⟨hstep, hne, hbound, hlengths⟩ := asArgv_some.mp hargv
  obtain ⟨program, rest, rfl⟩ := List.exists_cons_of_ne_nil hne
  obtain ⟨tool, htool, htext⟩ := List.mem_map.mp hprogram.1
  obtain ⟨t, rfl⟩ := htools tool htool
  refine ⟨hstep, hne, hbound, hlengths, hclean, program, rfl, ?_, hprogram.2⟩
  rw [show program = t from htext.symm]
  exact htool

theorem isKeyChar_ascii {c : Char} (h : isKeyChar c = true) : c.toNat < 128 := by
  unfold isKeyChar Char.isLower Char.isDigit at h
  simp only [Bool.or_eq_true, Bool.and_eq_true, decide_eq_true_eq, ge_iff_le,
    UInt32.le_iff_toNat_le] at h
  change c.val.toNat < 128
  rcases h with (⟨-, hle⟩ | ⟨-, hle⟩) | hpunct
  · exact Nat.lt_of_le_of_lt hle (by decide)
  · exact Nat.lt_of_le_of_lt hle (by decide)
  · have hall : ("-_./:".toList.all fun c => decide (c.val.toNat < 128)) = true := by decide
    exact of_decide_eq_true (List.all_eq_true.mp hall c (List.contains_iff_mem.mp hpunct))

/-- A normalised resource key is of its grammar exactly when its letters and digits are ASCII. -/
theorem isResourceKey_iff {t k : Text} (h : validateResourceKey py t = .ok k) :
    IsResourceKey (normalizeKey py t) ↔
      ∀ c ∈ normalizeKey py t, py.isAlnum c = true → c.toNat < 128 := by
  obtain ⟨rfl, hne, hshort, hchars, hparent, hroot⟩ := validateResourceKey_ok.mp h
  constructor
  · exact fun hkey c hc _ => isKeyChar_ascii (hkey.chars c hc)
  · intro hascii
    refine ⟨hne, hshort, fun c hc => ?_, hparent, hroot⟩
    unfold isKeyChar
    rcases hchars c hc with halnum | hpunct
    · -- an ASCII letter of a text in lower case is a small one
      have hupper := py.lower_upper _ c hc
      rw [py.isAlnum_ascii c (hascii c hc halnum)] at halnum
      change (c.isUpper || c.isLower || c.isDigit) = true at halnum
      simp only [hupper, Bool.false_or] at halnum
      rw [halnum, Bool.true_or]
    · rw [List.contains_iff_mem.mpr hpunct, Bool.or_true]

/-- A text that a pattern has read is of its grammar exactly when it does not end with a line
feed. -/
theorem shaRe_iff {n : Nat} {t : Text} (h : matchLine (isHex n) t = true) :
    (t.length = n ∧ ∀ c ∈ t, isHexChar c = true) ↔ ¬ EndsLine t := by
  rw [← isHex_iff]
  exact matchLine_exact (fun _ => isHex_line) h

theorem toolRe_iff {t : Text} (h : toolRe t = true) :
    (1 ≤ t.length ∧ t.length ≤ 64 ∧ ∀ c ∈ t, isToolChar c = true) ↔ ¬ EndsLine t := by
  rw [← isTool_iff]
  exact matchLine_exact (fun _ => isTool_line) h

theorem isRelativePath_iff {t : Text} (h : relPathRe t = true)
    (hparent : "..".toList ∉ t.splitOn '/') : IsRelativePath t ↔ ¬ EndsLine t := by
  rw [← matchLine_exact (fun _ => isRelPath_line) h, isRelPath_iff]
  constructor
  · exact fun hpath name hname => ⟨(hpath name hname).1, (hpath name hname).2.2⟩
  · intro hpath name hname
    refine ⟨(hpath name hname).1, ?_, (hpath name hname).2⟩
    rintro rfl
    exact hparent hname

theorem Accepted.declared (h : Accepted py items) (hexact : Exact py items) :
    Declared py items := by
  obtain ⟨sha, hsha, hshaRe⟩ := h.baseSha
  obtain ⟨digest, hdigest, hdigestRe⟩ := h.scriptSha256
  obtain ⟨script, hscript, hname⟩ := h.script
  obtain ⟨tools, htools, hall⟩ := h.tools
  refine ⟨⟨sha, hsha, (shaRe_iff hshaRe).mpr (hexact.baseSha sha hsha)⟩,
    ⟨digest, hdigest, (shaRe_iff hdigestRe).mpr (hexact.scriptSha256 digest hdigest)⟩, ?_,
    ⟨tools, htools, fun tool htool => ?_⟩, fun input hinput => ?_, fun key hkey => ?_,
    fun step hstep => ?_, h.exitCodes, h.timeout, h.setup.setupTimeout⟩
  · refine ⟨script, hscript, ?_⟩
    simp only [isScriptName, Bool.and_eq_true, decide_eq_true_eq] at hname
    exact ⟨by simpa using hname.1.1.1, hname.1.1.2⟩
  · obtain ⟨t, rfl, ht⟩ := hall tool htool
    exact ⟨t, rfl, (toolRe_iff ht).mpr (hexact.tools tools htools t htool)⟩
  · obtain ⟨t, rfl, ht, hparent⟩ := h.setup.cacheInputs input hinput
    exact ⟨t, rfl, (isRelativePath_iff ht hparent).mpr (hexact.cacheInputs t hinput)⟩
  · obtain ⟨t, k, ht, hk⟩ := h.setup.resourceKeys key hkey
    exact ⟨t, ht, (isResourceKey_iff hk).mpr (hexact.resourceKeys key hkey t ht)⟩
  · obtain ⟨argv, hargv, hprogram, hclean⟩ := h.setup.setup step hstep
    rw [htools] at hprogram ⊢
    refine ⟨argv, SetupAccepted.isArgv (fun tool htool => ?_) hargv hprogram hclean⟩
    obtain ⟨t, rfl, -⟩ := hall tool htool
    exact ⟨t, rfl⟩

theorem Declared.exact (h : Accepted py items) (hdeclared : Declared py items) :
    Exact py items := by
  obtain ⟨sha, hsha, hshaRe⟩ := h.baseSha
  obtain ⟨digest, hdigest, hdigestRe⟩ := h.scriptSha256
  refine ⟨fun t ht => ?_, fun t ht => ?_, fun tools htools t ht => ?_, fun t ht => ?_,
    fun key hkey t ht => ?_⟩
  · obtain ⟨t', ht', hhex⟩ := hdeclared.baseSha
    rw [hsha] at ht ht'
    cases ht
    cases ht'
    exact (shaRe_iff hshaRe).mp hhex
  · obtain ⟨t', ht', hhex⟩ := hdeclared.scriptSha256
    rw [hdigest] at ht ht'
    cases ht
    cases ht'
    exact (shaRe_iff hdigestRe).mp hhex
  · obtain ⟨tools', htools', hall⟩ := h.tools
    obtain ⟨tools'', htools'', hdecl⟩ := hdeclared.tools
    rw [htools] at htools' htools''
    cases htools'
    cases htools''
    obtain ⟨u, hu, hre⟩ := hall _ ht
    obtain ⟨v, hv, hgrammar⟩ := hdecl _ ht
    cases hu
    cases hv
    exact (toolRe_iff hre).mp hgrammar
  · obtain ⟨u, hu, hre, hparent⟩ := h.setup.cacheInputs _ ht
    obtain ⟨v, hv, hgrammar⟩ := hdeclared.cacheInputs _ ht
    cases hu
    cases hv
    exact (isRelativePath_iff hre hparent).mp hgrammar
  · obtain ⟨u, k, hu, hk⟩ := h.setup.resourceKeys key hkey
    obtain ⟨v, hv, hgrammar⟩ := hdeclared.resourceKeys key hkey
    rw [ht] at hu hv
    cases hu
    cases hv
    exact (isResourceKey_iff hk).mp hgrammar

end Grammar

/-- **An accepted manifest is of the declared grammar exactly when no text in it ends with a line
feed and its resource keys are ASCII.** -/
theorem validate_manifest_iff (py : Python) (path repository : Text) (issueNumber : Int)
    (manifest : Yaml) {items : Items}
    (h : validateManifest py path repository issueNumber manifest = .ok items) :
    Declared py items ↔ Exact py items := by
  have haccepted : Accepted py items := by
    unfold validateManifest at h
    split at h
    · next items' =>
        obtain ⟨⟨⟩, hitems, hsame⟩ := bind_ok.mp h
        cases hsame
        exact validateItems_ok hitems
    · cases h
  exact ⟨fun hdeclared => hdeclared.exact haccepted, fun hexact => haccepted.declared hexact⟩

/-! ## Two manifests -/

theorem isUpper_toLower (c : Char) : c.toLower.isUpper = false := by
  delta Char.isUpper Char.toLower
  split <;> grind [UInt32.toNat_add, Char.toNat_val]

/-- Python's library on ASCII texts; the texts of other values do not matter here. -/
def asciiPython : Python where
  str
    | .str t => .ok t
    | _ => .error .other
  repr
    | .str t => some ('\'' :: t ++ ['\''])
    | _ => none
  reprStr t := '\'' :: t ++ ['\'']
  lower t := t.map Char.toLower
  isAlnum := Char.isAlphanum
  lower_upper t c hc := by
    obtain ⟨d, -, rfl⟩ := List.mem_map.mp hc
    exact isUpper_toLower d
  isAlnum_ascii _ _ := rfl

def yamlText (text : String) : Yaml := .str text.toList

/-- A manifest with the base commit `sha`. -/
def demoManifest (sha : String) : Items :=
  [(yamlText "schema_version", yamlText "probe.v1"),
    (yamlText "repository", yamlText "apache/superset"),
    (yamlText "issue_number", .int 4213),
    (yamlText "base_sha", yamlText sha),
    (yamlText "script", yamlText "probe.sh"),
    (yamlText "expected_exit_codes", .dict [(yamlText "base", .int 1), (yamlText "head", .int 0)]),
    (yamlText "timeout_seconds", .int 600),
    (yamlText "runtime", .dict [(yamlText "tools", .list [yamlText "bash"])]),
    (yamlText "script_sha256",
      yamlText "00112233445566778899aabbccddeeff00112233445566778899aabbccddeeff"),
    (yamlText "setup", .list [.list [yamlText "bash", yamlText "-c", yamlText "true"]]),
    (yamlText "cache_inputs", .list [yamlText "requirements/base.txt"]),
    (yamlText "resource_keys", .list [yamlText " DB:main "])]

theorem validate_manifest_iff_demo :
    Declared asciiPython (demoManifest "0123456789abcdef0123456789abcdef01234567") := by
  refine (validate_manifest_iff asciiPython "probe.yaml".toList "apache/superset".toList 4213
    (.dict (demoManifest "0123456789abcdef0123456789abcdef01234567")) rfl).mpr ?_
  refine ⟨?_, ?_, ?_, ?_, ?_⟩
  · rintro t ⟨⟩
    decide
  · rintro t ⟨⟩
    decide
  · rintro tools ⟨⟩ t ht
    rw [List.mem_singleton] at ht
    cases ht
    decide
  · intro t ht
    change _ ∈ [_] at ht
    rw [List.mem_singleton] at ht
    cases ht
    decide
  · intro key hkey t ht
    change _ ∈ [_] at hkey
    rw [List.mem_singleton] at hkey
    subst hkey
    cases ht
    have hascii : ((normalizeKey asciiPython " DB:main ".toList).all
        fun c => decide (c.toNat < 128)) = true := by decide
    exact fun c hc _ => of_decide_eq_true (List.all_eq_true.mp hascii c hc)

/-- **A base commit with a line feed at its end is accepted.** -/
theorem line_feed_accepted :
    validateManifest asciiPython "probe.yaml".toList "apache/superset".toList 4213
        (.dict (demoManifest "0123456789abcdef0123456789abcdef01234567\n"))
      = .ok (demoManifest "0123456789abcdef0123456789abcdef01234567\n") ∧
    ¬ Declared asciiPython (demoManifest "0123456789abcdef0123456789abcdef01234567\n") := by
  refine ⟨rfl, fun h => ?_⟩
  obtain ⟨t, ht, hlength, -⟩ := h.baseSha
  cases ht
  revert hlength
  decide

end Remediator.Probes
