import Mathlib.Algebra.Group.Nat.Defs
import Mathlib.Data.List.Infix
import Mathlib.Tactic.Common

set_option autoImplicit false

/-! # Text as Python reads it

A text is the list of its characters. Here are the operations of `str` and `int` that read the
headers of a request; a header is decoded as Latin-1, so every character of it is below 256.
-/

/-- A `str`. -/
abbrev Text : Type := List Char

instance : LawfulBEq Text := inferInstance

namespace Text

/-- `bytes.decode("latin-1")`. -/
def decodeLatin1 (bytes : List UInt8) : Text := bytes.map fun b => Char.ofNat b.toNat

/-- What `decodeLatin1` writes. -/
def IsLatin1 (t : Text) : Prop := ∀ c ∈ t, c.toNat < 256

/-- `str.isascii()`. -/
def IsAscii (t : Text) : Prop := ∀ c ∈ t, c.toNat < 128

instance (t : Text) : Decidable t.IsLatin1 :=
  List.decidableBAll (fun c : Char => c.toNat < 256) t

instance (t : Text) : Decidable t.IsAscii :=
  List.decidableBAll (fun c : Char => c.toNat < 128) t

/-- `str.lower()` of a Latin-1 character. -/
def lowerLatin1Char (c : Char) : Char :=
  if 65 ≤ c.toNat ∧ c.toNat ≤ 90 ∨ 192 ≤ c.toNat ∧ c.toNat ≤ 222 ∧ c.toNat ≠ 215 then
    Char.ofNat (c.toNat + 32)
  else c

/-- `str.lower()` of a Latin-1 text. -/
def lowerLatin1 (t : Text) : Text := t.map lowerLatin1Char

/-- `t.startswith(start)`. -/
def startsWith (start t : Text) : Bool := start.isPrefixOf t

/-- `t.removeprefix(start)`. -/
def removeStart (start t : Text) : Text := if startsWith start t then t.drop start.length else t

theorem removeStart_append (start t : Text) : removeStart start (start ++ t) = t := by
  simp [removeStart, startsWith]

theorem startsWith_iff {start t : Text} :
    startsWith start t = true ↔ t = start ++ removeStart start t := by
  constructor
  · intro h
    obtain ⟨rest, rfl⟩ := List.isPrefixOf_iff_prefix.mp h
    rw [removeStart_append]
  · intro h
    rw [h]
    exact List.isPrefixOf_iff_prefix.mpr (List.prefix_append _ _)

/-- The text without the characters of `p` at both ends. -/
def stripBy (p : Char → Bool) (t : Text) : Text :=
  ((t.dropWhile p).reverse.dropWhile p).reverse

/-- `part in t`. -/
def contains (part t : Text) : Bool := t.tails.any (part.isPrefixOf ·)

theorem contains_iff {part t : Text} : contains part t = true ↔ part <:+: t := by
  unfold contains
  rw [List.any_eq_true]
  constructor
  · rintro ⟨rest, hrest, hpart⟩
    rw [List.mem_tails] at hrest
    exact (List.isPrefixOf_iff_prefix.mp hpart).isInfix.trans hrest.isInfix
  · rintro ⟨before, after, rfl⟩
    refine ⟨part ++ after, ?_, List.isPrefixOf_iff_prefix.mpr (List.prefix_append _ _)⟩
    rw [List.mem_tails, List.append_assoc]
    exact List.suffix_append _ _

/-- The characters of a text are those of the parts it is split into, and the separators. -/
theorem mem_splitOn (sep : Char) {c : Char} {t : Text} (hc : c ∈ t) (hsep : c ≠ sep) :
    ∃ part ∈ t.splitOn sep, c ∈ part := by
  induction t with
  | nil => cases hc
  | cons d t ih =>
      rw [List.splitOn_cons_eq_if_modifyHead]
      obtain ⟨first, rest, hsplit⟩ := List.exists_cons_of_ne_nil (List.splitOn_ne_nil sep t)
      rw [hsplit] at ih ⊢
      by_cases hd : (d == sep) = true
      · rw [if_pos hd]
        rcases List.mem_cons.mp hc with rfl | hc
        · exact absurd (by simpa using hd) hsep
        · obtain ⟨part, hpart, hmem⟩ := ih hc
          exact ⟨part, List.mem_cons_of_mem _ hpart, hmem⟩
      · rw [if_neg hd]
        rcases List.mem_cons.mp hc with rfl | hc
        · exact ⟨c :: first, List.mem_cons_self, List.mem_cons_self⟩
        · obtain ⟨part, hpart, hmem⟩ := ih hc
          rcases List.mem_cons.mp hpart with rfl | hpart
          · exact ⟨d :: part, List.mem_cons_self, List.mem_cons_of_mem _ hmem⟩
          · exact ⟨part, List.mem_cons_of_mem _ hpart, hmem⟩

/-- `t.split(sep, 1)`, if there is a separator. -/
def splitOnce (sep : Char) : Text → Option (Text × Text)
  | [] => none
  | c :: t =>
      if c = sep then some ([], t) else (splitOnce sep t).map fun parts => (c :: parts.1, parts.2)

theorem splitOnce_iff {sep : Char} {t first rest : Text} :
    splitOnce sep t = some (first, rest) ↔ sep ∉ first ∧ t = first ++ sep :: rest := by
  induction t generalizing first with
  | nil => simp [splitOnce]
  | cons c t ih =>
      rw [splitOnce]
      by_cases hc : c = sep
      · subst hc
        rw [if_pos rfl]
        constructor
        · intro h
          cases h
          exact ⟨List.not_mem_nil, rfl⟩
        · rintro ⟨hmem, heq⟩
          cases first with
          | nil =>
              cases heq
              rfl
          | cons d first =>
              obtain ⟨rfl, -⟩ := List.cons.inj heq
              exact absurd List.mem_cons_self hmem
      · rw [if_neg hc, Option.map_eq_some_iff]
        constructor
        · rintro ⟨⟨first, rest⟩, hsplit, heq⟩
          cases heq
          obtain ⟨hmem, rfl⟩ := ih.mp hsplit
          refine ⟨?_, rfl⟩
          rintro (_ | ⟨_, h⟩)
          · exact hc rfl
          · exact hmem h
        · rintro ⟨hmem, heq⟩
          cases first with
          | nil =>
              obtain ⟨rfl, -⟩ := List.cons.inj heq
              exact absurd rfl hc
          | cons d first =>
              obtain ⟨rfl, rfl⟩ := List.cons.inj heq
              exact ⟨(first, rest), ih.mpr ⟨fun h => hmem (List.mem_cons_of_mem _ h), rfl⟩, rfl⟩

/-! ## `re.match` -/

/-- The text ends with a line feed. -/
def EndsLine (t : Text) : Prop := ∃ u, t = u ++ ['\n']

theorem endsLine_iff {t : Text} : EndsLine t ↔ t.getLast? = some '\n' := by
  constructor
  · rintro ⟨u, rfl⟩
    simp
  · exact fun h => ⟨t.dropLast, (List.dropLast_append_getLast? _ h).symm⟩

instance (t : Text) : Decidable (EndsLine t) := decidable_of_iff _ endsLine_iff.symm

/-- `re.match` of a pattern between `^` and `$`, where `body` matches the whole text between them:
`$` also matches before a line feed at the end. -/
def matchLine (body : Text → Bool) (t : Text) : Bool :=
  body t || (t.getLast? == some '\n' && body t.dropLast)

theorem matchLine_iff {body : Text → Bool} {t : Text} :
    matchLine body t = true ↔ body t = true ∨ ∃ u, t = u ++ ['\n'] ∧ body u = true := by
  unfold matchLine
  rw [Bool.or_eq_true, Bool.and_eq_true]
  refine or_congr_right ?_
  constructor
  · rintro ⟨hlast, hbody⟩
    refine ⟨t.dropLast, ?_, hbody⟩
    exact (List.dropLast_append_getLast? _ (by simpa using hlast)).symm
  · rintro ⟨u, rfl, hbody⟩
    simpa using hbody

/-- A pattern without line feeds matches exactly what it describes, except before a line feed. -/
theorem matchLine_exact {body : Text → Bool} {t : Text}
    (hbody : ∀ u, body u = true → '\n' ∉ u) (h : matchLine body t = true) :
    body t = true ↔ ¬ EndsLine t := by
  constructor
  · rintro hplain ⟨u, rfl⟩
    exact hbody _ hplain (by simp)
  · intro hline
    rcases matchLine_iff.mp h with hplain | ⟨u, rfl, -⟩
    · exact hplain
    · exact absurd ⟨u, rfl⟩ hline

/-! ## `int(text)` -/

/-- The white space `int` drops, of a Latin-1 text. -/
def isIntSpace (c : Char) : Bool :=
  decide (9 ≤ c.toNat ∧ c.toNat ≤ 13 ∨ c.toNat = 32 ∨ c.toNat = 133 ∨ c.toNat = 160)

/-- The digits of a number; a single underscore may stand between two of them. -/
def intDigits : Bool → Text → Option (List ℕ)
  | afterDigit, [] => if afterDigit then some [] else none
  | afterDigit, c :: cs =>
      if 48 ≤ c.toNat ∧ c.toNat ≤ 57 then
        (intDigits true cs).map fun ds => (c.toNat - 48) :: ds
      else if c = '_' ∧ afterDigit then intDigits false cs
      else none

/-- `sys.int_info.default_max_str_digits`. -/
def maxStrDigits : ℕ := 4300

/-- The number the digits write. -/
def ofDigits (ds : List ℕ) : ℕ := ds.foldl (fun n d => 10 * n + d) 0

/-- Digits without a sign, unless there are too many of them. -/
def unsignedInt (t : Text) : Option ℕ :=
  (intDigits false t).bind fun ds => if ds.length ≤ maxStrDigits then some (ofDigits ds) else none

/-- `int(text)` of a Latin-1 text; `none` is a `ValueError`. -/
def toInt (t : Text) : Option Int :=
  match stripBy isIntSpace t with
  | '-' :: rest => (unsignedInt rest).map fun n => -(n : Int)
  | '+' :: rest => (unsignedInt rest).map fun n => (n : Int)
  | rest => (unsignedInt rest).map fun n => (n : Int)

example : toInt " -1_0\t".toList = some (-10) := by decide

/-! ## Hexadecimal digits -/

/-- `n` in `w` hexadecimal digits. -/
def hex : Nat → Nat → Text
  | 0, _ => []
  | w + 1, n => hex w (n / 16) ++ [Nat.digitChar (n % 16)]

theorem hex_length (w n : Nat) : (hex w n).length = w := by
  induction w generalizing n with
  | zero => rfl
  | succ w ih =>
      unfold hex
      rw [List.length_append, ih, List.length_singleton]

theorem digitChar_inj {m n : Nat} (hm : m < 16) (hn : n < 16)
    (h : Nat.digitChar m = Nat.digitChar n) : m = n := by
  have hall : ∀ i j : Fin 16, Nat.digitChar i = Nat.digitChar j → i = j := by decide
  exact congrArg Fin.val (hall ⟨m, hm⟩ ⟨n, hn⟩ h)

theorem hex_inj {w m n : Nat} (hm : m < 16 ^ w) (hn : n < 16 ^ w)
    (h : hex w m = hex w n) : m = n := by
  induction w generalizing m n with
  | zero =>
      rw [Nat.pow_zero] at hm hn
      omega
  | succ w ih =>
      unfold hex at h
      have hlength : (hex w (m / 16)).length = (hex w (n / 16)).length := by
        rw [hex_length, hex_length]
      obtain ⟨hhigh, hlow⟩ := List.append_inj h hlength
      have hdiv : m / 16 = n / 16 := by
        refine ih ?_ ?_ hhigh
        · rw [Nat.div_lt_iff_lt_mul (by decide), ← Nat.pow_succ]
          exact hm
        · rw [Nat.div_lt_iff_lt_mul (by decide), ← Nat.pow_succ]
          exact hn
      have hmod : m % 16 = n % 16 :=
        digitChar_inj (Nat.mod_lt _ (by decide)) (Nat.mod_lt _ (by decide))
          (List.cons.inj hlow).1
      rw [← Nat.div_add_mod m 16, hdiv, hmod, Nat.div_add_mod]

/-! ## Letters of ASCII -/

theorem isLower_val {c : Char} (h : c.isLower = true) :
    97 ≤ c.val.toNat ∧ c.val.toNat ≤ 122 := by
  have hbounds : (decide (c.val ≥ 'a'.val) && decide (c.val ≤ 'z'.val)) = true := h
  simp only [Bool.and_eq_true, decide_eq_true_eq, ge_iff_le, UInt32.le_iff_toNat_le] at hbounds
  exact hbounds

/-- A capital letter goes 32 up, and every other character stays. -/
theorem toLower_cases (c : Char) :
    c.toLower = c ∨ (65 ≤ c.toNat ∧ c.toNat ≤ 90) ∧ c.toLower.toNat = c.toNat + 32 := by
  by_cases h : c.val ≥ 'A'.val ∧ c.val ≤ 'Z'.val
  · right
    have hlower : c.toLower.toNat = (c.val + ('a'.val - 'A'.val)).toNat := by
      have heq : c.toLower = ⟨c.val + ('a'.val - 'A'.val), _⟩ := dif_pos h
      rw [heq]
      rfl
    simp only [ge_iff_le, UInt32.le_iff_toNat_le] at h
    have ha : UInt32.toNat 'A'.val = 65 := rfl
    have hz : UInt32.toNat 'Z'.val = 90 := rfl
    have hshift : UInt32.toNat ('a'.val - 'A'.val) = 32 := rfl
    have hc : c.toNat = c.val.toNat := rfl
    rw [UInt32.toNat_add, hshift] at hlower
    omega
  · exact Or.inl (dif_neg h)

end Text
