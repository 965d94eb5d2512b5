import Mathlib.Data.List.Sort
import Mathlib.Data.String.Basic
import Mathlib.Tactic.Common
import Remediator.Lib.Json
import Remediator.Lib.Text

set_option autoImplicit false

/-! # Canonical JSON

`json.dumps(value, sort_keys=True, separators=(",", ":"), ensure_ascii=True)`. What is printed can
be read in one way only: the printer is injective on values with sorted keys, so that two values
have one canonical text exactly when they differ in the order of keys at most.
-/

namespace Json

/-! ## Texts -/

/-- The escapes of two characters. -/
def shortEscapes : List (Char × Char) :=
  [('"', '"'), ('\\', '\\'), ('\n', 'n'), ('\r', 'r'), ('\t', 't'), (Char.ofNat 8, 'b'),
    (Char.ofNat 12, 'f')]

def shortEscape (c : Char) : Option Char := List.lookup c shortEscapes

/-- `\uXXXX`. -/
def unit (n : Nat) : Text := '\\' :: 'u' :: Text.hex 4 n

/-- A character, in ASCII: beyond the basic plane it is a pair of surrogates. -/
def escape (c : Char) : Text :=
  match shortEscape c with
  | some x => ['\\', x]
  | none =>
      if 32 ≤ c.toNat ∧ c.toNat ≤ 126 then [c]
      else if c.toNat < 65536 then unit c.toNat
      else unit (55296 + (c.toNat - 65536) / 1024) ++ unit (56320 + (c.toNat - 65536) % 1024)

/-- `py_encode_basestring_ascii`. -/
def quote (t : Text) : Text := '"' :: (t.flatMap escape ++ ['"'])

theorem mem_of_lookup {α β : Type} [BEq α] [LawfulBEq α] {key : α} {x : β} {table : List (α × β)}
    (h : List.lookup key table = some x) : (key, x) ∈ table := by
  obtain ⟨before, after, rfl, -⟩ := List.lookup_eq_some_iff.mp h
  exact List.mem_append_right _ List.mem_cons_self

theorem shortEscape_ne_u {c x : Char} (h : shortEscape c = some x) : x ≠ 'u' := by
  have hall : ∀ p ∈ shortEscapes, p.2 ≠ 'u' := by decide
  exact hall _ (mem_of_lookup h)

theorem shortEscape_inj {c d x : Char} (hc : shortEscape c = some x) (hd : shortEscape d = some x) :
    c = d := by
  have hall : ∀ p ∈ shortEscapes, ∀ q ∈ shortEscapes, p.2 = q.2 → p.1 = q.1 := by decide
  exact hall _ (mem_of_lookup hc) _ (mem_of_lookup hd) rfl

theorem shortEscape_backslash : shortEscape '\\' ≠ none := by decide

theorem shortEscape_quote : shortEscape '"' ≠ none := by decide

/-- A character is no surrogate. -/
theorem toNat_not_surrogate (c : Char) : c.toNat < 55296 ∨ 57343 < c.toNat ∧ c.toNat < 1114112 :=
  c.valid

theorem unit_append_inj {m n : Nat} {s t : Text} (hm : m < 65536) (hn : n < 65536)
    (h : unit m ++ s = unit n ++ t) : m = n ∧ s = t := by
  have h := (List.cons.inj (List.cons.inj h).2).2
  obtain ⟨hhex, hrest⟩ := List.append_inj h (by rw [Text.hex_length, Text.hex_length])
  exact ⟨Text.hex_inj hm hn hhex, hrest⟩

/-- How a character is escaped. -/
theorem escape_cases (c : Char) :
    (∃ x, shortEscape c = some x ∧ escape c = ['\\', x]) ∨
      (c ≠ '"' ∧ c ≠ '\\' ∧ escape c = [c]) ∨
      (c.toNat < 65536 ∧ escape c = unit c.toNat) ∨
        65536 ≤ c.toNat ∧ escape c = unit (55296 + (c.toNat - 65536) / 1024) ++
          unit (56320 + (c.toNat - 65536) % 1024) := by
  unfold escape
  cases hshort : shortEscape c with
  | some x => exact Or.inl ⟨x, rfl, rfl⟩
  | none =>
      right
      dsimp only
      split_ifs with hplain hunit
      · refine Or.inl ⟨?_, ?_, rfl⟩
        · rintro rfl
          exact shortEscape_quote hshort
        · rintro rfl
          exact shortEscape_backslash hshort
      · exact Or.inr (Or.inl ⟨hunit, rfl⟩)
      · exact Or.inr (Or.inr ⟨by omega, rfl⟩)

/-- An escape does not start with a quotation mark. -/
theorem escape_append_ne_quote {c : Char} {s t : Text} : escape c ++ s ≠ '"' :: t := by
  intro h
  rcases escape_cases c with ⟨x, -, hc⟩ | ⟨hquote, -, hc⟩ | ⟨-, hc⟩ | ⟨-, hc⟩
  all_goals
    rw [hc] at h
    have hhead := (List.cons.inj h).1
  · exact absurd hhead (by decide)
  · exact hquote hhead
  · exact absurd hhead (by decide)
  · exact absurd hhead (by decide)

/-- The escapes are a prefix code. -/
theorem escape_append_inj {c d : Char} {s t : Text} (h : escape c ++ s = escape d ++ t) :
    c = d ∧ s = t := by
  have hsc := toNat_not_surrogate c
  have hsd := toNat_not_surrogate d
  rcases escape_cases c with ⟨x, hx, hc⟩ | ⟨-, hcb, hc⟩ | ⟨hcn, hc⟩ | ⟨hcn, hc⟩ <;>
    rcases escape_cases d with ⟨y, hy, hd⟩ | ⟨-, hdb, hd⟩ | ⟨hdn, hd⟩ | ⟨hdn, hd⟩ <;>
    rw [hc, hd] at h
  · obtain ⟨rfl, hrest⟩ := List.cons.inj (List.cons.inj h).2
    exact ⟨shortEscape_inj hx hy, hrest⟩
  · exact absurd (List.cons.inj h).1.symm hdb
  · exact absurd (List.cons.inj (List.cons.inj h).2).1 (shortEscape_ne_u hx)
  · exact absurd (List.cons.inj (List.cons.inj h).2).1 (shortEscape_ne_u hx)
  · exact absurd (List.cons.inj h).1 hcb
  · exact List.cons.inj h
  · exact absurd (List.cons.inj h).1 hcb
  · exact absurd (List.cons.inj h).1 hcb
  · exact absurd (List.cons.inj (List.cons.inj h).2).1.symm (shortEscape_ne_u hy)
  · exact absurd (List.cons.inj h).1.symm hdb
  · obtain ⟨hnat, hrest⟩ := unit_append_inj hcn hdn h
    exact ⟨Char.toNat_inj.mp hnat, hrest⟩
  · -- the first half of a pair is a surrogate, which no character is
    rw [List.append_assoc] at h
    obtain ⟨hnat, -⟩ := unit_append_inj hcn (by omega) h
    omega
  · exact absurd (List.cons.inj (List.cons.inj h).2).1.symm (shortEscape_ne_u hy)
  · exact absurd (List.cons.inj h).1.symm hdb
  · rw [List.append_assoc] at h
    obtain ⟨hnat, -⟩ := unit_append_inj (by omega) hdn h
    omega
  · rw [List.append_assoc, List.append_assoc] at h
    obtain ⟨hhigh, h⟩ := unit_append_inj (by omega) (by omega) h
    obtain ⟨hlow, hrest⟩ := unit_append_inj (by omega) (by omega) h
    exact ⟨Char.toNat_inj.mp (by omega), hrest⟩

theorem quote_append_inj {a b s t : Text} (h : quote a ++ s = quote b ++ t) : a = b ∧ s = t := by
  unfold quote at h
  rw [List.cons_append, List.cons_append] at h
  replace h := (List.cons.inj h).2
  rw [List.append_assoc, List.append_assoc] at h
  induction a generalizing b with
  | nil =>
      cases b with
      | nil => exact ⟨rfl, (List.cons.inj h).2⟩
      | cons d b =>
          rw [List.flatMap_cons, List.append_assoc] at h
          exact absurd h.symm escape_append_ne_quote
  | cons c a ih =>
      cases b with
      | nil =>
          rw [List.flatMap_cons, List.append_assoc] at h
          exact absurd h escape_append_ne_quote
      | cons d b =>
          rw [List.flatMap_cons, List.flatMap_cons, List.append_assoc, List.append_assoc] at h
          obtain ⟨rfl, htail⟩ := escape_append_inj h
          obtain ⟨rfl, hrest⟩ := ih htail
          exact ⟨rfl, hrest⟩

/-! ## Numbers -/

/-- `int.__repr__`. -/
def intText : Int → Text
  | .ofNat n => Nat.toDigits 10 n
  | .negSucc n => '-' :: Nat.toDigits 10 (n + 1)

/-- What `float.__repr__` promises: the text names the float, and cannot be taken for that of an
integer. -/
structure FloatText (real : ℚ → Text) : Prop where
  inj : ∀ q r, real q = real r → q = r
  unsigned : ∀ q, real q ≠ "-0.0".toList
  chars : ∀ q, ∀ c ∈ real q, c.isDigit = true ∨ c = '+' ∨ c = '-' ∨ c = '.' ∨ c = 'e'
  fraction : ∀ q, '.' ∈ real q ∨ 'e' ∈ real q

def infinityText (negative : Bool) : Text :=
  if negative then "-Infinity".toList else "Infinity".toList

def nanText : Text := "NaN".toList

def negativeZeroText : Text := "-0.0".toList

/-- The text of a number. -/
def Number.print (real : ℚ → Text) : Number → Text
  | .int n => intText n
  | .finite q => real q
  | .negativeZero => negativeZeroText
  | .infinite negative => infinityText negative
  | .nan => nanText

theorem intText_chars {n : Int} {c : Char} (hc : c ∈ intText n) : c.isDigit = true ∨ c = '-' := by
  cases n with
  | ofNat n => exact Or.inl (Nat.isDigit_of_mem_toDigits (by decide) (by decide) hc)
  | negSucc n =>
      rcases List.mem_cons.mp hc with rfl | hc
      · exact Or.inr rfl
      · exact Or.inl (Nat.isDigit_of_mem_toDigits (by decide) (by decide) hc)

theorem toDigits_inj {m n : Nat} (h : Nat.toDigits 10 m = Nat.toDigits 10 n) : m = n := by
  rw [← Nat.ofDigitChars_ten_toDigits (n := m), h, Nat.ofDigitChars_ten_toDigits]

theorem minus_notMem_toDigits (n : Nat) : '-' ∉ Nat.toDigits 10 n := fun h =>
  absurd (Nat.isDigit_of_mem_toDigits (by decide) (by decide) h) (by decide)

theorem intText_inj {m n : Int} (h : intText m = intText n) : m = n := by
  cases m with
  | ofNat m =>
      cases n with
      | ofNat n => rw [toDigits_inj h]
      | negSucc n =>
          have hminus : '-' ∈ Nat.toDigits 10 m := by
            rw [show Nat.toDigits 10 m = _ from h]
            exact List.mem_cons_self
          exact absurd hminus (minus_notMem_toDigits m)
  | negSucc m =>
      cases n with
      | ofNat n =>
          have hminus : '-' ∈ Nat.toDigits 10 n := by
            rw [← show _ = Nat.toDigits 10 n from h]
            exact List.mem_cons_self
          exact absurd hminus (minus_notMem_toDigits n)
      | negSucc n =>
          have hdigits := toDigits_inj (List.cons.inj h).2
          rw [show m = n by omega]

section Print

variable {real : ℚ → Text}

/-- The characters of numbers. -/
def isNumberChar (c : Char) : Bool := c.isDigit || "+-.eInfityNa".toList.contains c

theorem Number.print_chars (hreal : FloatText real) {n : Number} {c : Char}
    (hc : c ∈ n.print real) : isNumberChar c = true := by
  have htable : ∀ d : Char, "+-.eInfityNa".toList.contains d = true → isNumberChar d = true := by
    intro d hd
    unfold isNumberChar
    rw [hd, Bool.or_true]
  have hdigit : ∀ d : Char, d.isDigit = true → isNumberChar d = true := by
    intro d hd
    unfold isNumberChar
    rw [hd, Bool.true_or]
  cases n with
  | int n =>
      rcases intText_chars hc with hd | rfl
      · exact hdigit c hd
      · decide
  | finite q =>
      rcases hreal.chars q c hc with hd | rfl | rfl | rfl | rfl
      · exact hdigit c hd
      · decide
      · decide
      · decide
      · decide
  | negativeZero =>
      have hall : negativeZeroText.all isNumberChar = true := rfl
      exact List.all_eq_true.mp hall c hc
  | infinite negative =>
      have hall : (infinityText negative).all isNumberChar = true := by cases negative <;> rfl
      exact List.all_eq_true.mp hall c hc
  | nan =>
      have hall : nanText.all isNumberChar = true := rfl
      exact List.all_eq_true.mp hall c hc

theorem Number.print_ne_nil (hreal : FloatText real) (n : Number) : n.print real ≠ [] := by
  cases n with
  | int n =>
      cases n with
      | ofNat n => exact Nat.toDigits_ne_nil
      | negSucc n => exact List.cons_ne_nil _ _
  | finite q =>
      intro h
      change real q = [] at h
      rcases hreal.fraction q with hq | hq <;> (rw [h] at hq; cases hq)
  | negativeZero => exact List.cons_ne_nil _ _
  | infinite negative => cases negative <;> exact List.cons_ne_nil _ _
  | nan => exact List.cons_ne_nil _ _

/-- Only a float has a point or an exponent. -/
theorem Number.no_fraction {n : Number} (hn : ∀ q, n ≠ .finite q) (hzero : n ≠ .negativeZero) :
    '.' ∉ n.print real ∧ 'e' ∉ n.print real := by
  cases n with
  | int n =>
      constructor <;>
      · intro h
        rcases intText_chars h with hd | hd <;> exact absurd hd (by decide)
  | finite q => exact absurd rfl (hn q)
  | negativeZero => exact absurd rfl hzero
  | infinite negative =>
      have hall : ∀ b, '.' ∉ infinityText b ∧ 'e' ∉ infinityText b := by decide
      exact hall negative
  | nan =>
      have hnan : '.' ∉ nanText ∧ 'e' ∉ nanText := by decide
      exact hnan

theorem Number.finite_print_ne (hreal : FloatText real) {q : ℚ} {n : Number}
    (hn : ∀ q, n ≠ .finite q) : real q ≠ n.print real := by
  intro h
  by_cases hzero : n = .negativeZero
  · rw [hzero] at h
    exact hreal.unsigned q h
  · have hfraction := hreal.fraction q
    rw [h] at hfraction
    rcases hfraction with hq | hq
    · exact (Number.no_fraction hn hzero).1 hq
    · exact (Number.no_fraction hn hzero).2 hq

theorem Number.negativeZero_print_ne (hreal : FloatText real) {n : Number}
    (hzero : n ≠ .negativeZero) : negativeZeroText ≠ n.print real := by
  intro h
  have hpoint : '.' ∈ negativeZeroText := by decide
  cases n with
  | finite q => exact hreal.unsigned q h.symm
  | _ =>
      rw [h] at hpoint
      exact (Number.no_fraction (fun _ hn => by cases hn) hzero).1 hpoint

/-- An integer has no letters. -/
theorem intText_ne_word (n : Int) : (∀ b, intText n ≠ infinityText b) ∧ intText n ≠ nanText := by
  have hletters : ∀ c ∈ intText n, c ≠ 'n' ∧ c ≠ 'N' := by
    intro c hc
    constructor <;>
    · rintro rfl
      rcases intText_chars hc with hd | hd <;> exact absurd hd (by decide)
  have hinfinity : ∀ b, 'n' ∈ infinityText b := by decide
  have hnan : 'N' ∈ nanText := by decide
  constructor
  · intro b h
    have hn := hinfinity b
    rw [← h] at hn
    exact (hletters _ hn).1 rfl
  · intro h
    rw [← h] at hnan
    exact (hletters _ hnan).2 rfl

theorem Number.print_inj (hreal : FloatText real) {m n : Number}
    (h : m.print real = n.print real) : m = n := by
  have hinfinity : ∀ a b, infinityText a = infinityText b → a = b := by decide
  have hnan : ∀ b, infinityText b ≠ nanText := by decide
  cases m with
  | int m =>
      cases n with
      | int n => rw [intText_inj h]
      | finite q => exact absurd h.symm (Number.finite_print_ne hreal nofun)
      | negativeZero => exact absurd h.symm (Number.negativeZero_print_ne hreal nofun)
      | infinite negative => exact absurd h ((intText_ne_word m).1 negative)
      | nan => exact absurd h (intText_ne_word m).2
  | finite q =>
      cases n with
      | finite r => rw [hreal.inj q r h]
      | _ => exact absurd h (Number.finite_print_ne hreal nofun)
  | negativeZero =>
      cases n with
      | negativeZero => rfl
      | _ => exact absurd h (Number.negativeZero_print_ne hreal nofun)
  | infinite negative =>
      cases n with
      | int n => exact absurd h.symm ((intText_ne_word n).1 negative)
      | finite q => exact absurd h.symm (Number.finite_print_ne hreal nofun)
      | negativeZero => exact absurd h.symm (Number.negativeZero_print_ne hreal nofun)
      | infinite negative' => rw [hinfinity negative negative' h]
      | nan => exact absurd h (hnan negative)
  | nan =>
      cases n with
      | int n => exact absurd h.symm (intText_ne_word n).2
      | finite q => exact absurd h.symm (Number.finite_print_ne hreal nofun)
      | negativeZero => exact absurd h.symm (Number.negativeZero_print_ne hreal nofun)
      | infinite negative => exact absurd h.symm (hnan negative)
      | nan => rfl

/-! ## Values -/

mutual

/-- The text of a value, with the keys in their order. -/
def Value.print (real : ℚ → Text) : Value → Text
  | .null => "null".toList
  | .bool true => "true".toList
  | .bool false => "false".toList
  | .number n => n.print real
  | .str s => quote s.toList
  | .list [] => "[]".toList
  | .list (x :: xs) => '[' :: (x.print real ++ printRest real xs)
  | .dict [] => "\x7b\x7d".toList
  | .dict ((key, x) :: fields) =>
      '\x7b' :: (quote key.toList ++ ':' :: (x.print real ++ printFields real fields))

/-- The items after the first. -/
def printRest (real : ℚ → Text) : List Value → Text
  | [] => [']']
  | x :: xs => ',' :: (x.print real ++ printRest real xs)

/-- The fields after the first. -/
def printFields (real : ℚ → Text) : List (String × Value) → Text
  | [] => ['\x7d']
  | (key, x) :: fields =>
      ',' :: (quote key.toList ++ ':' :: (x.print real ++ printFields real fields))

end

/-- What may follow a value: the end, or one of the marks between values. -/
def Ends (t : Text) : Prop := ∀ c rest, t = c :: rest → c = ',' ∨ c = ']' ∨ c = '\x7d'

theorem ends_printRest (xs : List Value) (t : Text) : Ends (printRest real xs ++ t) := by
  intro c rest h
  cases xs with
  | nil => exact Or.inr (Or.inl (List.cons.inj h).1.symm)
  | cons x xs => exact Or.inl (List.cons.inj h).1.symm

theorem ends_printFields (fields : List (String × Value)) (t : Text) :
    Ends (printFields real fields ++ t) := by
  intro c rest h
  cases fields with
  | nil => exact Or.inr (Or.inr (List.cons.inj h).1.symm)
  | cons field fields => exact Or.inl (List.cons.inj h).1.symm

theorem Ends.not_numberChar {t : Text} (h : Ends t) {c : Char} {rest : Text} (ht : t = c :: rest) :
    isNumberChar c = false := by
  rcases h c rest ht with rfl | rfl | rfl <;> decide

/-- Texts of number characters before an end are told apart. -/
theorem append_inj_of_ends {a b s t : Text} (ha : ∀ c ∈ a, isNumberChar c = true)
    (hb : ∀ c ∈ b, isNumberChar c = true) (hs : Ends s) (ht : Ends t) (h : a ++ s = b ++ t) :
    a = b ∧ s = t := by
  induction a generalizing b with
  | nil =>
      cases b with
      | nil => exact ⟨rfl, h⟩
      | cons d b =>
          have hd := hs.not_numberChar h
          rw [hb d List.mem_cons_self] at hd
          cases hd
  | cons c a ih =>
      cases b with
      | nil =>
          have hc := ht.not_numberChar h.symm
          rw [ha c List.mem_cons_self] at hc
          cases hc
      | cons d b =>
          obtain ⟨hcd, h⟩ := List.cons.inj h
          obtain ⟨hab, hst⟩ := ih (fun c hc => ha c (List.mem_cons_of_mem _ hc))
            (fun c hc => hb c (List.mem_cons_of_mem _ hc)) h
          exact ⟨by rw [hcd, hab], hst⟩

/-- The characters that numbers start with. -/
def isNumberStart (c : Char) : Bool := c.isDigit || "+-.eIN".toList.contains c

theorem Number.print_start (hreal : FloatText real) (n : Number) :
    ∃ c rest, n.print real = c :: rest ∧ isNumberStart c = true := by
  have hstart : ∀ d : Char, d.isDigit = true ∨ d ∈ "+-.eIN".toList → isNumberStart d = true := by
    intro d hd
    unfold isNumberStart
    rw [Bool.or_eq_true, List.contains_iff_mem]
    exact hd
  have hword : (∀ b, isNumberStart (infinityText b).head! = true) ∧
      isNumberStart nanText.head! = true := by decide
  cases htext : n.print real with
  | nil => exact absurd htext (Number.print_ne_nil hreal n)
  | cons c rest =>
      have hc : c ∈ n.print real := by
        rw [htext]
        exact List.mem_cons_self
      refine ⟨c, rest, rfl, ?_⟩
      cases n with
      | int n =>
          rcases intText_chars hc with hd | rfl
          · exact hstart c (Or.inl hd)
          · decide
      | finite q =>
          rcases hreal.chars q c hc with hd | rfl | rfl | rfl | rfl
          · exact hstart c (Or.inl hd)
          · decide
          · decide
          · decide
          · decide
      | negativeZero =>
          rw [show c = '-' from (List.cons.inj htext).1.symm]
          decide
      | infinite negative =>
          have hhead := hword.1 negative
          rw [show infinityText negative = c :: rest from htext] at hhead
          exact hhead
      | nan =>
          have hhead := hword.2
          rw [show nanText = c :: rest from htext] at hhead
          exact hhead

/-- The kind of a value, as its first character shows it. -/
inductive Shape
  | number
  | null
  | true
  | false
  | str
  | list
  | dict
  | other
  deriving DecidableEq

def shape (c : Char) : Shape :=
  if isNumberStart c then .number
  else if c = 'n' then .null
  else if c = 't' then .true
  else if c = 'f' then .false
  else if c = '"' then .str
  else if c = '[' then .list
  else if c = '\x7b' then .dict
  else .other

def Value.shape : Value → Shape
  | .number _ => .number
  | .null => .null
  | .bool .true => .true
  | .bool .false => .false
  | .str _ => .str
  | .list _ => .list
  | .dict _ => .dict

theorem Value.print_first (hreal : FloatText real) (v : Value) :
    ∃ c rest, v.print real = c :: rest ∧ Json.shape c = v.shape := by
  cases v with
  | null => exact ⟨_, _, rfl, (by decide : Json.shape 'n' = .null)⟩
  | bool b =>
      cases b with
      | false => exact ⟨_, _, rfl, (by decide : Json.shape 'f' = .false)⟩
      | true => exact ⟨_, _, rfl, (by decide : Json.shape 't' = .true)⟩
  | number n =>
      obtain ⟨c, rest, htext, hc⟩ := Number.print_start hreal n
      refine ⟨c, rest, htext, ?_⟩
      unfold Json.shape
      rw [if_pos hc]
      rfl
  | str s => exact ⟨_, _, rfl, (by decide : Json.shape '"' = .str)⟩
  | list xs => cases xs <;> exact ⟨_, _, rfl, (by decide : Json.shape '[' = .list)⟩
  | dict fields => cases fields <;> exact ⟨_, _, rfl, (by decide : Json.shape '\x7b' = .dict)⟩

theorem Value.shape_eq (hreal : FloatText real) {v w : Value} {s t : Text}
    (h : v.print real ++ s = w.print real ++ t) : v.shape = w.shape := by
  obtain ⟨c, rest, hv, hc⟩ := v.print_first hreal
  obtain ⟨d, rest', hw, hd⟩ := w.print_first hreal
  rw [hv, hw] at h
  rw [← hc, ← hd, (List.cons.inj h).1]

theorem Value.print_append_ne (hreal : FloatText real) (v : Value) (s t : Text) :
    v.print real ++ s ≠ ']' :: t := by
  intro h
  obtain ⟨c, rest, hv, hc⟩ := v.print_first hreal
  rw [hv] at h
  rw [(List.cons.inj h).1, (by decide : Json.shape ']' = .other)] at hc
  cases v with
  | bool b => cases b <;> cases hc
  | _ => cases hc

mutual

/-- A text that starts with a value starts with one value only. -/
theorem Value.print_inj (hreal : FloatText real) (v w : Value) {s t : Text} (hs : Ends s)
    (ht : Ends t) (h : v.print real ++ s = w.print real ++ t) : v = w ∧ s = t := by
  have hshape := Value.shape_eq hreal h
  cases v with
  | null =>
      cases w with
      | null => exact ⟨rfl, List.append_cancel_left h⟩
      | bool b => cases b <;> cases hshape
      | _ => cases hshape
  | bool b =>
      cases w with
      | bool b' =>
          cases b <;> cases b' <;>
            first
            | exact ⟨rfl, List.append_cancel_left h⟩
            | cases hshape
      | _ => cases b <;> cases hshape
  | number m =>
      cases w with
      | number n =>
          obtain ⟨htext, hst⟩ := append_inj_of_ends (fun c => Number.print_chars hreal)
            (fun c => Number.print_chars hreal) hs ht h
          exact ⟨by rw [Number.print_inj hreal htext], hst⟩
      | bool b => cases b <;> cases hshape
      | _ => cases hshape
  | str a =>
      cases w with
      | str b =>
          obtain ⟨htext, hst⟩ := quote_append_inj h
          exact ⟨by rw [String.toList_inj.mp htext], hst⟩
      | bool b => cases b <;> cases hshape
      | _ => cases hshape
  | list xs =>
      cases w with
      | list ys =>
          cases xs with
          | nil =>
              cases ys with
              | nil => exact ⟨rfl, List.append_cancel_left h⟩
              | cons y ys =>
                  have hbody := (List.cons.inj h).2.symm
                  rw [List.append_eq, List.append_assoc] at hbody
                  exact absurd hbody (y.print_append_ne hreal _ _)
          | cons x xs =>
              cases ys with
              | nil =>
                  have hbody := (List.cons.inj h).2
                  rw [List.append_eq, List.append_assoc] at hbody
                  exact absurd hbody (x.print_append_ne hreal _ _)
              | cons y ys =>
                  have hrest : printRest real (x :: xs) ++ s = printRest real (y :: ys) ++ t :=
                    congrArg (',' :: ·) (List.cons.inj h).2
                  obtain ⟨hxs, hst⟩ := printRest_inj hreal (x :: xs) (y :: ys) hrest
                  exact ⟨by rw [hxs], hst⟩
      | bool b => cases b <;> cases hshape
      | _ => cases hshape
  | dict fields =>
      cases w with
      | dict fields' =>
          cases fields with
          | nil =>
              cases fields' with
              | nil => exact ⟨rfl, List.append_cancel_left h⟩
              | cons field fields' =>
                  exact absurd (List.cons.inj (List.cons.inj h).2).1 (by decide)
          | cons field fields =>
              cases fields' with
              | nil => exact absurd (List.cons.inj (List.cons.inj h).2).1 (by decide)
              | cons field' fields' =>
                  have hrest : printFields real (field :: fields) ++ s =
                      printFields real (field' :: fields') ++ t :=
                    congrArg (',' :: ·) (List.cons.inj h).2
                  obtain ⟨hfields, hst⟩ := printFields_inj hreal (field :: fields)
                    (field' :: fields') hrest
                  exact ⟨by rw [hfields], hst⟩
      | bool b => cases b <;> cases hshape
      | _ => cases hshape

theorem printRest_inj (hreal : FloatText real) (xs ys : List Value) {s t : Text}
    (h : printRest real xs ++ s = printRest real ys ++ t) : xs = ys ∧ s = t := by
  cases xs with
  | nil =>
      cases ys with
      | nil => exact ⟨rfl, List.append_cancel_left h⟩
      | cons y ys => exact absurd (List.cons.inj h).1 (by decide)
  | cons x xs =>
      cases ys with
      | nil => exact absurd (List.cons.inj h).1 (by decide)
      | cons y ys =>
          have hbody := (List.cons.inj h).2
          rw [List.append_eq, List.append_eq, List.append_assoc, List.append_assoc] at hbody
          obtain ⟨hxy, hrest⟩ := Value.print_inj hreal x y (ends_printRest xs s)
            (ends_printRest ys t) hbody
          obtain ⟨hxs, hst⟩ := printRest_inj hreal xs ys hrest
          exact ⟨by rw [hxy, hxs], hst⟩

theorem printFields_inj (hreal : FloatText real) (fields fields' : List (String × Value))
    {s t : Text} (h : printFields real fields ++ s = printFields real fields' ++ t) :
    fields = fields' ∧ s = t := by
  cases fields with
  | nil =>
      cases fields' with
      | nil => exact ⟨rfl, List.append_cancel_left h⟩
      | cons field' fields' => exact absurd (List.cons.inj h).1 (by decide)
  | cons field fields =>
      cases fields' with
      | nil => exact absurd (List.cons.inj h).1 (by decide)
      | cons field' fields' =>
          obtain ⟨key, x⟩ := field
          obtain ⟨key', x'⟩ := field'
          have hbody := (List.cons.inj h).2
          rw [List.append_eq, List.append_eq, List.append_assoc, List.append_assoc] at hbody
          obtain ⟨hkey, hbody⟩ := quote_append_inj hbody
          replace hbody := (List.cons.inj hbody).2
          rw [List.append_eq, List.append_eq, List.append_assoc, List.append_assoc] at hbody
          obtain ⟨hx, hrest⟩ := Value.print_inj hreal x x' (ends_printFields fields s)
            (ends_printFields fields' t) hbody
          obtain ⟨hfields, hst⟩ := printFields_inj hreal fields fields' hrest
          exact ⟨by rw [String.toList_inj.mp hkey, hx, hfields], hst⟩

end

end Print

/-! ## The order of keys -/

/-- `sorted(items)`: no two items have one key, so that the keys decide. -/
def sortItems (fields : List (String × Value)) : List (String × Value) :=
  fields.insertionSort fun a b => a.1 ≤ b.1

mutual

/-- The value with all its keys in order. -/
def Value.sortKeys : Value → Value
  | .list xs => .list (sortList xs)
  | .dict fields => .dict (sortItems (sortFields fields))
  | v => v

def sortList : List Value → List Value
  | [] => []
  | x :: xs => x.sortKeys :: sortList xs

def sortFields : List (String × Value) → List (String × Value)
  | [] => []
  | (key, x) :: fields => (key, x.sortKeys) :: sortFields fields

end

/-- `json.dumps`, with sorted keys. -/
def Value.canonical (real : ℚ → Text) (v : Value) : Text := v.sortKeys.print real

/-- Two values have one canonical text exactly when they are the same up to the order of keys. -/
theorem canonical_eq_iff {real : ℚ → Text} (hreal : FloatText real) {v w : Value} :
    v.canonical real = w.canonical real ↔ v.sortKeys = w.sortKeys := by
  constructor
  · intro h
    have hend : Ends [] := nofun
    refine (Value.print_inj hreal v.sortKeys w.sortKeys hend hend ?_).1
    rw [List.append_nil, List.append_nil]
    exact h
  · intro h
    unfold Value.canonical
    rw [h]

theorem sortList_eq (xs : List Value) : sortList xs = xs.map Value.sortKeys := by
  induction xs with
  | nil => rfl
  | cons x xs ih =>
      unfold sortList
      rw [ih, List.map_cons]

theorem sortFields_eq (fields : List (String × Value)) :
    sortFields fields = fields.map fun field => (field.1, field.2.sortKeys) := by
  induction fields with
  | nil => rfl
  | cons field fields ih =>
      unfold sortFields
      rw [ih, List.map_cons]

/-- No key twice. -/
def UniqueKeys (fields : List (String × Value)) : Prop := (fields.map Prod.fst).Nodup

theorem mem_iff_lookup {fields : List (String × Value)} (h : UniqueKeys fields) {key : String}
    {x : Value} : (key, x) ∈ fields ↔ List.lookup key fields = some x := by
  refine ⟨fun hmem => ?_, mem_of_lookup⟩
  induction fields with
  | nil => cases hmem
  | cons field fields ih =>
      obtain ⟨key', x'⟩ := field
      obtain ⟨hnot, hrest⟩ := List.nodup_cons.mp h
      rw [List.lookup_cons]
      rcases List.mem_cons.mp hmem with heq | htail
      · rw [(Prod.mk.inj heq).1, (Prod.mk.inj heq).2, beq_self_eq_true]
      · have hne : key ≠ key' := by
          rintro rfl
          exact hnot (List.mem_map.mpr ⟨_, htail, rfl⟩)
        rw [beq_false_of_ne hne]
        exact ih hrest htail

theorem lookup_sortFields (fields : List (String × Value)) (key : String) :
    List.lookup key (sortFields fields) = (List.lookup key fields).map Value.sortKeys := by
  induction fields with
  | nil => rfl
  | cons field fields ih =>
      obtain ⟨key', x⟩ := field
      unfold sortFields
      rw [List.lookup_cons, List.lookup_cons, ih]
      cases key == key' <;> rfl

theorem uniqueKeys_sortFields {fields : List (String × Value)} (h : UniqueKeys fields) :
    UniqueKeys (sortFields fields) := by
  unfold UniqueKeys
  rw [sortFields_eq, List.map_map]
  exact h

theorem perm_sortItems (fields : List (String × Value)) : (sortItems fields).Perm fields :=
  List.perm_insertionSort _ fields

/-- Lists of fields without a key twice are sorted to one list exactly when they are permutations
of each other. -/
theorem sortItems_eq_iff {a b : List (String × Value)} (ha : UniqueKeys a) :
    sortItems a = sortItems b ↔ a.Perm b := by
  constructor
  · intro h
    exact (perm_sortItems a).symm.trans (h ▸ perm_sortItems b)
  · intro h
    have hsorted : ∀ fields : List (String × Value),
        (sortItems fields).Pairwise fun p q => p.1 ≤ q.1 := fun fields =>
      List.pairwise_insertionSort _ fields
    have hperm : (sortItems a).Perm (sortItems b) :=
      (perm_sortItems a).trans (h.trans (perm_sortItems b).symm)
    refine hperm.eq_of_pairwise ?_ (hsorted a) (hsorted b)
    intro p q hp hq hle hge
    have hp' : p ∈ a := (perm_sortItems a).mem_iff.mp hp
    have hq' : q ∈ a := h.mem_iff.mpr ((perm_sortItems b).mem_iff.mp hq)
    have hkey : p.1 = q.1 := le_antisymm hle hge
    refine Prod.ext hkey ?_
    have hpx := (mem_iff_lookup ha).mp (show (p.1, p.2) ∈ a from hp')
    have hqx := (mem_iff_lookup ha).mp (show (q.1, q.2) ∈ a from hq')
    rw [← hkey, hpx] at hqx
    exact Option.some.inj hqx

/-- Two dictionaries are the same up to the order of keys exactly when they have the same fields,
up to the order of keys in those. -/
theorem sortKeys_dict_iff {a b : List (String × Value)} (ha : UniqueKeys a) (hb : UniqueKeys b) :
    (Value.dict a).sortKeys = (Value.dict b).sortKeys ↔
      ∀ key, (List.lookup key a).map Value.sortKeys = (List.lookup key b).map Value.sortKeys := by
  have ha' := uniqueKeys_sortFields ha
  have hb' := uniqueKeys_sortFields hb
  unfold Value.sortKeys
  rw [Value.dict.injEq, sortItems_eq_iff ha']
  simp only [← lookup_sortFields]
  constructor
  · intro h key
    refine Option.ext fun x => ?_
    rw [← Option.mem_def, ← Option.mem_def, Option.mem_def, Option.mem_def, ← mem_iff_lookup ha',
      ← mem_iff_lookup hb']
    exact h.mem_iff
  · intro h
    have hnodup : ∀ fields : List (String × Value), UniqueKeys fields → fields.Nodup :=
      fun fields hfields => List.Nodup.of_map Prod.fst hfields
    refine (List.perm_ext_iff_of_nodup (hnodup _ ha') (hnodup _ hb')).mpr ?_
    rintro ⟨key, x⟩
    rw [mem_iff_lookup ha', mem_iff_lookup hb', h key]

/-! ## Decoded values -/

mutual

/-- No dictionary in the value has a key twice, as in whatever is decoded. -/
def Value.Distinct : Value → Prop
  | .list xs => DistinctList xs
  | .dict fields => UniqueKeys fields ∧ DistinctFields fields
  | _ => True

def DistinctList : List Value → Prop
  | [] => True
  | x :: xs => x.Distinct ∧ DistinctList xs

def DistinctFields : List (String × Value) → Prop
  | [] => True
  | (_, x) :: fields => x.Distinct ∧ DistinctFields fields

end

theorem DistinctList.of_mem {xs : List Value} (h : DistinctList xs) {x : Value} (hx : x ∈ xs) :
    x.Distinct := by
  induction xs with
  | nil => cases hx
  | cons y ys ih =>
      rcases List.mem_cons.mp hx with rfl | hx
      · exact h.1
      · exact ih h.2 hx

/-- The same value, up to the order of keys. -/
def Value.Same (v w : Value) : Prop := v.sortKeys = w.sortKeys

theorem same_dict_iff {a b : List (String × Value)} (ha : UniqueKeys a) (hb : UniqueKeys b) :
    (Value.dict a).Same (.dict b) ↔
      ∀ key, (List.lookup key a).map Value.sortKeys = (List.lookup key b).map Value.sortKeys :=
  sortKeys_dict_iff ha hb

/-- The keys of a dictionary may be put in any order. -/
theorem same_of_perm {a b : List (String × Value)} (ha : UniqueKeys a) (h : a.Perm b) :
    (Value.dict a).Same (.dict b) := by
  have hperm : (sortFields a).Perm (sortFields b) := by
    rw [sortFields_eq, sortFields_eq]
    exact h.map _
  exact congrArg Value.dict ((sortItems_eq_iff (uniqueKeys_sortFields ha)).mpr hperm)

theorem distinctFields_iff {fields : List (String × Value)} :
    DistinctFields fields ↔ ∀ field ∈ fields, field.2.Distinct := by
  induction fields with
  | nil => exact ⟨fun _ => nofun, fun _ => trivial⟩
  | cons field fields ih =>
      rw [List.forall_mem_cons, ← ih]
      exact Iff.rfl

theorem DistinctFields.of_lookup {fields : List (String × Value)} (h : DistinctFields fields)
    {key : String} {x : Value} (hx : List.lookup key fields = some x) : x.Distinct :=
  distinctFields_iff.mp h _ (mem_of_lookup hx)

theorem distinct_of_perm {a b : List (String × Value)} (h : a.Perm b)
    (ha : (Value.dict a).Distinct) : (Value.dict b).Distinct := by
  refine ⟨(h.map Prod.fst).nodup_iff.mp ha.1, distinctFields_iff.mpr fun field hfield => ?_⟩
  exact distinctFields_iff.mp ha.2 field (h.mem_iff.mpr hfield)

theorem sortKeys_eq_str {v : Value} {s : String} : v.sortKeys = .str s ↔ v = .str s := by
  cases v with
  | list xs => exact ⟨nofun, nofun⟩
  | dict fields => exact ⟨nofun, nofun⟩
  | _ => exact Iff.rfl

theorem sortKeys_eq_number {v : Value} {n : Number} : v.sortKeys = .number n ↔ v = .number n := by
  cases v with
  | list xs => exact ⟨nofun, nofun⟩
  | dict fields => exact ⟨nofun, nofun⟩
  | _ => exact Iff.rfl

theorem sortKeys_eq_bool {v : Value} {b : Bool} : v.sortKeys = .bool b ↔ v = .bool b := by
  cases v with
  | list xs => exact ⟨nofun, nofun⟩
  | dict fields => exact ⟨nofun, nofun⟩
  | _ => exact Iff.rfl

theorem sortKeys_eq_null {v : Value} : v.sortKeys = .null ↔ v = .null := by
  cases v with
  | list xs => exact ⟨nofun, nofun⟩
  | dict fields => exact ⟨nofun, nofun⟩
  | _ => exact Iff.rfl

theorem sortList_eq_texts {xs : List Value} {ts : List String} :
    sortList xs = ts.map .str ↔ xs = ts.map .str := by
  induction xs generalizing ts with
  | nil => exact Iff.rfl
  | cons x xs ih =>
      cases ts with
      | nil => exact ⟨nofun, nofun⟩
      | cons t ts =>
          unfold sortList
          rw [List.map_cons, List.cons.injEq, List.cons.injEq, sortKeys_eq_str, ih]

theorem sortKeys_eq_texts {v : Value} {ts : List String} :
    v.sortKeys = .list (ts.map .str) ↔ v = .list (ts.map .str) := by
  cases v with
  | list xs =>
      unfold Value.sortKeys
      rw [Value.list.injEq, Value.list.injEq, sortList_eq_texts]
  | dict fields => exact ⟨nofun, nofun⟩
  | _ => exact Iff.rfl

end Json
