import Mathlib.Data.Int.Log
import Mathlib.Data.Rat.Floor
import Mathlib.Tactic.Linarith
import Mathlib.Tactic.NormNum
import Mathlib.Tactic.Positivity
import Mathlib.Tactic.Ring

set_option autoImplicit false

/-! # Floating-point numbers of 64 bits

The finite numbers as rationals, and rounding to the nearest of them, a tie to the even one.
Rounding knows no largest number here: what happens from `2 ^ 1024` on is up to the operation.
-/

namespace Binary64

/-- A number with 53 bits behind its first one. -/
def IsFloat (q : ℚ) : Prop := ∃ m e : ℤ, |m| < 2 ^ 53 ∧ -1074 ≤ e ∧ q = m * 2 ^ e

theorem isFloat_intCast {n : ℤ} (h : |n| < 2 ^ 53) : IsFloat n :=
  ⟨n, 0, h, by norm_num, by simp⟩

theorem isFloat_two_pow (k : ℕ) : IsFloat (2 ^ k) :=
  ⟨1, k, by norm_num, by omega, by simp⟩

/-! ## The nearest integer -/

/-- The nearest integer; of two of them the even one. -/
def roundEven (q : ℚ) : ℤ :=
  if q - ⌊q⌋ < 1 / 2 then ⌊q⌋
  else if 1 / 2 < q - ⌊q⌋ then ⌊q⌋ + 1
  else if ⌊q⌋ % 2 = 0 then ⌊q⌋
  else ⌊q⌋ + 1

theorem roundEven_intCast (n : ℤ) : roundEven n = n := by
  unfold roundEven
  rw [Int.floor_intCast, if_pos (by norm_num)]

theorem roundEven_mem (q : ℚ) : roundEven q = ⌊q⌋ ∨ roundEven q = ⌊q⌋ + 1 := by
  unfold roundEven
  split_ifs
  · exact Or.inl rfl
  · exact Or.inr rfl
  · exact Or.inl rfl
  · exact Or.inr rfl

theorem le_roundEven {q : ℚ} {n : ℤ} (h : (n : ℚ) ≤ q) : n ≤ roundEven q := by
  have hfloor : n ≤ ⌊q⌋ := Int.le_floor.mpr h
  rcases roundEven_mem q with hround | hround <;> omega

theorem roundEven_le {q : ℚ} {n : ℤ} (h : q ≤ (n : ℚ)) : roundEven q ≤ n := by
  by_cases hq : q = n
  · rw [hq, roundEven_intCast]
  · have hlt : ⌊q⌋ < n := Int.floor_lt.mpr (lt_of_le_of_ne h hq)
    rcases roundEven_mem q with hround | hround <;> omega

/-! ## Rounding -/

/-- The exponent of the last bit of a number. -/
def place (q : ℚ) : ℤ := max (Int.log 2 q - 52) (-1074)

/-- The float nearest to a number that is not negative. -/
def roundMag (q : ℚ) : ℚ := roundEven (q / 2 ^ place q) * 2 ^ place q

/-- The float nearest to a number. -/
def round (q : ℚ) : ℚ := if 0 ≤ q then roundMag q else -roundMag (-q)

theorem two_zpow_pos (e : ℤ) : (0 : ℚ) < 2 ^ e := zpow_pos (by norm_num) e

theorem roundMag_nonneg {q : ℚ} (h : 0 ≤ q) : 0 ≤ roundMag q := by
  have hround : 0 ≤ roundEven (q / 2 ^ place q) := by
    refine le_roundEven ?_
    rw [Int.cast_zero]
    exact div_nonneg h (two_zpow_pos _).le
  exact mul_nonneg (by exact_mod_cast hround) (two_zpow_pos _).le

theorem abs_round (q : ℚ) : |round q| = roundMag |q| := by
  unfold round
  split
  · next h => rw [abs_of_nonneg h, abs_of_nonneg (roundMag_nonneg h)]
  · next h =>
      have hneg : 0 ≤ -q := by linarith
      rw [abs_neg, abs_of_nonneg (roundMag_nonneg hneg), abs_of_nonpos (by linarith)]

/-- A multiple of the last bit of `q` that is not above `q`, is not above `q` rounded. -/
theorem multiple_le_roundMag {q : ℚ} {k : ℤ} (h : k * 2 ^ place q ≤ q) :
    k * 2 ^ place q ≤ roundMag q := by
  have hk : k ≤ roundEven (q / 2 ^ place q) :=
    le_roundEven ((le_div_iff₀ (two_zpow_pos _)).mpr h)
  exact mul_le_mul_of_nonneg_right (by exact_mod_cast hk) (two_zpow_pos _).le

theorem roundMag_le_multiple {q : ℚ} {k : ℤ} (h : q ≤ k * 2 ^ place q) :
    roundMag q ≤ k * 2 ^ place q := by
  have hk : roundEven (q / 2 ^ place q) ≤ k :=
    roundEven_le ((div_le_iff₀ (two_zpow_pos _)).mpr h)
  exact mul_le_mul_of_nonneg_right (by exact_mod_cast hk) (two_zpow_pos _).le

/-- A number whose last bit is not below that of `q` is a multiple of it. -/
theorem exists_multiple {q x : ℚ} {m e : ℤ} (hx : x = m * 2 ^ e) (he : place q ≤ e) :
    ∃ k : ℤ, x = k * 2 ^ place q := by
  obtain ⟨d, hd⟩ := Int.eq_ofNat_of_zero_le (Int.sub_nonneg_of_le he)
  refine ⟨m * 2 ^ d, ?_⟩
  have hsum : e = d + place q := by omega
  rw [hx, hsum, zpow_add₀ (by norm_num : (2 : ℚ) ≠ 0), zpow_natCast]
  push_cast
  ring

/-- The last bit of a float is not above its exponent. -/
theorem place_le {x : ℚ} {m e : ℤ} (hpos : 0 < x) (hm : |m| < 2 ^ 53) (he : -1074 ≤ e)
    (hx : x = m * 2 ^ e) : place x ≤ e := by
  have hlt : x < ((2 : ℕ) : ℚ) ^ (53 + e) := by
    have hm' : (m : ℚ) < 2 ^ (53 : ℤ) := by exact_mod_cast (abs_lt.mp hm).2
    rw [hx]
    push_cast
    rw [zpow_add₀ (by norm_num : (2 : ℚ) ≠ 0)]
    exact mul_lt_mul_of_pos_right hm' (two_zpow_pos e)
  have hlog : Int.log 2 x < 53 + e := (Int.lt_zpow_iff_log_lt (by norm_num) hpos).mp hlt
  unfold place
  omega

/-- **A float is rounded to itself.** -/
theorem roundMag_of_isFloat {x : ℚ} (hpos : 0 < x) (h : IsFloat x) : roundMag x = x := by
  obtain ⟨m, e, hm, he, hx⟩ := h
  obtain ⟨k, hk⟩ := exists_multiple hx (place_le hpos hm he hx)
  apply le_antisymm
  · calc roundMag x ≤ k * 2 ^ place x := roundMag_le_multiple hk.le
      _ = x := hk.symm
  · calc x = k * 2 ^ place x := hk
      _ ≤ roundMag x := multiple_le_roundMag hk.ge

/-- **Rounding stays on its side of a float.** -/
theorem le_roundMag {x q : ℚ} (hpos : 0 < x) (h : IsFloat x) (hle : x ≤ q) : x ≤ roundMag q := by
  obtain ⟨m, e, hm, he, hx⟩ := h
  have hq : 0 < q := lt_of_lt_of_le hpos hle
  by_cases hplace : place q ≤ e
  · obtain ⟨k, hk⟩ := exists_multiple hx hplace
    rw [hk] at hle ⊢
    exact multiple_le_roundMag hle
  · -- `x` is below the power of two at which the numbers with the last bit of `q` begin
    have hnormal : place q = Int.log 2 q - 52 := by
      unfold place at hplace ⊢
      omega
    have hpower : (2 : ℚ) ^ Int.log 2 q = ((2 ^ 52 : ℤ) : ℚ) * 2 ^ place q := by
      rw [hnormal, zpow_sub₀ (by norm_num : (2 : ℚ) ≠ 0)]
      push_cast
      field_simp
    have hbelow : (2 : ℚ) ^ Int.log 2 q ≤ q := by
      exact_mod_cast Int.zpow_log_le_self (by norm_num : 1 < 2) hq
    have hxpower : x ≤ (2 : ℚ) ^ Int.log 2 q := by
      have hlog : place x ≤ e := place_le hpos hm he hx
      have hexp : Int.log 2 x + 1 ≤ Int.log 2 q := by
        unfold place at hlog
        omega
      calc x ≤ (2 : ℚ) ^ (Int.log 2 x + 1) := by
            exact_mod_cast (Int.lt_zpow_succ_log_self (by norm_num : 1 < 2) x).le
        _ ≤ (2 : ℚ) ^ Int.log 2 q := zpow_le_zpow_right₀ (by norm_num) hexp
    calc x ≤ (2 : ℚ) ^ Int.log 2 q := hxpower
      _ = ((2 ^ 52 : ℤ) : ℚ) * 2 ^ place q := hpower
      _ ≤ roundMag q := multiple_le_roundMag (by rw [← hpower]; exact hbelow)

theorem IsFloat.neg {x : ℚ} (h : IsFloat x) : IsFloat (-x) := by
  obtain ⟨m, e, hm, he, rfl⟩ := h
  exact ⟨-m, e, by rwa [abs_neg], he, by push_cast; ring⟩

theorem round_of_isFloat {x : ℚ} (h : IsFloat x) : round x = x := by
  unfold round
  rcases lt_trichotomy x 0 with hneg | rfl | hpos
  · rw [if_neg (by linarith), roundMag_of_isFloat (by linarith) h.neg, neg_neg]
  · simp [roundMag, roundEven]
  · rw [if_pos hpos.le, roundMag_of_isFloat hpos h]

theorem le_abs_round {x q : ℚ} (hpos : 0 < x) (h : IsFloat x) (hle : x ≤ |q|) : x ≤ |round q| := by
  rw [abs_round]
  exact le_roundMag hpos h hle

/-! ## Numbers as floats -/

/-- `float(n)`; `none` is an overflow. -/
def ofInt (n : ℤ) : Option ℚ := if |round n| < 2 ^ 1024 then some (round n) else none

/-- The difference of a float from `2 ^ 9` on and an integer close to it is exact. -/
theorem isFloat_sub_int {c : ℚ} {n : ℤ} (hc : IsFloat c) (hlow : 2 ^ 9 ≤ c)
    (hclose : |c - n| < 2 ^ 9) : IsFloat (c - n) := by
  obtain ⟨m, e, hm, he, hcm⟩ := hc
  -- the last bit of `c` is at least `2 ^ -43`
  have hexp : -43 ≤ e := by
    by_contra hsmall
    have hbound : c < 2 ^ 9 := by
      have hm' : (m : ℚ) < 2 ^ (53 : ℤ) := by exact_mod_cast (abs_lt.mp hm).2
      calc c = m * 2 ^ e := hcm
        _ < 2 ^ (53 : ℤ) * 2 ^ e := mul_lt_mul_of_pos_right hm' (two_zpow_pos e)
        _ = 2 ^ (53 + e) := (zpow_add₀ (by norm_num) _ _).symm
        _ ≤ 2 ^ (9 : ℤ) := zpow_le_zpow_right₀ (by norm_num) (by omega)
        _ = 2 ^ 9 := by norm_num
    linarith
  obtain ⟨d, hd⟩ := Int.eq_ofNat_of_zero_le (by omega : 0 ≤ e + 43)
  have hdiff : c - n = ((m * 2 ^ d - n * 2 ^ 43 : ℤ) : ℚ) * 2 ^ (-43 : ℤ) := by
    have hsum : e = d + (-43) := by omega
    rw [hcm, hsum, zpow_add₀ (by norm_num : (2 : ℚ) ≠ 0), zpow_natCast]
    push_cast
    ring
  refine ⟨m * 2 ^ d - n * 2 ^ 43, -43, ?_, by norm_num, hdiff⟩
  rw [hdiff, abs_mul, abs_of_pos (two_zpow_pos _)] at hclose
  have hscaled : |((m * 2 ^ d - n * 2 ^ 43 : ℤ) : ℚ)| < 2 ^ 52 := by
    calc |((m * 2 ^ d - n * 2 ^ 43 : ℤ) : ℚ)|
        = |((m * 2 ^ d - n * 2 ^ 43 : ℤ) : ℚ)| * 2 ^ (-43 : ℤ) * 2 ^ 43 := by
          rw [mul_assoc]
          norm_num
      _ < 2 ^ 9 * 2 ^ 43 := by
          exact mul_lt_mul_of_pos_right hclose (by norm_num)
      _ = 2 ^ 52 := by norm_num
  have hint : |m * 2 ^ d - n * 2 ^ 43| < (2 : ℤ) ^ 52 := by exact_mod_cast hscaled
  omega

/-- **A clock between `2 ^ 9` and `2 ^ 52` seconds less an integer: the difference is exact, or it
is at least `2 ^ 9` seconds before and after rounding.** -/
theorem sub_int {c s : ℚ} {n : ℤ} (hc : IsFloat c) (hlow : 2 ^ 9 ≤ c) (hhigh : c ≤ 2 ^ 52)
    (hs : ofInt n = some s) :
    |round (c - s)| = |c - n| ∨ 2 ^ 9 ≤ |round (c - s)| ∧ 2 ^ 9 ≤ |c - n| := by
  unfold ofInt at hs
  split at hs
  · cases hs
    by_cases hn : |n| < 2 ^ 53
    · rw [round_of_isFloat (isFloat_intCast hn)]
      by_cases hclose : |c - n| < 2 ^ 9
      · rw [round_of_isFloat (isFloat_sub_int hc hlow hclose)]
        exact Or.inl rfl
      · have hfar : 2 ^ 9 ≤ |c - n| := not_lt.mp hclose
        exact Or.inr ⟨le_abs_round (by norm_num) (isFloat_two_pow 9) hfar, hfar⟩
    · -- an integer that large is far from the clock, and so is its float
      have hfar : ∀ x : ℚ, 2 ^ 53 ≤ |x| → 2 ^ 9 ≤ |c - x| := by
        intro x hx
        have hc' : |c| ≤ 2 ^ 52 := by
          rw [abs_of_nonneg (by linarith)]
          exact hhigh
        have htriangle : |x| - |c| ≤ |c - x| := by
          rw [abs_sub_comm]
          exact abs_sub_abs_le_abs_sub x c
        norm_num at hx hc' ⊢
        linarith
      have hn' : (2 : ℚ) ^ 53 ≤ |(n : ℚ)| := by exact_mod_cast not_lt.mp hn
      have hround := le_abs_round (by norm_num) (isFloat_two_pow 53) hn'
      exact Or.inr ⟨le_abs_round (by norm_num) (isFloat_two_pow 9) (hfar _ hround), hfar _ hn'⟩
  · cases hs

end Binary64
