import Mathlib.Algebra.Order.Field.Basic
import Mathlib.Tactic.Linarith
import Mathlib.Tactic.Ring
import Mathlib.Tactic.Positivity

set_option autoImplicit false

/-! # Token buckets

A bucket holds at most `cap` tokens and gains `rate` of them for each unit of time. An arrival
takes a token if the bucket holds a whole one and is refused otherwise; either way the bucket is
brought up to date. The tokens and the arrivals that were served are paid for by the time that
passed, whatever the arrivals were.
-/

namespace TokenBucket

variable {K : Type} [Field K] [LinearOrder K]

/-- The tokens of a bucket at the time it was last looked at. -/
structure Bucket (K : Type) where
  tokens : K
  last : K

namespace Bucket

/-- What the bucket holds at the time `now`. -/
def level (cap rate : K) (b : Bucket K) (now : K) : K :=
  min cap (b.tokens + (now - b.last) * rate)

def served (cap rate : K) (b : Bucket K) (now : K) : Bool :=
  decide (1 ≤ b.level cap rate now)

/-- The bucket after an arrival. -/
def take (cap rate : K) (b : Bucket K) (now : K) : Bucket K :=
  if b.served cap rate now then ⟨b.level cap rate now - 1, now⟩
  else ⟨b.level cap rate now, now⟩

/-- The arrivals at `times`, each with whether it is served. -/
def serve (cap rate : K) : Bucket K → List K → List (K × Bool)
  | _, [] => []
  | b, now :: times => (now, b.served cap rate now) :: serve cap rate (b.take cap rate now) times

/-- The bucket never holds less than nothing or more than `cap`. -/
structure Wf (cap : K) (b : Bucket K) : Prop where
  nonneg : 0 ≤ b.tokens
  le_cap : b.tokens ≤ cap

end Bucket

/-- How many arrivals from `t` to `u` were served. -/
def granted (t u : K) (l : List (K × Bool)) : ℕ :=
  l.countP fun x => x.2 && decide (t ≤ x.1) && decide (x.1 ≤ u)

omit [Field K] in
theorem granted_cons (t u : K) (x : K × Bool) (l : List (K × Bool)) :
    granted t u (x :: l)
      = granted t u l + if x.2 = true ∧ t ≤ x.1 ∧ x.1 ≤ u then 1 else 0 := by
  simp [granted, List.countP_cons, and_assoc]

omit [Field K] in
theorem sorted_cons {now : K} {times : List K} (h : List.Pairwise (· ≤ ·) (now :: times)) :
    List.Pairwise (· ≤ ·) (now :: now :: times) := by
  refine List.pairwise_cons.mpr ⟨?_, h⟩
  intro s hs
  rcases List.mem_cons.mp hs with rfl | hs
  · exact le_rfl
  · exact (List.pairwise_cons.mp h).1 s hs

namespace Bucket

@[simp]
theorem take_last (cap rate : K) (b : Bucket K) (now : K) :
    (b.take cap rate now).last = now := by
  unfold take
  split <;> rfl

theorem take_tokens (cap rate : K) (b : Bucket K) (now : K) :
    (b.take cap rate now).tokens
      = b.level cap rate now - if b.served cap rate now = true then 1 else 0 := by
  unfold take
  split <;> simp

theorem level_le_cap (cap rate : K) (b : Bucket K) (now : K) : b.level cap rate now ≤ cap :=
  min_le_left _ _

/-- Nothing counts once an arrival is after `u`. -/
theorem granted_late {cap rate : K} {u : K} (t : K) {times : List K} :
    ∀ {b : Bucket K} {now : K}, ¬ now ≤ u → List.Pairwise (· ≤ ·) (now :: times) →
      granted t u (b.serve cap rate (now :: times)) = 0 := by
  induction times with
  | nil =>
      intro b now hnow _
      rw [serve, granted_cons]
      simp [serve, granted, hnow]
  | cons s times ih =>
      intro b now hnow hsorted
      obtain ⟨hfirst, hrest⟩ := List.pairwise_cons.mp hsorted
      have hs : ¬ s ≤ u := fun h => hnow ((hfirst s (by simp)).trans h)
      rw [serve, granted_cons, ih hs hrest]
      simp [hnow]

variable [IsStrictOrderedRing K] {cap rate : K}

theorem level_nonneg {b : Bucket K} {now : K} (hb : b.Wf cap) (hrate : 0 ≤ rate)
    (hnow : b.last ≤ now) : 0 ≤ b.level cap rate now := by
  have hgain : 0 ≤ (now - b.last) * rate := mul_nonneg (sub_nonneg.mpr hnow) hrate
  exact le_min (hb.nonneg.trans hb.le_cap) (add_nonneg hb.nonneg hgain)

theorem Wf.take {b : Bucket K} {now : K} (hb : b.Wf cap) (hrate : 0 ≤ rate)
    (hnow : b.last ≤ now) : (b.take cap rate now).Wf cap := by
  have hlevel := level_nonneg hb hrate hnow
  have hcap := level_le_cap cap rate b now
  constructor
  · rw [take_tokens]
    split
    · next hserved =>
        have hone : 1 ≤ b.level cap rate now := of_decide_eq_true hserved
        linarith
    · linarith
  · rw [take_tokens]
    split <;> linarith

/-- **Every token is paid for**: what is served up to `u` was there or came in since. -/
theorem granted_le {u : K} (hrate : 0 ≤ rate) (t : K) {times : List K} :
    ∀ {b : Bucket K}, b.Wf cap → b.last ≤ u → List.Pairwise (· ≤ ·) (b.last :: times) →
      (granted t u (b.serve cap rate times) : K) ≤ b.tokens + (u - b.last) * rate := by
  induction times with
  | nil =>
      intro b hb hlast _
      have hgain : 0 ≤ (u - b.last) * rate := mul_nonneg (sub_nonneg.mpr hlast) hrate
      simpa [serve, granted] using add_nonneg hb.nonneg hgain
  | cons now times ih =>
      intro b hb hlast hsorted
      obtain ⟨hfirst, hrest⟩ := List.pairwise_cons.mp hsorted
      by_cases hu : now ≤ u
      · have hnow : b.last ≤ now := hfirst now (by simp)
        have hnext := ih (hb.take hrate hnow) (by simpa using hu) (by simpa using hrest)
        rw [take_last, take_tokens] at hnext
        have hlevel : b.level cap rate now ≤ b.tokens + (now - b.last) * rate :=
          min_le_right _ _
        have hstep : (granted t u (b.serve cap rate (now :: times)) : K)
            ≤ granted t u ((b.take cap rate now).serve cap rate times)
              + if b.served cap rate now = true then 1 else 0 := by
          rw [serve, granted_cons]
          push_cast
          gcongr
          split_ifs <;> simp_all
        calc (granted t u (b.serve cap rate (now :: times)) : K)
            ≤ b.level cap rate now + (u - now) * rate := by linarith
          _ ≤ b.tokens + (now - b.last) * rate + (u - now) * rate := by linarith
          _ = b.tokens + (u - b.last) * rate := by ring
      · -- this arrival is late, and so are all that follow
        rw [granted_late t hu hrest]
        have hgain : 0 ≤ (u - b.last) * rate := mul_nonneg (sub_nonneg.mpr hlast) hrate
        simpa using add_nonneg hb.nonneg hgain

omit [IsStrictOrderedRing K] in
/-- An arrival finds the bucket as if it had been looked at just before. -/
theorem serve_level {b : Bucket K} {now : K} (times : List K) :
    serve cap rate ⟨b.level cap rate now, now⟩ (now :: times)
      = b.serve cap rate (now :: times) := by
  have hsame : level cap rate ⟨b.level cap rate now, now⟩ now = b.level cap rate now := by
    simp [level]
  have hserved : served cap rate ⟨b.level cap rate now, now⟩ now = b.served cap rate now := by
    simp only [served, hsame]
  simp only [serve, take, hsame, hserved]

/-- **The bound on a window**: from `t` to `u` a bucket serves what it can hold and what comes in
between. -/
theorem granted_window {t u : K} (hrate : 0 ≤ rate) (htu : t ≤ u) {times : List K} :
    ∀ {b : Bucket K}, b.Wf cap → List.Pairwise (· ≤ ·) (b.last :: times) →
      (granted t u (b.serve cap rate times) : K) ≤ cap + rate * (u - t) := by
  induction times with
  | nil =>
      intro b hb _
      have hgain : 0 ≤ rate * (u - t) := mul_nonneg hrate (sub_nonneg.mpr htu)
      simpa [serve, granted] using add_nonneg (hb.nonneg.trans hb.le_cap) hgain
  | cons now times ih =>
      intro b hb hsorted
      obtain ⟨hfirst, hrest⟩ := List.pairwise_cons.mp hsorted
      have hnow : b.last ≤ now := hfirst now (by simp)
      by_cases ht : t ≤ now
      · by_cases hu : now ≤ u
        · -- the window opens: the bucket holds at most `cap`
          have hwf : Wf cap (⟨b.level cap rate now, now⟩ : Bucket K) :=
            ⟨level_nonneg hb hrate hnow, level_le_cap cap rate b now⟩
          have hpaid := granted_le hrate t hwf hu (sorted_cons hrest)
          rw [serve_level] at hpaid
          have hcap := level_le_cap cap rate b now
          have hwidth : (u - now) * rate ≤ (u - t) * rate := by gcongr
          calc (granted t u (b.serve cap rate (now :: times)) : K)
              ≤ b.level cap rate now + (u - now) * rate := hpaid
            _ ≤ cap + (u - t) * rate := by linarith
            _ = cap + rate * (u - t) := by ring
        · rw [granted_late t hu hrest]
          have hgain : 0 ≤ rate * (u - t) := mul_nonneg hrate (sub_nonneg.mpr htu)
          simpa using add_nonneg (hb.nonneg.trans hb.le_cap) hgain
      · have hnext := ih (hb.take hrate hnow) (by simpa using hrest)
        have hskip : granted t u (b.serve cap rate (now :: times))
            = granted t u ((b.take cap rate now).serve cap rate times) := by
          rw [serve, granted_cons]
          simp [ht]
        rw [hskip]
        exact hnext

/-- A bucket that holds `n` tokens serves the next `n` arrivals. -/
theorem serve_take {n : ℕ} (hrate : 0 ≤ rate) (hn : (n : K) ≤ cap) {times : List K} :
    ∀ {b : Bucket K}, (n : K) ≤ b.tokens → List.Pairwise (· ≤ ·) (b.last :: times) →
      ∀ x ∈ (b.serve cap rate times).take n, x.2 = true := by
  induction times generalizing n with
  | nil =>
      intro b _ _ x hx
      simp [serve] at hx
  | cons now times ih =>
      intro b hb hsorted x hx
      obtain ⟨hfirst, hrest⟩ := List.pairwise_cons.mp hsorted
      cases n with
      | zero => simp at hx
      | succ m =>
          have hgain : 0 ≤ (now - b.last) * rate :=
            mul_nonneg (sub_nonneg.mpr (hfirst now (by simp))) hrate
          have hlevel : ((m + 1 : ℕ) : K) ≤ b.level cap rate now :=
            le_min hn (by linarith)
          push_cast at hlevel hn
          have hone : (1 : K) ≤ b.level cap rate now := by
            have : (0 : K) ≤ m := Nat.cast_nonneg m
            linarith
          have hserved : b.served cap rate now = true := decide_eq_true hone
          rw [serve, List.take_succ_cons, List.mem_cons] at hx
          rcases hx with rfl | hx
          · exact hserved
          · refine ih (by linarith) (b := b.take cap rate now) ?_ (by simpa using hrest) x hx
            rw [take_tokens, if_pos hserved]
            linarith

/-- A bucket that is left alone for `cap / rate` is full. -/
theorem level_idle {b : Bucket K} {now : K} (hb : b.Wf cap) (hrate : 0 < rate)
    (hidle : b.last + cap / rate ≤ now) : b.level cap rate now = cap := by
  refine min_eq_left ?_
  have hgain : cap ≤ (now - b.last) * rate := by
    rw [← div_le_iff₀ hrate]
    linarith
  have := hb.nonneg
  linarith

/-- **After an idle time the next `n` arrivals are served**, for every `n` that fits. -/
theorem serve_idle {n : ℕ} (hn : (n : K) ≤ cap) {b : Bucket K} (hb : b.Wf cap) (hrate : 0 < rate)
    {times : List K} (hidle : ∀ s ∈ times, b.last + cap / rate ≤ s)
    (hsorted : List.Pairwise (· ≤ ·) times) :
    ∀ x ∈ (b.serve cap rate times).take n, x.2 = true := by
  cases times with
  | nil =>
      intro x hx
      simp [serve] at hx
  | cons now times =>
      have hfull := level_idle hb hrate (hidle now (by simp))
      rw [← serve_level, hfull]
      exact serve_take hrate.le hn hn (sorted_cons hsorted)

end Bucket

end TokenBucket
