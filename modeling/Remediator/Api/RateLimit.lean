import Mathlib.Algebra.Order.Ring.Rat
import Remediator.Lib.TokenBucket

set_option autoImplicit false

/-! # The operator rate limit

`TokenBucketLimiter` of `api/hardening.py` keeps one bucket for each key and makes it at the first
call. A call reads the clock when it makes the bucket and once more for the answer. The buckets
know nothing of each other, so what a limiter answers for one key is what that key's bucket serves.
-/

namespace Remediator

open TokenBucket

/-- `TokenBucketLimiter`: `state` is `_state`, and `reads` counts the readings of the clock. The
source has an integer `capacity` and uses it as a number of tokens. -/
structure TokenBucketLimiter where
  capacity : ℚ
  refill : ℚ
  state : String → Option (Bucket ℚ)
  reads : ℕ

/-- A call of `allow`: its key, its `now` and its answer. -/
structure AllowCall where
  key : String
  time : ℚ
  allowed : Bool

namespace TokenBucketLimiter

/-- `TokenBucketLimiter(capacity, refill_per_second)`. -/
def new (capacity refill : ℚ) : TokenBucketLimiter :=
  { capacity := capacity, refill := refill, state := fun _ => none, reads := 0 }

/-- `self._state[key] = bucket`. -/
def setItem (key : String) (b : Bucket ℚ) (l : TokenBucketLimiter) : TokenBucketLimiter :=
  { l with state := Function.update l.state key (some b) }

/-- `self._clock()`. -/
def readClock (clock : ℕ → ℚ) (l : TokenBucketLimiter) : ℚ × TokenBucketLimiter :=
  (clock l.reads, { l with reads := l.reads + 1 })

/-- `self._state[key]`: a key that is not there gets a full bucket. -/
def getItem (clock : ℕ → ℚ) (key : String) (l : TokenBucketLimiter) :
    Bucket ℚ × TokenBucketLimiter :=
  match l.state key with
  | some b => (b, l)
  | none =>
      let (created, l) := l.readClock clock
      (⟨l.capacity, created⟩, l.setItem key ⟨l.capacity, created⟩)

/-- `allow(key)`, with the `now` it read. -/
def allow (clock : ℕ → ℚ) (key : String) (l : TokenBucketLimiter) :
    AllowCall × TokenBucketLimiter :=
  let (b, l) := l.getItem clock key
  let (now, l) := l.readClock clock
  let tokens := min l.capacity (b.tokens + (now - b.last) * l.refill)
  if tokens < 1 then (⟨key, now, false⟩, l.setItem key ⟨tokens, now⟩)
  else (⟨key, now, true⟩, l.setItem key ⟨tokens - 1, now⟩)

/-- The calls of `allow` for `keys`, one after the other. -/
def calls (clock : ℕ → ℚ) : List String → TokenBucketLimiter → List AllowCall
  | [], _ => []
  | key :: keys, l => (l.allow clock key).1 :: calls clock keys (l.allow clock key).2

end TokenBucketLimiter

/-- The calls for one key. -/
def AllowCall.ofKey (key : String) (made : List AllowCall) : List AllowCall :=
  made.filter fun c => c.key = key

/-- How many calls for `key` were allowed from `t` to `u`. -/
def AllowCall.allowedIn (key : String) (t u : ℚ) (made : List AllowCall) : ℕ :=
  (AllowCall.ofKey key made).countP fun c => c.allowed && decide (t ≤ c.time) && decide (c.time ≤ u)

/-! ## One key -/

namespace TokenBucketLimiter

/-- The bucket `b` is the one `allow` finds for `key`: the stored one, or any full one. -/
def Holds (clock : ℕ → ℚ) (l : TokenBucketLimiter) (key : String) (b : Bucket ℚ) : Prop :=
  match l.state key with
  | some stored => stored = b
  | none => b.tokens = l.capacity ∧ b.last ≤ clock l.reads

variable {clock : ℕ → ℚ} {l : TokenBucketLimiter} {key : String}

theorem getItem_state_of_ne {other : String} (h : other ≠ key) :
    (l.getItem clock key).2.state other = l.state other := by
  unfold getItem
  split
  · rfl
  · simp [readClock, setItem, h]

@[simp]
theorem getItem_capacity : (l.getItem clock key).2.capacity = l.capacity := by
  unfold getItem
  split <;> rfl

@[simp]
theorem getItem_refill : (l.getItem clock key).2.refill = l.refill := by
  unfold getItem
  split <;> rfl

theorem le_getItem_reads : l.reads ≤ (l.getItem clock key).2.reads := by
  unfold getItem
  split
  · exact le_rfl
  · exact Nat.le_succ _

@[simp]
theorem allow_capacity : (l.allow clock key).2.capacity = l.capacity := by
  unfold allow
  dsimp only [readClock]
  split <;> simp [setItem]

@[simp]
theorem allow_refill : (l.allow clock key).2.refill = l.refill := by
  unfold allow
  dsimp only [readClock]
  split <;> simp [setItem]

theorem allow_reads :
    (l.allow clock key).2.reads = (l.getItem clock key).2.reads + 1 := by
  unfold allow
  dsimp only [readClock]
  split <;> rfl

@[simp]
theorem allow_key : (l.allow clock key).1.key = key := by
  unfold allow
  dsimp only [readClock]
  split <;> rfl

theorem allow_time : (l.allow clock key).1.time = clock (l.getItem clock key).2.reads := by
  unfold allow
  dsimp only [readClock]
  split <;> rfl

theorem allow_state_of_ne {other : String} (h : other ≠ key) :
    (l.allow clock key).2.state other = l.state other := by
  unfold allow
  dsimp only [readClock]
  split <;> simp [setItem, h, getItem_state_of_ne h]

/-- A call for another key leaves the bucket of `key` alone. -/
theorem Holds.other {b : Bucket ℚ} (hclock : Monotone clock) {other : String} (h : key ≠ other)
    (hb : l.Holds clock key b) : (l.allow clock other).2.Holds clock key b := by
  have hreads : l.reads ≤ (l.allow clock other).2.reads := by
    have : l.reads ≤ (l.getItem clock other).2.reads := le_getItem_reads
    rw [allow_reads]
    omega
  unfold Holds at hb ⊢
  rw [allow_state_of_ne h]
  cases hstate : l.state key with
  | some stored => simpa [hstate] using hb
  | none =>
      simp only [hstate] at hb
      exact ⟨by simpa using hb.1, hb.2.trans (hclock hreads)⟩

/-- **A call for `key` is an arrival at its bucket.** -/
theorem Holds.own {b : Bucket ℚ} (hclock : Monotone clock) (hrefill : 0 ≤ l.refill)
    (hb : l.Holds clock key b) :
    (l.allow clock key).1.allowed
        = b.served l.capacity l.refill (l.allow clock key).1.time
      ∧ (l.allow clock key).2.Holds clock key
          (b.take l.capacity l.refill (l.allow clock key).1.time) := by
  -- whatever `getItem` returns stands at the level of `b`
  have hlevel : (l.getItem clock key).1.level l.capacity l.refill (l.allow clock key).1.time
      = b.level l.capacity l.refill (l.allow clock key).1.time := by
    rw [allow_time]
    cases hstate : l.state key with
    | some stored =>
        have : stored = b := by simpa [Holds, hstate] using hb
        simp [getItem, hstate, this]
    | none =>
        obtain ⟨htokens, hlast⟩ : b.tokens = l.capacity ∧ b.last ≤ clock l.reads := by
          simpa [Holds, hstate] using hb
        have hlater : clock l.reads ≤ clock (l.reads + 1) := hclock (Nat.le_succ _)
        have hgain : 0 ≤ (clock (l.reads + 1) - clock l.reads) * l.refill :=
          mul_nonneg (sub_nonneg.mpr hlater) hrefill
        have hgain' : 0 ≤ (clock (l.reads + 1) - b.last) * l.refill :=
          mul_nonneg (sub_nonneg.mpr (hlast.trans hlater)) hrefill
        simp [getItem, hstate, readClock, setItem, Bucket.level, htokens, hgain, hgain']
  generalize htime : (l.allow clock key).1.time = now at hlevel ⊢
  have hnow : now = clock (l.getItem clock key).2.reads := htime ▸ allow_time
  have htokens : min l.capacity ((l.getItem clock key).1.tokens
      + (now - (l.getItem clock key).1.last) * l.refill) = b.level l.capacity l.refill now := hlevel
  by_cases hserved : 1 ≤ b.level l.capacity l.refill now
  · simp [allow, readClock, setItem, Holds, Bucket.take, Bucket.served, ← hnow, htokens, hserved,
      not_lt.mpr hserved]
  · simp [allow, readClock, setItem, Holds, Bucket.take, Bucket.served, ← hnow, htokens, hserved,
      not_le.mp hserved]

end TokenBucketLimiter

/-- A call as its bucket sees it. -/
def AllowCall.arrival (c : AllowCall) : ℚ × Bool := (c.time, c.allowed)

namespace TokenBucketLimiter

variable {clock : ℕ → ℚ}

/-- **The calls for one key are what its bucket serves**, whatever is called in between. -/
theorem calls_of_key (hclock : Monotone clock) (key : String) (keys : List String) :
    ∀ (l : TokenBucketLimiter) (b : Bucket ℚ), 0 ≤ l.refill → l.Holds clock key b →
      (AllowCall.ofKey key (l.calls clock keys)).map AllowCall.arrival
        = b.serve l.capacity l.refill
            ((AllowCall.ofKey key (l.calls clock keys)).map AllowCall.time) := by
  induction keys with
  | nil =>
      intro l b _ _
      rfl
  | cons k keys ih =>
      intro l b hrefill hb
      by_cases hk : k = key
      · subst hk
        obtain ⟨hallowed, hnext⟩ := hb.own hclock hrefill
        have hrest := ih (l.allow clock k).2 _ (by simpa using hrefill) hnext
        rw [allow_capacity, allow_refill] at hrest
        simp only [calls, AllowCall.ofKey, List.filter_cons, allow_key, decide_true, if_true,
          List.map_cons, Bucket.serve] at hrest ⊢
        rw [hrest, AllowCall.arrival, hallowed]
      · have hrest := ih (l.allow clock k).2 b (by simpa using hrefill)
          (hb.other hclock (Ne.symm hk))
        rw [allow_capacity, allow_refill] at hrest
        simpa [calls, AllowCall.ofKey, List.filter_cons, hk] using hrest

/-- The calls of a limiter are made one after the other. -/
theorem calls_sorted (hclock : Monotone clock) (keys : List String) :
    ∀ l : TokenBucketLimiter,
      List.Pairwise (· ≤ ·) (clock l.reads :: (l.calls clock keys).map AllowCall.time) := by
  induction keys with
  | nil =>
      intro l
      simp [calls]
  | cons k keys ih =>
      intro l
      have hrest := ih (l.allow clock k).2
      have hfirst : clock l.reads ≤ (l.allow clock k).1.time := by
        rw [allow_time]
        exact hclock le_getItem_reads
      have hnext : (l.allow clock k).1.time ≤ clock (l.allow clock k).2.reads := by
        rw [allow_time, allow_reads]
        exact hclock (Nat.le_succ _)
      obtain ⟨hlater, hsorted⟩ := List.pairwise_cons.mp hrest
      simp only [calls, List.map_cons]
      refine List.pairwise_cons.mpr ⟨?_, List.pairwise_cons.mpr ⟨?_, hsorted⟩⟩
      · intro t ht
        rcases List.mem_cons.mp ht with rfl | ht
        · exact hfirst
        · exact hfirst.trans (hnext.trans (hlater t ht))
      · intro t ht
        exact hnext.trans (hlater t ht)

theorem ofKey_sorted (hclock : Monotone clock) (key : String) (keys : List String)
    (l : TokenBucketLimiter) :
    List.Pairwise (· ≤ ·)
      (clock l.reads :: (AllowCall.ofKey key (l.calls clock keys)).map AllowCall.time) := by
  have hsub : List.Sublist ((AllowCall.ofKey key (l.calls clock keys)).map AllowCall.time)
      ((l.calls clock keys).map AllowCall.time) := List.Sublist.map _ List.filter_sublist
  exact (calls_sorted hclock keys l).sublist (hsub.cons_cons _)

end TokenBucketLimiter

theorem AllowCall.allowedIn_eq (key : String) (t u : ℚ) (made : List AllowCall) :
    AllowCall.allowedIn key t u made
      = granted t u ((AllowCall.ofKey key made).map AllowCall.arrival) := by
  unfold AllowCall.allowedIn granted
  rw [List.countP_map]
  rfl

namespace TokenBucketLimiter

variable {clock : ℕ → ℚ}

/-- The calls after the first `n` go on from a bucket that was looked at last by one of them, or
that none of them touched. -/
theorem calls_drop (hclock : Monotone clock) (key : String) (keys : List String) :
    ∀ (l : TokenBucketLimiter) (b : Bucket ℚ) (n : ℕ), 0 ≤ l.refill → l.Holds clock key b →
      b.Wf l.capacity → b.last ≤ clock l.reads →
      ∃ (l' : TokenBucketLimiter) (b' : Bucket ℚ),
        (l.calls clock keys).drop n = l'.calls clock (keys.drop n) ∧ l'.capacity = l.capacity
          ∧ l'.refill = l.refill ∧ l'.Holds clock key b' ∧ b'.Wf l.capacity
          ∧ (b' = b ∨ ∃ c ∈ AllowCall.ofKey key ((l.calls clock keys).take n), b'.last = c.time) := by
  induction keys with
  | nil =>
      intro l b n _ hb hwf _
      exact ⟨l, b, by simp [calls], rfl, rfl, hb, hwf, Or.inl rfl⟩
  | cons k keys ih =>
      intro l b n hrefill hb hwf hlast
      cases n with
      | zero => exact ⟨l, b, rfl, rfl, rfl, hb, hwf, Or.inl rfl⟩
      | succ m =>
          have hfirst : clock l.reads ≤ (l.allow clock k).1.time := by
            rw [allow_time]
            exact hclock le_getItem_reads
          have hnext : (l.allow clock k).1.time ≤ clock (l.allow clock k).2.reads := by
            rw [allow_time, allow_reads]
            exact hclock (Nat.le_succ _)
          by_cases hk : k = key
          · subst hk
            obtain ⟨-, hown⟩ := hb.own hclock hrefill
            obtain ⟨l', b', hcalls, hcap, hrate, hb', hwf', hfrom⟩ :=
              ih (l.allow clock k).2 _ m (by simpa using hrefill) hown
                (by simpa using hwf.take hrefill (hlast.trans hfirst)) (by simpa using hnext)
            rw [allow_capacity] at hcap hwf'
            rw [allow_refill] at hrate
            refine ⟨l', b', hcalls, hcap, hrate, hb', hwf', Or.inr ?_⟩
            simp only [calls, List.take_succ_cons, AllowCall.ofKey, List.filter_cons, allow_key,
              decide_true, if_true]
            rcases hfrom with rfl | ⟨c, hc, hlast'⟩
            · exact ⟨_, List.mem_cons_self, by simp⟩
            · exact ⟨c, List.mem_cons_of_mem _ hc, hlast'⟩
          · obtain ⟨l', b', hcalls, hcap, hrate, hb', hwf', hfrom⟩ :=
              ih (l.allow clock k).2 b m (by simpa using hrefill) (hb.other hclock (Ne.symm hk))
                (by simpa using hwf) (hlast.trans (hfirst.trans hnext))
            rw [allow_capacity] at hcap hwf'
            rw [allow_refill] at hrate
            refine ⟨l', b', hcalls, hcap, hrate, hb', hwf', ?_⟩
            simpa [calls, AllowCall.ofKey, List.filter_cons, hk] using hfrom

/-- Before the first call a full bucket stands for every key, filled as early as one likes. -/
theorem new_holds (capacity refill t : ℚ) (key : String) (ht : t ≤ clock 0) :
    (new capacity refill).Holds clock key ⟨capacity, t⟩ :=
  ⟨rfl, ht⟩

end TokenBucketLimiter

/-- The calls made against a new limiter. -/
def callsMade (capacity refill : ℚ) (clock : ℕ → ℚ) (keys : List String) : List AllowCall :=
  (TokenBucketLimiter.new capacity refill).calls clock keys

/-- **The operator rate limit is a true bound.** In every window the calls allowed for a key are
at most its capacity and what comes in; they depend on the times of that key's calls alone; and a
key that was left alone long enough for a full refill has its next calls allowed, as many as the
capacity holds. -/
theorem rate_limit_bounds (capacity : ℚ) (hcapacity : 0 < capacity) (refill : ℚ)
    (hrefill : 0 ≤ refill) (clock : ℕ → ℚ) (hclock : Monotone clock) (keys : List String) :
    (∀ key t T, 0 ≤ T →
        (AllowCall.allowedIn key t (t + T) (callsMade capacity refill clock keys) : ℚ) ≤
          capacity + refill * T)
    ∧ (∀ key clock' keys', Monotone clock' →
        (AllowCall.ofKey key (callsMade capacity refill clock keys)).map AllowCall.time
            = (AllowCall.ofKey key (callsMade capacity refill clock' keys')).map AllowCall.time →
        (AllowCall.ofKey key (callsMade capacity refill clock keys)).map AllowCall.allowed
            = (AllowCall.ofKey key (callsMade capacity refill clock' keys')).map AllowCall.allowed)
    ∧ (0 < refill → ∀ key n,
        (∀ c ∈ AllowCall.ofKey key ((callsMade capacity refill clock keys).take n),
          ∀ d ∈ AllowCall.ofKey key ((callsMade capacity refill clock keys).drop n),
            c.time + capacity / refill ≤ d.time) →
        ∀ m : ℕ, (m : ℚ) ≤ capacity →
          ∀ d ∈ (AllowCall.ofKey key ((callsMade capacity refill clock keys).drop n)).take m,
            d.allowed = true) := by
  refine ⟨?_, ?_, ?_⟩
  · intro key t T hT
    have hserve := TokenBucketLimiter.calls_of_key hclock key keys
      (TokenBucketLimiter.new capacity refill) ⟨capacity, clock 0⟩ hrefill
      (TokenBucketLimiter.new_holds capacity refill _ key le_rfl)
    have hsorted := TokenBucketLimiter.ofKey_sorted hclock key keys
      (TokenBucketLimiter.new capacity refill)
    have hwf : Bucket.Wf capacity (⟨capacity, clock 0⟩ : Bucket ℚ) := ⟨hcapacity.le, le_rfl⟩
    have hbound := Bucket.granted_window (t := t) (u := t + T) hrefill (by linarith) hwf hsorted
    rw [AllowCall.allowedIn_eq, callsMade, hserve]
    calc _ ≤ capacity + refill * (t + T - t) := hbound
      _ = capacity + refill * T := by ring
  · intro key clock' keys' hclock' htimes
    -- one full bucket, old enough for both limiters
    have hserve := TokenBucketLimiter.calls_of_key hclock key keys
      (TokenBucketLimiter.new capacity refill) ⟨capacity, min (clock 0) (clock' 0)⟩ hrefill
      (TokenBucketLimiter.new_holds capacity refill _ key (min_le_left _ _))
    have hserve' := TokenBucketLimiter.calls_of_key hclock' key keys'
      (TokenBucketLimiter.new capacity refill) ⟨capacity, min (clock 0) (clock' 0)⟩ hrefill
      (TokenBucketLimiter.new_holds capacity refill _ key (min_le_right _ _))
    have hsame : (AllowCall.ofKey key (callsMade capacity refill clock keys)).map AllowCall.arrival
        = (AllowCall.ofKey key (callsMade capacity refill clock' keys')).map AllowCall.arrival := by
      rw [callsMade, callsMade, hserve, hserve']
      exact congrArg _ htimes
    have hanswers := congrArg (List.map Prod.snd) hsame
    rwa [List.map_map, List.map_map] at hanswers
  · set calls := callsMade capacity refill clock keys
    intro hpos key n hidle m hm d hd
    have hearly : clock 0 - capacity / refill ≤ clock 0 := by
      have : 0 ≤ capacity / refill := div_nonneg hcapacity.le hpos.le
      linarith
    obtain ⟨l', b', hcalls, hcap, hrate, hb', hwf, hfrom⟩ :=
      TokenBucketLimiter.calls_drop hclock key keys (TokenBucketLimiter.new capacity refill)
        ⟨capacity, clock 0 - capacity / refill⟩ n hrefill
        (TokenBucketLimiter.new_holds capacity refill _ key hearly) ⟨hcapacity.le, le_rfl⟩ hearly
    have hdrop : calls.drop n = l'.calls clock (keys.drop n) := hcalls
    have hserve := TokenBucketLimiter.calls_of_key hclock key (keys.drop n) l' b'
      (hrate ▸ hrefill) hb'
    have hsorted := TokenBucketLimiter.ofKey_sorted hclock key (keys.drop n) l'
    rw [hcap, hrate, ← hdrop] at hserve
    rw [← hdrop] at hsorted
    have hlate : ∀ s ∈ (AllowCall.ofKey key (calls.drop n)).map AllowCall.time,
        b'.last + capacity / refill ≤ s := by
      intro s hs
      obtain ⟨d', hd', rfl⟩ := List.mem_map.mp hs
      rcases hfrom with rfl | ⟨c, hc, hlast⟩
      · -- the key is new, and its bucket was filled in time
        have hfirst := (TokenBucketLimiter.ofKey_sorted hclock key keys
          (TokenBucketLimiter.new capacity refill))
        have hmem : d'.time ∈ (AllowCall.ofKey key calls).map AllowCall.time := by
          refine List.mem_map_of_mem ?_
          exact (List.Sublist.filter _ (List.drop_sublist n calls)).subset hd'
        have hmade : clock 0 ≤ d'.time := (List.pairwise_cons.mp hfirst).1 _ hmem
        simpa using hmade
      · rw [hlast]
        exact hidle c hc d' hd'
    have hserved := Bucket.serve_idle hm hwf hpos hlate (List.pairwise_cons.mp hsorted).2
    have hmem : d.arrival ∈ ((AllowCall.ofKey key (calls.drop n)).map AllowCall.arrival).take m := by
      rw [← List.map_take]
      exact List.mem_map_of_mem hd
    exact hserved _ (hserve ▸ hmem)

/-- Two calls at once against a bucket of one token, and a third a second later. -/
theorem rate_limit_bounds_demo :
    (AllowCall.allowedIn "a" 0 (0 + 2)
      (callsMade 1 1 (fun n => n) ["a", "a", "b", "a"]) : ℚ) ≤ 1 + 1 * 2 :=
  (rate_limit_bounds 1 (by norm_num) 1 (by norm_num) (fun n => n) (by
    intro m n h
    exact Nat.cast_le.mpr h) ["a", "a", "b", "a"]).1 "a" 0 2 (by norm_num)

end Remediator
