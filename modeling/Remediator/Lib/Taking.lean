import Mathlib.Data.Set.Finite.List
import Mathlib.Data.List.TakeDrop
import Mathlib.Logic.Relation
import Mathlib.Order.RelClasses

set_option autoImplicit false

/-! # Taking keys one by one

Every agent needs a list of keys and takes them in the order of its list. It stops at the first key
that another agent has, and keeps what it took; it gives all its keys back at once. What an agent
has is therefore the front of its list, and a configuration says how long that front is.

Whether agents can ever wait for each other in a ring is a property of their lists alone.
-/

namespace Taking

variable {ι κ : Type} (need : ι → List κ)

/-- The keys of an agent. -/
def held (σ : ι → ℕ) (i : ι) : List κ := (need i).take (σ i)

/-- Another agent has the key. -/
def Taken (σ : ι → ℕ) (i : ι) (k : κ) : Prop := ∃ j, j ≠ i ∧ k ∈ held need σ j

/-- The agent that takes keys gets the first `n` of its list. -/
structure Goes (σ : ι → ℕ) (i : ι) (n : ℕ) : Prop where
  le : σ i ≤ n
  le_length : n ≤ (need i).length
  free : ∀ m, σ i ≤ m → m < n → ∀ k, (need i)[m]? = some k → ¬ Taken need σ i k
  stop : ∀ k, (need i)[n]? = some k → Taken need σ i k

/-- An agent takes keys, or gives them back. -/
inductive Step [DecidableEq ι] (σ : ι → ℕ) : (ι → ℕ) → Prop
  | take {i : ι} {n : ℕ} : Goes need σ i n → Step σ (Function.update σ i n)
  | drop (i : ι) : Step σ (Function.update σ i 0)

/-- What is reached from where nobody has a key. -/
inductive Reachable [DecidableEq ι] : (ι → ℕ) → Prop
  | init : Reachable fun _ => 0
  | step {σ σ' : ι → ℕ} : Reachable σ → Step need σ σ' → Reachable σ'

/-- `i` would be stopped by a key of `j`. -/
def Waits (σ : ι → ℕ) (i j : ι) : Prop :=
  ∃ n k, Goes need σ i n ∧ (need i)[n]? = some k ∧ j ≠ i ∧ k ∈ held need σ j

/-- A ring of agents, each of which waits for the next. -/
def Deadlock (σ : ι → ℕ) : Prop := ∃ i, Relation.TransGen (Waits need σ) i i

/-! ## Which fronts are ever held -/

/-- An agent can come to hold the front of its list up to `n`: it may always get the whole list,
and it is stopped at a key that another one can hold, with keys that are not in that front. -/
inductive CanHold : ι → ℕ → Prop
  | full (i : ι) : CanHold i (need i).length
  | stop {i j : ι} {m n : ℕ} {k : κ} : j ≠ i → (need i)[m]? = some k → CanHold j n →
      k ∈ (need j).take n → ((need i).take m).Disjoint ((need j).take n) → CanHold i m

/-- Every front can be held, and no key has two holders. -/
structure Plausible (σ : ι → ℕ) : Prop where
  apart : ∀ i j, i ≠ j → (held need σ i).Disjoint (held need σ j)
  canHold : ∀ i, σ i = 0 ∨ CanHold need i (σ i)

/-- The lists admit a ring of agents that wait for each other. -/
def Tangled : Prop := ∃ σ, Plausible need σ ∧ Deadlock need σ

section Fronts

variable {need} {σ : ι → ℕ} {i j : ι} {n : ℕ}

theorem mem_take_iff {l : List κ} {n : ℕ} {k : κ} :
    k ∈ l.take n ↔ ∃ m < n, l[m]? = some k := by
  rw [List.mem_iff_getElem?]
  constructor
  · rintro ⟨m, hm⟩
    rw [List.getElem?_take] at hm
    split at hm
    · next hlt => exact ⟨m, hlt, hm⟩
    · cases hm
  · rintro ⟨m, hlt, hm⟩
    exact ⟨m, by rw [List.getElem?_take, if_pos hlt, hm]⟩

theorem CanHold.le_length (h : CanHold need i n) : n ≤ (need i).length := by
  cases h with
  | full => exact Nat.le_refl _
  | stop _ hk _ _ _ => exact Nat.le_of_lt (List.getElem?_eq_some_iff.mp hk).1

theorem Plausible.le_length (h : Plausible need σ) (i : ι) : σ i ≤ (need i).length := by
  rcases h.canHold i with hzero | hhold
  · omega
  · exact hhold.le_length

theorem ne_zero_of_mem_held {k : κ} (h : k ∈ held need σ i) : σ i ≠ 0 := by
  intro hzero
  rw [held, hzero] at h
  cases h

theorem Plausible.canHold_of_mem (h : Plausible need σ) {k : κ} (hk : k ∈ held need σ i) :
    CanHold need i (σ i) := (h.canHold i).resolve_left (ne_zero_of_mem_held hk)

/-- What an agent gets is not held by anyone else. -/
theorem Goes.disjoint (h : Goes need σ i n)
    (hapart : ∀ j, j ≠ i → (held need σ i).Disjoint (held need σ j)) (hj : j ≠ i) :
    ((need i).take n).Disjoint (held need σ j) := by
  intro k hk hkj
  obtain ⟨m, hm, hget⟩ := mem_take_iff.mp hk
  by_cases hlt : m < σ i
  · exact hapart j hj (mem_take_iff.mpr ⟨m, hlt, hget⟩) hkj
  · exact h.free m (Nat.le_of_not_lt hlt) hm k hget ⟨j, hj, hkj⟩

theorem Goes.unique {m : ℕ} (h : Goes need σ i n) (h' : Goes need σ i m) : n = m := by
  have hle : ∀ {n m : ℕ}, Goes need σ i n → Goes need σ i m → n ≤ m := by
    intro n m h h'
    by_contra hlt
    have hlength := h.le_length
    have hget := List.getElem?_eq_getElem (show m < (need i).length by omega)
    exact h.free m h'.le (by omega) _ hget (h'.stop _ hget)
  exact Nat.le_antisymm (hle h h') (hle h' h)

theorem exists_goes (need : ι → List κ) (h : σ i ≤ (need i).length) : ∃ n, Goes need σ i n := by
  classical
  have hend : ∃ n, σ i ≤ n ∧ ∀ k, (need i)[n]? = some k → Taken need σ i k := by
    refine ⟨(need i).length, h, fun k hk => ?_⟩
    rw [List.getElem?_eq_none (Nat.le_refl _)] at hk
    cases hk
  obtain ⟨hle, hstop⟩ := Nat.find_spec hend
  refine ⟨Nat.find hend, hle, ?_, fun m hm hlt k hk htaken => ?_, hstop⟩
  · refine Nat.find_min' hend ⟨h, fun k hk => ?_⟩
    rw [List.getElem?_eq_none (Nat.le_refl _)] at hk
    cases hk
  · refine Nat.find_min hend hlt ⟨hm, fun k' hk' => ?_⟩
    rw [hk] at hk'
    obtain rfl := Option.some.inj hk'
    exact htaken

end Fronts

/-! ## Lists that are not tangled -/

section Untangled

variable {need} {σ : ι → ℕ}

/-- Lists of which only nothing or the whole is ever held are not tangled. -/
theorem not_tangled_of_whole
    (h : ∀ i n, CanHold need i n → n = 0 ∨ n = (need i).length) : ¬ Tangled need := by
  rintro ⟨σ, hσ, i, hring⟩
  -- who stands in a ring holds something, and not all it needs
  obtain ⟨j, -, n₁, k₁, -, -, -, hheld⟩ := Relation.TransGen.tail'_iff.mp hring
  obtain ⟨j', ⟨n, k, hgoes, hk, -⟩, -⟩ := Relation.TransGen.head'_iff.mp hring
  have hlt := (List.getElem?_eq_some_iff.mp hk).1
  have hle := hgoes.le
  rcases h i (σ i) (hσ.canHold_of_mem hheld) with hzero | hwhole
  · exact ne_zero_of_mem_held hheld hzero
  · omega

end Untangled

/-! ## Runs -/

variable {need} [DecidableEq ι]

section Updates

variable {σ : ι → ℕ} {i j : ι} {n : ℕ}

theorem held_update_self : held need (Function.update σ i n) i = (need i).take n := by
  rw [held, Function.update_self]

theorem held_update_of_ne (h : j ≠ i) :
    held need (Function.update σ i n) j = held need σ j := by
  rw [held, Function.update_of_ne h]
  rfl

theorem Plausible.take (h : Plausible need σ) (hgoes : Goes need σ i n) :
    Plausible need (Function.update σ i n) := by
  have hdisjoint : ∀ j, j ≠ i → ((need i).take n).Disjoint (held need σ j) := fun j hj =>
    hgoes.disjoint (fun j hj => h.apart i j hj.symm) hj
  refine ⟨fun a b hab => ?_, fun a => ?_⟩
  · by_cases ha : a = i
    · subst ha
      rw [held_update_self, held_update_of_ne hab.symm]
      exact hdisjoint b hab.symm
    · by_cases hb : b = i
      · subst hb
        rw [held_update_self, held_update_of_ne ha]
        exact List.Disjoint.symm (hdisjoint a ha)
      · rw [held_update_of_ne ha, held_update_of_ne hb]
        exact h.apart a b hab
  · by_cases ha : a = i
    · subst ha
      rw [Function.update_self]
      refine Or.inr ?_
      cases hnext : (need a)[n]? with
      | none =>
          have hlength : n = (need a).length :=
            Nat.le_antisymm hgoes.le_length (List.getElem?_eq_none_iff.mp hnext)
          rw [hlength]
          exact .full a
      | some k =>
          obtain ⟨j, hj, hkj⟩ := hgoes.stop k hnext
          exact .stop hj hnext (h.canHold_of_mem hkj) hkj (hdisjoint j hj)
    · rw [Function.update_of_ne ha]
      exact h.canHold a

theorem Plausible.drop (h : Plausible need σ) (i : ι) :
    Plausible need (Function.update σ i 0) := by
  have hsub : ∀ a k, k ∈ held need (Function.update σ i 0) a → k ∈ held need σ a := by
    intro a k hk
    by_cases ha : a = i
    · subst ha
      rw [held_update_self] at hk
      cases hk
    · rwa [held_update_of_ne ha] at hk
  refine ⟨fun a b hab k hka hkb => h.apart a b hab (hsub a k hka) (hsub b k hkb), fun a => ?_⟩
  by_cases ha : a = i
  · subst ha
    exact Or.inl (Function.update_self ..)
  · rw [Function.update_of_ne ha]
    exact h.canHold a

theorem plausible_of_reachable (h : Reachable need σ) : Plausible need σ := by
  induction h with
  | init => exact ⟨fun _ _ _ k hk => absurd hk List.not_mem_nil, fun _ => Or.inl rfl⟩
  | step _ hstep ih =>
      cases hstep with
      | take hgoes => exact ih.take hgoes
      | drop i => exact ih.drop i

/-- **Agents whose lists are not tangled never wait in a ring.** -/
theorem no_deadlock_of_not_tangled (hneed : ¬ Tangled need) (h : Reachable need σ) :
    ¬ Deadlock need σ := fun hdead => hneed ⟨σ, plausible_of_reachable h, hdead⟩

end Updates

/-! ## Tangled lists -/

section Tangles

variable {σ τ : ι → ℕ}

/-- What can be held is held at some time, with nobody else holding a key. -/
theorem reachable_of_canHold {i : ι} {n : ℕ} (h : CanHold need i n) :
    Reachable need (Function.update (fun _ => 0) i n) := by
  induction h with
  | full i =>
      refine Reachable.init.step (.take ⟨Nat.zero_le _, Nat.le_refl _, ?_, fun k hk => ?_⟩)
      · rintro m - - k - ⟨j, -, hj⟩
        cases hj
      · rw [List.getElem?_eq_none (Nat.le_refl _)] at hk
        cases hk
  | @stop i j m n k hne hk _ hmem hdisjoint ih =>
      have hgoes : Goes need (Function.update (fun _ => 0) j n) i m := by
        refine ⟨?_, Nat.le_of_lt (List.getElem?_eq_some_iff.mp hk).1, ?_, fun k' hk' => ?_⟩
        · rw [Function.update_of_ne hne.symm]
          exact Nat.zero_le _
        · rintro p - hp k' hk' ⟨j', -, hj'⟩
          by_cases hj : j' = j
          · subst hj
            rw [held_update_self] at hj'
            exact hdisjoint (mem_take_iff.mpr ⟨p, hp, hk'⟩) hj'
          · rw [held_update_of_ne hj] at hj'
            cases hj'
        · rw [hk] at hk'
          obtain rfl := Option.some.inj hk'
          exact ⟨j, hne, by rwa [held_update_self]⟩
      have hdrop := (ih.step (.take hgoes)).step (.drop j)
      have heq : Function.update (Function.update (Function.update (fun _ => 0) j n) i m) j 0 =
          Function.update (fun _ => 0) i m := by
        funext a
        by_cases ha : a = j
        · subst ha
          rw [Function.update_self, Function.update_of_ne hne]
        · rw [Function.update_of_ne ha]
          by_cases hai : a = i
          · subst hai
            rw [Function.update_self, Function.update_self]
          · rw [Function.update_of_ne hai, Function.update_of_ne hai, Function.update_of_ne ha]
      rwa [heq] at hdrop

/-- `i` stands still before a key of `j`. -/
def Blocked (need : ι → List κ) (τ : ι → ℕ) (i j : ι) : Prop :=
  ∃ k, (need i)[τ i]? = some k ∧ j ≠ i ∧ k ∈ held need τ j

omit [DecidableEq ι] in
theorem Blocked.waits {i j : ι} (h : Blocked need τ i j) : Waits need τ i j := by
  obtain ⟨k, hk, hne, hheld⟩ := h
  refine ⟨τ i, k, ⟨Nat.le_refl _, Nat.le_of_lt (List.getElem?_eq_some_iff.mp hk).1, ?_, ?_⟩, hk,
    hne, hheld⟩
  · intro m hle hlt
    omega
  · intro k' hk'
    rw [hk] at hk'
    obtain rfl := Option.some.inj hk'
    exact ⟨j, hne, hheld⟩

/-- A part `l` of a ring that is built: its agents have at least what they have in `σ`, and no more
than they would get there; all of them but `c` stand still before a key of the part. -/
structure Built (need : ι → List κ) (σ : ι → ℕ) (c : ι) (l : List ι) (τ : ι → ℕ) : Prop where
  reachable : Reachable need τ
  inside : ∀ i ∈ l, σ i ≤ τ i ∧ ∃ n, Goes need σ i n ∧ τ i ≤ n
  outside : ∀ i, i ∉ l → τ i = 0
  blocked : ∀ i ∈ l, i ≠ c → ∃ j ∈ l, Blocked need τ i j

variable {c : ι} {l : List ι}

theorem Built.mem_of_held (h : Built need σ c l τ) {j : ι} {k : κ} (hk : k ∈ held need τ j) :
    j ∈ l := by
  by_contra hj
  exact ne_zero_of_mem_held hk (h.outside j hj)

/-- Nobody has a key that another one has in `σ`. -/
theorem Built.disjoint (h : Built need σ c l τ) (hσ : Plausible need σ) {a j : ι} (hne : j ≠ a) :
    (held need τ j).Disjoint (held need σ a) := by
  intro k hk hka
  obtain ⟨-, n, hgoes, hle⟩ := h.inside j (h.mem_of_held hk)
  obtain ⟨m, hm, hget⟩ := mem_take_iff.mp hk
  by_cases hlt : m < σ j
  · exact hσ.apart j a hne (mem_take_iff.mpr ⟨m, hlt, hget⟩) hka
  · exact hgoes.free m (Nat.le_of_not_lt hlt) (Nat.lt_of_lt_of_le hm hle) k hget
      ⟨a, hne.symm, hka⟩

omit [DecidableEq ι] in
theorem held_mono {i : ι} (h : σ i ≤ τ i) {k : κ} (hk : k ∈ held need σ i) : k ∈ held need τ i := by
  obtain ⟨m, hm, hget⟩ := mem_take_iff.mp hk
  exact mem_take_iff.mpr ⟨m, Nat.lt_of_lt_of_le hm h, hget⟩

/-- An agent that waits in `σ` for one of the part is let go on and stands still before a key of
the part. -/
theorem Built.extend (h : Built need σ c l τ) (hσ : Plausible need σ) {a b : ι}
    (hwaits : Waits need σ a b) (hb : b ∈ l) (ha : a ∉ l ∨ a = c) :
    ∃ n, Built need σ c (a :: l) (Function.update τ a n) ∧
      ∃ j ∈ l, Blocked need (Function.update τ a n) a j := by
  obtain ⟨N, k, hgoes, hk, hne, hheld⟩ := hwaits
  have hτa : τ a ≤ N ∧ τ a ≤ (need a).length := by
    by_cases hmem : a ∈ l
    · obtain ⟨-, n, hgoes', hle⟩ := h.inside a hmem
      refine ⟨?_, Nat.le_trans hle hgoes'.le_length⟩
      by_contra hlt
      exact hgoes'.free N hgoes.le (by omega) k hk ⟨b, hne, hheld⟩
    · rw [h.outside a hmem]
      exact ⟨Nat.zero_le _, Nat.zero_le _⟩
  obtain ⟨n, hn⟩ := exists_goes need hτa.2
  have hheldb : k ∈ held need τ b := held_mono (h.inside b hb).1 hheld
  -- it stops at a key of `b` at the latest
  have hnN : n ≤ N := by
    by_contra hlt
    exact hn.free N hτa.1 (by omega) k hk ⟨b, hne, hheldb⟩
  have hNlt := (List.getElem?_eq_some_iff.mp hk).1
  obtain ⟨k', hk'⟩ : ∃ k', (need a)[n]? = some k' := ⟨_, List.getElem?_eq_getElem (by omega)⟩
  obtain ⟨j, hja, hkj⟩ := hn.stop k' hk'
  -- and not before it has what it has in `σ`
  have hσn : σ a ≤ n := by
    by_contra hlt
    exact h.disjoint hσ hja hkj (mem_take_iff.mpr ⟨n, by omega, hk'⟩)
  have hmono : ∀ i k, k ∈ held need τ i → k ∈ held need (Function.update τ a n) i := by
    intro i k hki
    by_cases hi : i = a
    · subst hi
      exact held_mono (by rw [Function.update_self]; exact hn.le) hki
    · rwa [held_update_of_ne hi]
  have hblocked : Blocked need (Function.update τ a n) a j :=
    ⟨k', by rw [Function.update_self]; exact hk', hja, hmono j k' hkj⟩
  refine ⟨n, ⟨h.reachable.step (.take hn), fun i hi => ?_, fun i hi => ?_, fun i hi hic => ?_⟩, j,
    h.mem_of_held hkj, hblocked⟩
  · by_cases hia : i = a
    · subst hia
      rw [Function.update_self]
      exact ⟨hσn, N, hgoes, hnN⟩
    · rw [Function.update_of_ne hia]
      exact h.inside i ((List.mem_cons.mp hi).resolve_left hia)
  · obtain ⟨hia, hil⟩ := not_or.mp (mt List.mem_cons.mpr hi)
    rw [Function.update_of_ne hia]
    exact h.outside i hil
  · by_cases hia : i = a
    · subst hia
      exact ⟨j, List.mem_cons_of_mem _ (h.mem_of_held hkj), hblocked⟩
    · obtain ⟨j', hj', k₁, hk₁, hne₁, hheld₁⟩ :=
        h.blocked i ((List.mem_cons.mp hi).resolve_left hia) hic
      exact ⟨j', List.mem_cons_of_mem _ hj', k₁, by rwa [Function.update_of_ne hia], hne₁,
        hmono j' k₁ hheld₁⟩

/-- The part is extended back along a path to one of its agents. -/
theorem Built.along (h : Built need σ c l τ) (hσ : Plausible need σ) {a b : ι}
    (hpath : Relation.ReflTransGen (Waits need σ) a b) (hc : c ∈ l ∧ b ∈ l) :
    ∃ l τ, Built need σ c l τ ∧ c ∈ l ∧ a ∈ l := by
  induction hpath using Relation.ReflTransGen.head_induction_on with
  | refl => exact ⟨l, τ, h, hc⟩
  | @head a d hwaits _ ih =>
      obtain ⟨l, τ, hbuilt, hcl, hdl⟩ := ih
      by_cases ha : a ∈ l
      · exact ⟨l, τ, hbuilt, hcl, ha⟩
      · obtain ⟨n, hnew, -⟩ := hbuilt.extend hσ hwaits hdl (Or.inl ha)
        exact ⟨_, _, hnew, List.mem_cons_of_mem _ hcl, List.mem_cons_self⟩

omit [DecidableEq ι] in
/-- Whoever stands in a ring is followed by one that stands in it. -/
theorem transGen_followed {R : ι → ι → Prop} {a b d : ι} (h : Relation.TransGen R a b)
    (hb : R b d) : Relation.TransGen (fun x y => R x y ∧ ∃ z, R y z) a b := by
  induction h using Relation.TransGen.head_induction_on with
  | single hab => exact .single ⟨hab, d, hb⟩
  | head hax hxb ih =>
      obtain ⟨z, hxz, -⟩ := Relation.TransGen.head'_iff.mp hxb
      exact .head ⟨hax, z, hxz⟩ ih

omit [DecidableEq ι] in
theorem ring_followed {R : ι → ι → Prop} {a : ι} (h : Relation.TransGen R a a) :
    Relation.TransGen (fun x y => R x y ∧ ∃ z, R y z) a a := by
  obtain ⟨d, had, -⟩ := Relation.TransGen.head'_iff.mp h
  exact transGen_followed h had

omit [DecidableEq ι] in
/-- Finitely many agents, each of which waits for one of them, wait in a ring. -/
theorem exists_ring {R : ι → ι → Prop} {l : List ι} {c : ι} (hc : c ∈ l)
    (h : ∀ i ∈ l, ∃ j ∈ l, R i j) : ∃ i, Relation.TransGen R i i := by
  by_contra hno
  push Not at hno
  let r : {i // i ∈ l} → {i // i ∈ l} → Prop := fun x y => Relation.TransGen R y.1 x.1
  have : IsTrans _ r := ⟨fun _ _ _ hab hbc => hbc.trans hab⟩
  have : Std.Irrefl r := ⟨fun x => hno x.1⟩
  have : Finite {i // i ∈ l} := (List.finite_toSet l).to_subtype
  have hwf : WellFounded r := Finite.wellFounded_of_trans_of_irrefl r
  obtain ⟨x, -, hmin⟩ := hwf.has_min Set.univ ⟨⟨c, hc⟩, trivial⟩
  obtain ⟨j, hj, hxj⟩ := h x.1 x.2
  exact hmin ⟨j, hj⟩ trivial (.single hxj)

/-- **Agents whose lists are tangled may come to wait in a ring.** -/
theorem deadlock_of_tangled (h : Tangled need) : ∃ τ, Reachable need τ ∧ Deadlock need τ := by
  obtain ⟨σ, hσ, c, hring⟩ := h
  obtain ⟨_, -, _, _, -, -, -, hheld⟩ := Relation.TransGen.tail'_iff.mp hring
  obtain ⟨b, hcb, hpath⟩ := Relation.TransGen.head'_iff.mp hring
  have hstart : Built need σ c [c] (Function.update (fun _ => 0) c (σ c)) := by
    refine ⟨reachable_of_canHold (hσ.canHold_of_mem hheld), fun i hi => ?_, fun i hi => ?_,
      fun i hi hic => absurd (List.mem_singleton.mp hi) hic⟩
    · obtain rfl := List.mem_singleton.mp hi
      obtain ⟨N, -, hgoes, -⟩ := hcb
      rw [Function.update_self]
      exact ⟨Nat.le_refl _, N, hgoes, hgoes.le⟩
    · exact Function.update_of_ne (mt List.mem_singleton.mpr hi) ..
  obtain ⟨l, τ, hbuilt, hcl, hbl⟩ := hstart.along hσ hpath
    ⟨List.mem_cons_self, List.mem_cons_self⟩
  obtain ⟨n, hnew, j, hjl, hblocked⟩ := hbuilt.extend hσ hcb hbl (Or.inr rfl)
  have heach : ∀ i ∈ c :: l, ∃ j ∈ c :: l, Waits need (Function.update τ c n) i j := by
    intro i hi
    by_cases hic : i = c
    · subst hic
      exact ⟨j, List.mem_cons_of_mem _ hjl, hblocked.waits⟩
    · obtain ⟨j', hj', hb'⟩ := hnew.blocked i hi hic
      exact ⟨j', hj', hb'.waits⟩
  exact ⟨_, hnew.reachable, exists_ring List.mem_cons_self heach⟩

end Tangles

end Taking
