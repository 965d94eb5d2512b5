import Mathlib.Data.List.Nodup
import Mathlib.Tactic.Common

set_option autoImplicit false

/-! # Ordered dictionaries

A dictionary that remembers the order in which its keys were inserted: assigning a key that is
present keeps its place, a new key goes to the end, and the oldest entry is the head.
-/

namespace OrderedDict

variable {α β : Type} [DecidableEq α]

/-- `d[k] = v`. -/
def assign (k : α) (v : β) : List (α × β) → List (α × β)
  | [] => [(k, v)]
  | p :: d => if p.1 = k then (k, v) :: d else p :: assign k v d

/-- `d.setdefault(k, v)`. -/
def setdefault (k : α) (v : β) (d : List (α × β)) : List (α × β) :=
  if (List.lookup k d).isSome then d else d ++ [(k, v)]

/-- `d.pop(k, None)`. -/
def erase (k : α) (d : List (α × β)) : List (α × β) := d.filter (fun p => decide (p.1 ≠ k))

theorem lookup_cons_ne {k : α} {p : α × β} (h : p.1 ≠ k) (d : List (α × β)) :
    List.lookup k (p :: d) = List.lookup k d := by
  obtain ⟨k', v⟩ := p
  have hbeq : (k == k') = false := beq_eq_false_iff_ne.mpr (Ne.symm h)
  rw [List.lookup_cons, hbeq]

theorem lookup_cons_eq (k : α) (v : β) (d : List (α × β)) :
    List.lookup k ((k, v) :: d) = some v := by
  rw [List.lookup_cons, beq_self_eq_true]

theorem lookup_assign (k k' : α) (v : β) (d : List (α × β)) :
    List.lookup k' (assign k v d) = if k' = k then some v else List.lookup k' d := by
  induction d with
  | nil =>
      unfold assign
      by_cases hk : k' = k
      · rw [if_pos hk, hk, lookup_cons_eq]
      · rw [if_neg hk, lookup_cons_ne (Ne.symm hk)]
  | cons p d ih =>
      unfold assign
      by_cases hp : p.1 = k
      · rw [if_pos hp]
        by_cases hk : k' = k
        · rw [if_pos hk, hk, lookup_cons_eq]
        · have hne : p.1 ≠ k' := fun h => hk (h.symm.trans hp)
          rw [if_neg hk, lookup_cons_ne (Ne.symm hk), lookup_cons_ne hne]
      · rw [if_neg hp]
        by_cases hpk : p.1 = k'
        · have hk : k' ≠ k := fun h => hp (hpk.trans h)
          obtain ⟨q, v'⟩ := p
          change q = k' at hpk
          rw [hpk, lookup_cons_eq, lookup_cons_eq, if_neg hk]
        · rw [lookup_cons_ne hpk, lookup_cons_ne hpk, ih]

theorem lookup_erase_ne {k k' : α} (h : k' ≠ k) (d : List (α × β)) :
    List.lookup k' (erase k d) = List.lookup k' d := by
  unfold erase
  induction d with
  | nil => rfl
  | cons p d ih =>
      by_cases hp : p.1 = k
      · have hne : p.1 ≠ k' := fun hk => h (hk.symm.trans hp)
        rw [List.filter_cons_of_neg (by simpa using hp), ih, lookup_cons_ne hne]
      · rw [List.filter_cons_of_pos (by simpa using hp)]
        by_cases hpk : p.1 = k'
        · obtain ⟨q, v⟩ := p
          change q = k' at hpk
          rw [hpk, lookup_cons_eq, lookup_cons_eq]
        · rw [lookup_cons_ne hpk, lookup_cons_ne hpk, ih]

theorem lookup_erase_self (k : α) (d : List (α × β)) : List.lookup k (erase k d) = none := by
  unfold erase
  induction d with
  | nil => rfl
  | cons p d ih =>
      by_cases hp : p.1 = k
      · rw [List.filter_cons_of_neg (by simpa using hp), ih]
      · rw [List.filter_cons_of_pos (by simpa using hp), lookup_cons_ne hp, ih]

theorem mem_of_lookup {k : α} {v : β} {d : List (α × β)} (h : List.lookup k d = some v) :
    (k, v) ∈ d := by
  induction d with
  | nil => cases h
  | cons p d ih =>
      by_cases hp : p.1 = k
      · obtain ⟨q, w⟩ := p
        change q = k at hp
        rw [hp, lookup_cons_eq] at h
        cases h
        rw [hp]
        exact List.mem_cons_self
      · rw [lookup_cons_ne hp] at h
        exact List.mem_cons_of_mem _ (ih h)

theorem mem_assign {k : α} {v : β} {p : α × β} {d : List (α × β)} (h : p ∈ assign k v d) :
    p = (k, v) ∨ p ∈ d := by
  induction d with
  | nil => exact Or.inl (List.mem_singleton.mp h)
  | cons q d ih =>
      unfold assign at h
      split at h
      · exact (List.mem_cons.mp h).imp_right (List.mem_cons_of_mem _)
      · rcases List.mem_cons.mp h with heq | hmem
        · exact Or.inr (List.mem_cons.mpr (Or.inl heq))
        · exact (ih hmem).imp_right (List.mem_cons_of_mem _)

/-- Dropping the oldest entries loses only their keys. -/
theorem lookup_drop {k : α} {n : Nat} {d : List (α × β)} (h : k ∉ (d.take n).map (·.1)) :
    List.lookup k (d.drop n) = List.lookup k d := by
  induction d generalizing n with
  | nil => rw [List.drop_nil]
  | cons p d ih =>
      cases n with
      | zero => rfl
      | succ n =>
          rw [List.take_succ_cons, List.map_cons, List.mem_cons, not_or] at h
          rw [List.drop_succ_cons, ih h.2, lookup_cons_ne (Ne.symm h.1)]

theorem lookup_foldl_erase {k : α} {ks : List α} (h : k ∉ ks) (d : List (α × β)) :
    List.lookup k (ks.foldl (fun d k' => erase k' d) d) = List.lookup k d := by
  induction ks generalizing d with
  | nil => rfl
  | cons k' ks ih =>
      rw [List.mem_cons, not_or] at h
      rw [List.foldl_cons, ih h.2, lookup_erase_ne h.1]

theorem mem_keys_of_lookup {k : α} {v : β} {d : List (α × β)} (h : List.lookup k d = some v) :
    k ∈ d.map (·.1) :=
  List.mem_map_of_mem (mem_of_lookup h)

theorem mem_keys_assign {k k' : α} {v : β} {d : List (α × β)}
    (h : k' ∈ (assign k v d).map (·.1)) : k' = k ∨ k' ∈ d.map (·.1) := by
  obtain ⟨p, hp, hk⟩ := List.mem_map.mp h
  rcases mem_assign hp with heq | hmem
  · rw [heq] at hk
    exact Or.inl hk.symm
  · exact Or.inr (hk ▸ List.mem_map_of_mem hmem)

theorem nodup_keys_assign {k : α} {v : β} {d : List (α × β)} (h : (d.map (·.1)).Nodup) :
    ((assign k v d).map (·.1)).Nodup := by
  induction d with
  | nil => exact List.nodup_singleton k
  | cons p d ih =>
      rw [List.map_cons, List.nodup_cons] at h
      unfold assign
      split
      · next hp =>
          rw [List.map_cons, List.nodup_cons]
          exact ⟨hp ▸ h.1, h.2⟩
      · next hp =>
          rw [List.map_cons, List.nodup_cons]
          refine ⟨fun hmem => ?_, ih h.2⟩
          exact (mem_keys_assign hmem).elim hp h.1

theorem mem_keys_iff {k : α} {d : List (α × β)} :
    k ∈ d.map (·.1) ↔ (List.lookup k d).isSome = true := by
  induction d with
  | nil => simp
  | cons p d ih =>
      by_cases hp : p.1 = k
      · obtain ⟨q, v⟩ := p
        change q = k at hp
        rw [hp, lookup_cons_eq, List.map_cons]
        simp
      · rw [lookup_cons_ne hp, List.map_cons, List.mem_cons, ih]
        exact ⟨fun h => h.resolve_left (Ne.symm hp), Or.inr⟩

theorem lookup_append (k : α) (d e : List (α × β)) :
    List.lookup k (d ++ e) = (List.lookup k d).or (List.lookup k e) := by
  induction d with
  | nil => rfl
  | cons p d ih =>
      by_cases hp : p.1 = k
      · obtain ⟨q, v⟩ := p
        change q = k at hp
        rw [List.cons_append, hp, lookup_cons_eq, lookup_cons_eq, Option.some_or]
      · rw [List.cons_append, lookup_cons_ne hp, lookup_cons_ne hp, ih]

/-- A default does not replace a value. -/
theorem lookup_setdefault (k k' : α) (v : β) (d : List (α × β)) :
    List.lookup k' (setdefault k v d) =
      (List.lookup k' d).or (if k' = k then some v else none) := by
  have hnew : List.lookup k' [(k, v)] = if k' = k then some v else none := by
    by_cases hk : k' = k
    · rw [if_pos hk, hk, lookup_cons_eq]
    · rw [if_neg hk, lookup_cons_ne (Ne.symm hk), List.lookup_nil]
  unfold setdefault
  split
  · next h =>
      by_cases hk : k' = k
      · obtain ⟨w, hw⟩ := Option.isSome_iff_exists.mp h
        rw [hk, hw, Option.some_or]
      · rw [if_neg hk, Option.or_none]
  · rw [lookup_append, hnew]

/-- With distinct keys, what is left after dropping the oldest entries is none of them. -/
theorem notMem_take_of_drop {k : α} {v : β} {n : Nat} {d : List (α × β)}
    (hkeys : (d.map (·.1)).Nodup) (h : List.lookup k (d.drop n) = some v) :
    k ∉ (d.take n).map (·.1) := by
  intro hmem
  rw [← List.take_append_drop n d, List.map_append] at hkeys
  exact List.disjoint_of_nodup_append hkeys hmem (mem_keys_of_lookup h)

theorem lookup_of_drop {k : α} {v : β} {n : Nat} {d : List (α × β)} (hkeys : (d.map (·.1)).Nodup)
    (h : List.lookup k (d.drop n) = some v) : List.lookup k d = some v := by
  rw [← h, lookup_drop (notMem_take_of_drop hkeys h)]

end OrderedDict
