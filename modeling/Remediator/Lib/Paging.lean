import Mathlib.Data.List.Basic
import Mathlib.Data.List.Flatten
import Mathlib.Tactic.Common

set_option autoImplicit false

/-! # Paged reads

A reader asks for one page after the other, up to a cap, and joins what it takes from them. On a
page it raises, takes some entries and goes on, or takes some and stops. Whether it can have
missed an entry is a question about the pages that hold entries: each of them has to be asked
for, within the cap, and taken.
-/

namespace Paging

variable {α ε : Type}

/-- What a reader does with the answer to one request. -/
inductive Turn (α ε : Type)
  | raise (e : ε)
  | stop (taken : List α)
  | more (taken : List α)

/-- What is taken from the page. -/
def Turn.taken : Turn α ε → List α
  | .raise _ => []
  | .stop taken => taken
  | .more taken => taken

/-- Whether the reader goes on to the next page. -/
def Turn.goesOn : Turn α ε → Bool
  | .more _ => true
  | _ => false

def Turn.raises : Turn α ε → Bool
  | .raise _ => true
  | _ => false

/-- Read at most `n` pages from the page `k` on. -/
def walk (turn : Nat → Turn α ε) : Nat → Nat → Except ε (List α)
  | 0, _ => .ok []
  | n + 1, k =>
      match turn k with
      | .raise e => .error e
      | .stop taken => .ok taken
      | .more taken => (walk turn n (k + 1)).map (taken ++ ·)

/-- The reader asks for the page `k` within its cap: it went on after every page before. -/
def Asked (turn : Nat → Turn α ε) (cap k : Nat) : Prop :=
  k < cap ∧ ∀ j < k, (turn j).goesOn = true

/-- A request of the reader raises. -/
def Raises (turn : Nat → Turn α ε) (cap : Nat) : Prop :=
  ∃ k, Asked turn cap k ∧ (turn k).raises = true

/-! ## What a walk returns -/

/-- The reader gets from the page `k` to the page `j`. -/
def Through (turn : Nat → Turn α ε) (k j : Nat) : Prop :=
  ∀ i, k ≤ i → i < j → (turn i).goesOn = true

theorem through_succ {turn : Nat → Turn α ε} {k j : Nat} (hgo : (turn k).goesOn = true) :
    Through turn k j ↔ Through turn (k + 1) j := by
  constructor
  · intro h i hk hj
    exact h i (by omega) hj
  · intro h i hk hj
    by_cases heq : i = k
    · rw [heq]
      exact hgo
    · exact h i (by omega) hj

open Classical in
/-- A walk joins what it takes from the pages it gets to. -/
theorem walk_ok {turn : Nat → Turn α ε} {n k : Nat} {r : List α} (h : walk turn n k = .ok r) :
    r = (List.range' k n).flatMap (fun j => if Through turn k j then (turn j).taken else []) ∧
      ∀ j, k ≤ j → j < k + n → Through turn k j → (turn j).raises = false := by
  induction n generalizing k r with
  | zero =>
      obtain rfl := Except.ok.inj h
      refine ⟨rfl, ?_⟩
      intro j hk hj
      omega
  | succ n ih =>
      have hself : Through turn k k := fun i hk hj => by omega
      rw [List.range'_succ, List.flatMap_cons, if_pos hself]
      unfold walk at h
      cases hturn : turn k with
      | raise e =>
          rw [hturn] at h
          cases h
      | stop taken =>
          rw [hturn] at h
          obtain rfl := Except.ok.inj h
          have hend : ∀ j, k < j → ¬Through turn k j := by
            intro j hj hthrough
            have hgo := hthrough k (Nat.le_refl k) hj
            rw [hturn] at hgo
            cases hgo
          constructor
          · rw [List.flatMap_eq_nil_iff.mpr, List.append_nil]
            · rfl
            · intro j hj
              rw [List.mem_range'_1] at hj
              rw [if_neg (hend j (by omega))]
          · intro j hk hj hthrough
            by_cases heq : j = k
            · rw [heq, hturn]
              rfl
            · exact absurd hthrough (hend j (by omega))
      | more taken =>
          rw [hturn] at h
          have hgo : (turn k).goesOn = true := by rw [hturn]; rfl
          cases hrest : walk turn n (k + 1) with
          | error e =>
              simp only [hrest] at h
              cases h
          | ok rest =>
              simp only [hrest] at h
              obtain rfl := Except.ok.inj h
              obtain ⟨hr, hfine⟩ := ih hrest
              constructor
              · rw [hr]
                refine congrArg (taken ++ ·) ?_
                simp only [through_succ hgo]
              · intro j hk hj hthrough
                by_cases heq : j = k
                · rw [heq, hturn]
                  rfl
                · exact hfine j (by omega) (by omega) ((through_succ hgo).mp hthrough)

theorem walk_error {turn : Nat → Turn α ε} {n k : Nat} {e : ε} (h : walk turn n k = .error e) :
    ∃ j, k ≤ j ∧ j < k + n ∧ Through turn k j ∧ turn j = .raise e := by
  induction n generalizing k e with
  | zero => cases h
  | succ n ih =>
      unfold walk at h
      cases hturn : turn k with
      | raise e' =>
          rw [hturn] at h
          obtain rfl := Except.error.inj h
          exact ⟨k, Nat.le_refl k, by omega, fun i hk hj => by omega, hturn⟩
      | stop taken =>
          rw [hturn] at h
          cases h
      | more taken =>
          rw [hturn] at h
          cases hrest : walk turn n (k + 1) with
          | ok rest =>
              simp only [hrest] at h
              cases h
          | error e' =>
              simp only [hrest] at h
              obtain rfl := Except.error.inj h
              obtain ⟨j, hk, hj, hthrough, hraises⟩ := ih hrest
              refine ⟨j, by omega, by omega, (through_succ ?_).mpr hthrough, hraises⟩
              rw [hturn]
              rfl

theorem through_zero {turn : Nat → Turn α ε} {cap k : Nat} (hk : k < cap) :
    Through turn 0 k ↔ Asked turn cap k :=
  ⟨fun h => ⟨hk, fun j hj => h j (Nat.zero_le j) hj⟩, fun h j _ hj => h.2 j hj⟩

/-! ## Complete reads -/

/-- Lists that are joined from parts, of which some are left out, are equal when nothing is. -/
theorem flatMap_eq_flatMap_iff {β : Type} {l : List β} {f g : β → List α}
    (h : ∀ x ∈ l, g x = f x ∨ g x = []) :
    l.flatMap g = l.flatMap f ↔ ∀ x ∈ l, g x = f x := by
  have hlen : ∀ l' : List β, (∀ x ∈ l', g x = f x ∨ g x = []) →
      (l'.flatMap g).length ≤ (l'.flatMap f).length := by
    intro l' h'
    induction l' with
    | nil => exact Nat.le_refl _
    | cons x l' ih =>
        rw [List.flatMap_cons, List.flatMap_cons, List.length_append, List.length_append]
        have hrest := ih (fun y hy => h' y (List.mem_cons_of_mem _ hy))
        rcases h' x List.mem_cons_self with heq | hnil
        · rw [heq]
          omega
        · rw [hnil, List.length_nil]
          omega
  induction l with
  | nil => simp
  | cons x l ih =>
      have hrest : ∀ y ∈ l, g y = f y ∨ g y = [] := fun y hy => h y (List.mem_cons_of_mem _ hy)
      have htail := ih hrest
      rw [List.flatMap_cons, List.flatMap_cons, List.forall_mem_cons]
      constructor
      · intro heq
        rcases h x List.mem_cons_self with hx | hnil
        · rw [hx] at heq
          exact ⟨hx, htail.mp (List.append_cancel_left heq)⟩
        · have hlen' := hlen l hrest
          have hlength := congrArg List.length heq
          rw [hnil, List.length_append, List.length_append, List.length_nil] at hlength
          have hf : f x = [] := List.length_eq_zero_iff.mp (by omega)
          rw [hnil, hf] at heq
          exact ⟨hnil.trans hf.symm, htail.mp heq⟩
      · rintro ⟨hx, heq⟩
        rw [hx, htail.mpr heq]

section Complete

variable {turn : Nat → Turn α ε} {entries : Nat → List α} {cap count : Nat}

/-- What a walk takes from a page: nothing from one that it does not ask for. -/
noncomputable def got (turn : Nat → Turn α ε) (cap k : Nat) : List α :=
  open Classical in if Asked turn cap k then (turn k).taken else []

theorem got_of_cap {k : Nat} (h : cap ≤ k) : got turn cap k = [] := by
  unfold got
  rw [if_neg]
  intro hasked
  exact absurd hasked.1 (by omega)

/-- A walk raises when one of its requests does, and returns what it got otherwise. -/
theorem walk_cases (turn : Nat → Turn α ε) (cap : Nat) :
    (Raises turn cap ∧ ∃ e, walk turn cap 0 = .error e) ∨
      ¬Raises turn cap ∧ walk turn cap 0 = .ok ((List.range cap).flatMap (got turn cap)) := by
  cases hwalk : walk turn cap 0 with
  | error e =>
      obtain ⟨j, _, hj, hthrough, hraise⟩ := walk_error hwalk
      have hcap : j < cap := by omega
      exact Or.inl ⟨⟨j, (through_zero hcap).mp hthrough, by rw [hraise]; rfl⟩, e, rfl⟩
  | ok r =>
      obtain ⟨hr, hfine⟩ := walk_ok hwalk
      refine Or.inr ⟨?_, congrArg Except.ok ?_⟩
      · rintro ⟨j, hasked, hraises⟩
        have hcap := hasked.1
        have hno := hfine j (Nat.zero_le j) (by omega) ((through_zero hcap).mpr hasked)
        rw [hraises] at hno
        cases hno
      · rw [hr, ← List.range_eq_range']
        refine List.flatMap_congr fun j hj => ?_
        have hcap := List.mem_range.mp hj
        unfold got
        by_cases hasked : Asked turn cap j
        · rw [if_pos ((through_zero hcap).mpr hasked), if_pos hasked]
        · rw [if_neg (fun h => hasked ((through_zero hcap).mp h)), if_neg hasked]

/-- A walk raises what the one request raises that it asks for and does not survive. -/
theorem walk_error_iff {e : ε} :
    walk turn cap 0 = .error e ↔ ∃ k, Asked turn cap k ∧ turn k = .raise e := by
  constructor
  · intro h
    obtain ⟨j, _, hj, hthrough, hraise⟩ := walk_error h
    have hcap : j < cap := by omega
    exact ⟨j, (through_zero hcap).mp hthrough, hraise⟩
  · rintro ⟨k, hasked, hraise⟩
    rcases walk_cases turn cap with ⟨_, e', hwalk⟩ | ⟨hnone, _⟩
    · obtain ⟨j, _, hj, hthrough, hraise'⟩ := walk_error hwalk
      have hcap : j < cap := by omega
      have hasked' := (through_zero hcap).mp hthrough
      -- the walk goes on after every request before the one that raises
      have heq : j = k := by
        rcases Nat.lt_trichotomy j k with hlt | heq | hlt
        · have hgo := hasked.2 j hlt
          rw [hraise'] at hgo
          cases hgo
        · exact heq
        · have hgo := hasked'.2 k hlt
          rw [hraise] at hgo
          cases hgo
      rw [heq, hraise] at hraise'
      rw [hwalk, Turn.raise.inj hraise']
    · exact absurd ⟨k, hasked, by rw [hraise]; rfl⟩ hnone

theorem flatMap_range_of_le {f : Nat → List α} {n m : Nat} (hnm : n ≤ m)
    (h : ∀ k, n ≤ k → f k = []) : (List.range m).flatMap f = (List.range n).flatMap f := by
  obtain ⟨d, rfl⟩ := Nat.exists_eq_add_of_le hnm
  have hrest : ((List.range d).map (n + ·)).flatMap f = [] := by
    rw [List.flatMap_eq_nil_iff]
    intro x hx
    obtain ⟨i, _, rfl⟩ := List.mem_map.mp hx
    exact h _ (by omega)
  rw [List.range_add, List.flatMap_append, hrest, List.append_nil]

theorem got_eq_iff {k : Nat} (htaken : (turn k).taken = entries k ∨ (turn k).taken = []) :
    got turn cap k = entries k ↔
      (entries k ≠ [] → Asked turn cap k ∧ (turn k).taken ≠ []) := by
  unfold got
  by_cases hasked : Asked turn cap k
  · rw [if_pos hasked]
    rcases htaken with heq | hnil
    · rw [heq]
      exact ⟨fun _ h => ⟨hasked, h⟩, fun _ => rfl⟩
    · rw [hnil]
      exact ⟨fun h hne => absurd h.symm hne, fun h => by_contra fun hne =>
        (h (fun h => hne h.symm)).2 rfl⟩
  · rw [if_neg hasked]
    exact ⟨fun h hne => absurd h.symm hne, fun h => by_contra fun hne =>
      hasked (h (fun h => hne h.symm)).1⟩

/-- **A walk returns every entry or raises exactly when a request raises, or every page with an
entry is asked for and taken.** From each page it takes all entries or none. -/
theorem walk_complete_iff (htaken : ∀ k, (turn k).taken = entries k ∨ (turn k).taken = [])
    (hcount : ∀ k, count ≤ k → entries k = []) :
    (∀ r, walk turn cap 0 = .ok r → r = (List.range count).flatMap entries) ↔
      Raises turn cap ∨ ∀ k, entries k ≠ [] → Asked turn cap k ∧ (turn k).taken ≠ [] := by
  rcases walk_cases turn cap with ⟨hraises, e, hwalk⟩ | ⟨hraises, hwalk⟩
  · rw [hwalk]
    exact ⟨fun _ => Or.inl hraises, fun _ r h => by cases h⟩
  · have hpart : ∀ k ∈ List.range (max cap count),
        got turn cap k = entries k ∨ got turn cap k = [] := by
      intro k _
      unfold got
      split
      · exact htaken k
      · exact Or.inr rfl
    have hiff := flatMap_eq_flatMap_iff hpart
    rw [flatMap_range_of_le (Nat.le_max_left cap count) (fun k => got_of_cap),
      flatMap_range_of_le (Nat.le_max_right cap count) hcount] at hiff
    rw [hwalk]
    constructor
    · intro h
      refine Or.inr fun k => (got_eq_iff (htaken k)).mp ?_
      by_cases hk : k < max cap count
      · exact hiff.mp (h _ rfl) k (List.mem_range.mpr hk)
      · rw [got_of_cap (by omega), hcount k (by omega)]
    · intro h r hr
      rw [← Except.ok.inj hr, hiff]
      exact fun k _ => (got_eq_iff (htaken k)).mpr (h.resolve_left hraises k)

/-- **A walk finds an entry if there is one or raises exactly when a request raises, there is no
entry, or some page with an entry is asked for and taken.** -/
theorem walk_finds_iff :
    (∀ r, walk turn cap 0 = .ok r → r = [] → ∀ k, entries k = []) ↔
      Raises turn cap ∨ (∀ k, entries k = []) ∨ ∃ k, Asked turn cap k ∧ (turn k).taken ≠ [] := by
  rcases walk_cases turn cap with ⟨hraises, e, hwalk⟩ | ⟨hraises, hwalk⟩
  · rw [hwalk]
    exact ⟨fun _ => Or.inl hraises, fun _ r h => by cases h⟩
  · have hnil : (List.range cap).flatMap (got turn cap) = [] ↔
        ¬∃ k, Asked turn cap k ∧ (turn k).taken ≠ [] := by
      rw [List.flatMap_eq_nil_iff]
      constructor
      · rintro h ⟨k, hasked, htake⟩
        have hgot := h k (List.mem_range.mpr hasked.1)
        unfold got at hgot
        rw [if_pos hasked] at hgot
        exact htake hgot
      · intro h k _
        unfold got
        split
        · next hasked => exact by_contra fun htake => h ⟨k, hasked, htake⟩
        · rfl
    rw [hwalk]
    constructor
    · intro h
      by_cases hfound : ∃ k, Asked turn cap k ∧ (turn k).taken ≠ []
      · exact Or.inr (Or.inr hfound)
      · exact Or.inr (Or.inl (h _ rfl (hnil.mpr hfound)))
    · rintro h r hr hempty
      obtain rfl := Except.ok.inj hr
      rcases h.resolve_left hraises with hnone | hfound
      · exact hnone
      · exact absurd hfound (hnil.mp hempty)

/-- A walk that takes from every page a part of its entries returns a part of all entries. -/
theorem walk_sublist (htaken : ∀ k, (turn k).taken.Sublist (entries k))
    (hcount : ∀ k, count ≤ k → entries k = []) {r : List α} (h : walk turn cap 0 = .ok r) :
    r.Sublist ((List.range count).flatMap entries) := by
  rcases walk_cases turn cap with ⟨_, e, hwalk⟩ | ⟨_, hwalk⟩
  · rw [hwalk] at h
    cases h
  · rw [hwalk] at h
    obtain rfl := Except.ok.inj h
    have hgot : ∀ k ∈ List.range cap, (got turn cap k).Sublist (entries k) := by
      intro k _
      unfold got
      split_ifs
      · exact htaken k
      · exact List.nil_sublist _
    refine (List.Sublist.flatMap_right _ hgot).trans ?_
    rw [← flatMap_range_of_le (Nat.le_max_left count cap) hcount]
    exact (List.range_sublist.mpr (Nat.le_max_right count cap)).flatMap entries

end Complete

end Paging
