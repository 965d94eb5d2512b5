import Mathlib.Data.List.Nodup
import Remediator.Models

set_option autoImplicit false

/-! # The ledger of decisions

What the approval rounds of a case are for, without tables and messages: a list of decisions,
one for each triage attempt that opened a round; the rounds whose label and whose rejection
comment were queued; and whether the case was rejected. A round is opened undecided and closes
the undecided ones before it; an undecided round is decided or expires; nothing else happens.
-/

namespace Remediator

structure Ledger where
  decisions : List ApprovalDecision := []
  /-- the triage attempt of each round -/
  attempts : List Nat := []
  labels : List Nat := []
  comments : List Nat := []
  rejected : Bool := false

namespace Ledger

/-- A new round supersedes the undecided ones. -/
def supersede (d : ApprovalDecision) : ApprovalDecision :=
  if d = .pending then .superseded else d

inductive Step : Ledger → Ledger → Prop
  | stay (l : Ledger) : Step l l
  | open (l : Ledger) {attempt : Nat} : attempt ∉ l.attempts →
      Step l { l with
        decisions := l.decisions.map supersede ++ [.pending]
        attempts := l.attempts ++ [attempt] }
  | expire (l : Ledger) {id : Nat} : l.decisions[id]? = some .pending →
      Step l { l with decisions := l.decisions.set id .expired }
  | approve (l : Ledger) {id : Nat} : l.decisions[id]? = some .pending →
      Step l { l with decisions := l.decisions.set id .approved, labels := l.labels ++ [id] }
  | reject (l : Ledger) {id : Nat} : l.decisions[id]? = some .pending →
      Step l { l with
        decisions := l.decisions.set id .rejected
        comments := l.comments ++ [id]
        rejected := true }

/-- A ledger that can be trusted: the undecided round is the last one, no attempt has two
rounds, and every decision has its single effect. -/
structure Sound (l : Ledger) : Prop where
  pending : ∀ i, l.decisions[i]? = some .pending → i + 1 = l.decisions.length
  rounds : l.attempts.length = l.decisions.length
  attempts : l.attempts.Nodup
  labels : l.labels.Nodup
  labelled : ∀ i, i ∈ l.labels ↔ l.decisions[i]? = some .approved
  comments : l.comments.Nodup
  commented : ∀ i, i ∈ l.comments ↔ l.decisions[i]? = some .rejected
  rejected : l.rejected = true ↔ ApprovalDecision.rejected ∈ l.decisions

theorem Sound.empty : Sound {} where
  pending := fun i h => by cases h
  rounds := rfl
  attempts := List.nodup_nil
  labels := List.nodup_nil
  labelled := by simp
  comments := List.nodup_nil
  commented := by simp
  rejected := by simp

/-! ## One step -/

theorem supersede_eq {d d' : ApprovalDecision} (hne : d' ≠ .superseded) (hp : d' ≠ .pending) :
    supersede d = d' ↔ d = d' := by
  unfold supersede
  split
  · next h =>
      subst h
      exact ⟨fun h => absurd h.symm hne, fun h => absurd h.symm hp⟩
  · rfl

theorem supersede_ne_pending (d : ApprovalDecision) : supersede d ≠ .pending := by
  unfold supersede
  split
  · exact ApprovalDecision.noConfusion
  · next h => exact h

/-- What a new round leaves of the decisions before it. -/
theorem opened_eq {ds : List ApprovalDecision} {i : Nat} {d : ApprovalDecision}
    (hne : d ≠ .superseded) (hp : d ≠ .pending) :
    (ds.map supersede ++ [.pending])[i]? = some d ↔ ds[i]? = some d := by
  rw [List.getElem?_append]
  split
  · rw [List.getElem?_map, Option.map_eq_some_iff]
    constructor
    · rintro ⟨d', hd', hs⟩
      rw [hd', (supersede_eq hne hp).mp hs]
    · intro h
      exact ⟨d, h, (supersede_eq hne hp).mpr rfl⟩
  · next hlt =>
      rw [List.length_map] at hlt ⊢
      constructor
      · intro h
        cases hi : i - ds.length with
        | zero =>
            rw [hi] at h
            exact absurd (Option.some.inj h).symm hp
        | succ n =>
            rw [hi] at h
            cases h
      · intro h
        have hi := (List.getElem?_eq_some_iff.mp h).1
        omega

/-- Deciding the undecided round `id`. -/
theorem set_eq {ds : List ApprovalDecision} {id i : Nat} {d d' : ApprovalDecision}
    (hid : ds[id]? = some .pending) :
    (ds.set id d')[i]? = some d ↔ (i = id ∧ d = d') ∨ (i ≠ id ∧ ds[i]? = some d) := by
  have hlt := (List.getElem?_eq_some_iff.mp hid).1
  rw [List.getElem?_set]
  by_cases hi : id = i
  · subst hi
    simp [hlt, eq_comm]
  · simp [hi, Ne.symm hi]

/-- The effect `es` of one kind of decision, after an undecided round was decided so. -/
theorem effect_decided {ds : List ApprovalDecision} {es : List Nat} {id : Nat}
    {d : ApprovalDecision} (hid : ds[id]? = some .pending) (hp : d ≠ .pending)
    (hnodup : es.Nodup) (heff : ∀ i, i ∈ es ↔ ds[i]? = some d) :
    (es ++ [id]).Nodup ∧ ∀ i, i ∈ es ++ [id] ↔ (ds.set id d)[i]? = some d := by
  have hfresh : id ∉ es := by
    intro hmem
    have h := (heff id).mp hmem
    rw [hid] at h
    exact hp (Option.some.inj h).symm
  refine ⟨List.nodup_append.mpr ⟨hnodup, List.nodup_singleton id, ?_⟩, fun i => ?_⟩
  · intro a ha b hb hab
    rw [List.mem_singleton.mp hb] at hab
    exact hfresh (hab ▸ ha)
  · rw [List.mem_append, List.mem_singleton, heff, set_eq hid]
    constructor
    · rintro (h | rfl)
      · by_cases hi : i = id
        · exact Or.inl ⟨hi, rfl⟩
        · exact Or.inr ⟨hi, h⟩
      · exact Or.inl ⟨rfl, rfl⟩
    · rintro (⟨rfl, -⟩ | ⟨-, h⟩)
      · exact Or.inr rfl
      · exact Or.inl h

/-- The effect of another kind of decision stays. -/
theorem effect_kept {ds : List ApprovalDecision} {es : List Nat} {id : Nat}
    {d d' : ApprovalDecision} (hid : ds[id]? = some .pending) (hp : d ≠ .pending) (hne : d ≠ d')
    (heff : ∀ i, i ∈ es ↔ ds[i]? = some d) :
    ∀ i, i ∈ es ↔ (ds.set id d')[i]? = some d := by
  intro i
  rw [heff, set_eq hid]
  constructor
  · intro h
    refine Or.inr ⟨?_, h⟩
    rintro rfl
    rw [hid] at h
    exact hp (Option.some.inj h).symm
  · rintro (⟨-, h⟩ | ⟨-, h⟩)
    · exact absurd h hne
    · exact h

/-- The undecided round is the last one, and deciding it leaves none. -/
theorem Sound.pending_set {l : Ledger} (h : Sound l) {id : Nat} {d : ApprovalDecision}
    (hid : l.decisions[id]? = some .pending) (hp : d ≠ .pending) (i : Nat) :
    (l.decisions.set id d)[i]? ≠ some .pending := by
  intro hi
  rw [List.getElem?_set] at hi
  split at hi
  · split at hi
    · exact hp (Option.some.inj hi)
    · cases hi
  · next hne =>
      have h₁ := h.pending id hid
      have h₂ := h.pending i hi
      omega

theorem mem_set_rejected {ds : List ApprovalDecision} {id : Nat} {d : ApprovalDecision}
    (hid : ds[id]? = some .pending) (hne : d ≠ .rejected) :
    .rejected ∈ ds.set id d ↔ .rejected ∈ ds := by
  rw [List.mem_iff_getElem?, List.mem_iff_getElem?]
  constructor
  · rintro ⟨i, hi⟩
    rcases (set_eq hid).mp hi with ⟨-, h⟩ | ⟨-, h⟩
    · exact absurd h.symm hne
    · exact ⟨i, h⟩
  · rintro ⟨i, hi⟩
    refine ⟨i, (set_eq hid).mpr (Or.inr ⟨?_, hi⟩)⟩
    rintro rfl
    rw [hid] at hi
    cases hi

theorem Sound.step {l l' : Ledger} (h : Sound l) (hs : Step l l') : Sound l' := by
  cases hs with
  | stay => exact h
  | @«open» attempt hfresh =>
      refine ⟨fun i hi => ?_, ?_, ?_, h.labels, fun i => ?_, h.comments, fun i => ?_, ?_⟩
      · -- only the new round is undecided
        rw [List.getElem?_append] at hi
        split at hi
        · rw [List.getElem?_map, Option.map_eq_some_iff] at hi
          obtain ⟨d, -, hd⟩ := hi
          exact absurd hd (supersede_ne_pending d)
        · next hlt =>
            have hlast := (List.getElem?_eq_some_iff.mp hi).1
            simp only [List.length_map, List.length_singleton, List.length_append] at hlt hlast ⊢
            omega
      · simp [h.rounds]
      · refine List.nodup_append.mpr ⟨h.attempts, List.nodup_singleton _, ?_⟩
        intro a ha b hb hab
        rw [List.mem_singleton.mp hb] at hab
        exact hfresh (hab ▸ ha)
      · rw [opened_eq ApprovalDecision.noConfusion ApprovalDecision.noConfusion]
        exact h.labelled i
      · rw [opened_eq ApprovalDecision.noConfusion ApprovalDecision.noConfusion]
        exact h.commented i
      · rw [h.rejected, List.mem_iff_getElem?, List.mem_iff_getElem?]
        simp only [opened_eq (d := .rejected) ApprovalDecision.noConfusion
          ApprovalDecision.noConfusion]
  | @expire id hid =>
      have hp : ApprovalDecision.expired ≠ .pending := ApprovalDecision.noConfusion
      exact ⟨fun i hi => absurd hi (h.pending_set hid hp i), by simp [h.rounds], h.attempts,
        h.labels, effect_kept hid ApprovalDecision.noConfusion ApprovalDecision.noConfusion h.labelled,
        h.comments,
        effect_kept hid ApprovalDecision.noConfusion ApprovalDecision.noConfusion h.commented,
        h.rejected.trans (mem_set_rejected hid ApprovalDecision.noConfusion).symm⟩
  | @approve id hid =>
      have hp : ApprovalDecision.approved ≠ .pending := ApprovalDecision.noConfusion
      obtain ⟨hnodup, heff⟩ := effect_decided hid hp h.labels h.labelled
      exact ⟨fun i hi => absurd hi (h.pending_set hid hp i), by simp [h.rounds], h.attempts,
        hnodup, heff, h.comments,
        effect_kept hid ApprovalDecision.noConfusion ApprovalDecision.noConfusion h.commented,
        h.rejected.trans (mem_set_rejected hid ApprovalDecision.noConfusion).symm⟩
  | @reject id hid =>
      have hp : ApprovalDecision.rejected ≠ .pending := ApprovalDecision.noConfusion
      obtain ⟨hnodup, heff⟩ := effect_decided hid hp h.comments h.commented
      refine ⟨fun i hi => absurd hi (h.pending_set hid hp i), by simp [h.rounds], h.attempts,
        h.labels, effect_kept hid ApprovalDecision.noConfusion ApprovalDecision.noConfusion h.labelled,
        hnodup, heff, ?_⟩
      have hmem : ApprovalDecision.rejected ∈ l.decisions.set id .rejected :=
        List.mem_iff_getElem?.mpr ⟨id, (set_eq hid).mpr (Or.inl ⟨rfl, rfl⟩)⟩
      simp [hmem]

/-- A decision that was made stays as it is. -/
def Kept (l l' : Ledger) : Prop :=
  ∀ (i : Nat) (d : ApprovalDecision), l.decisions[i]? = some d → d ≠ .pending → l'.decisions[i]? = some d

theorem Kept.refl (l : Ledger) : Kept l l := fun _ _ h _ => h

theorem Kept.trans {l l' l'' : Ledger} (h : Kept l l') (h' : Kept l' l'') : Kept l l'' :=
  fun i d hd hp => h' i d (h i d hd hp) hp

theorem Step.kept {l l' : Ledger} (hs : Step l l') : Kept l l' := by
  have hset : ∀ {id : Nat} {d : ApprovalDecision}, l.decisions[id]? = some .pending →
      ∀ (i : Nat) (d' : ApprovalDecision), l.decisions[i]? = some d' → d' ≠ .pending →
        (l.decisions.set id d)[i]? = some d' := by
    intro id d hid i d' hd hp
    refine (set_eq hid).mpr (Or.inr ⟨?_, hd⟩)
    rintro rfl
    rw [hid] at hd
    exact hp (Option.some.inj hd).symm
  cases hs with
  | stay => exact Kept.refl l
  | «open» hfresh =>
      intro i d hd hp
      have hlt := (List.getElem?_eq_some_iff.mp hd).1
      rw [List.getElem?_append_left (by simpa using hlt), List.getElem?_map, hd]
      simp [supersede, hp]
  | expire hid => exact hset hid
  | approve hid => exact hset hid
  | reject hid => exact hset hid

end Ledger

end Remediator
