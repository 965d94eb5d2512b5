import Remediator.Lib.Runs

set_option autoImplicit false

/-! # Faults that end a program

An answer of the environment may be a fault. A program is *brittle* when every fault among its
answers ends it with one particular exception, and when nothing else raises that exception: no
handler inside the program survives the fault, and no part of it feigns one.
-/

namespace Interleave

variable {σ ι Op ε α β : Type} {bad : ι → Prop} {e : ε}

namespace Prog

/-- A `bad` answer raises `e`, and `e` is raised by nothing else. -/
def Brittle (bad : ι → Prop) (e : ε) : Prog σ ι Op ε α → Prop
  | .ret _ => True
  | .raise e' => e' ≠ e
  | .act _ next => ∀ i s, (bad i → next i s = .raise e) ∧ (¬ bad i → (next i s).Brittle bad e)

theorem Brittle.bind {p : Prog σ ι Op ε α} {k : α → Prog σ ι Op ε β} (hp : p.Brittle bad e)
    (hk : ∀ a, (k a).Brittle bad e) : (p.bind k).Brittle bad e := by
  induction p with
  | ret a => exact hk a
  | raise e' => exact hp
  | act op next ih =>
      intro i s
      constructor
      · intro hbad
        show (next i s).bind k = .raise e
        rw [(hp i s).1 hbad]
        rfl
      · intro hgood
        exact ih i s ((hp i s).2 hgood)

/-- A handler that passes the exception on. -/
theorem Brittle.handle {p : Prog σ ι Op ε α} {handler : ε → Prog σ ι Op ε α}
    (hp : p.Brittle bad e) (hpass : handler e = .raise e)
    (hh : ∀ e', e' ≠ e → (handler e').Brittle bad e) : (p.handle handler).Brittle bad e := by
  induction p with
  | ret a => trivial
  | raise e' => exact hh e' hp
  | act op next ih =>
      intro i s
      constructor
      · intro hbad
        show (next i s).handle handler = .raise e
        rw [(hp i s).1 hbad]
        exact hpass
      · intro hgood
        exact ih i s ((hp i s).2 hgood)

/-- **A run of a brittle program ends with the exception exactly when it met a fault.** -/
theorem Brittle.runs_iff {apply : Op → σ → σ} {R : σ → σ → Prop} {p : Prog σ ι Op ε α}
    (hp : p.Brittle bad e) {s s' : σ} {l : List (ι × σ)} {r : Except ε α}
    (h : p.Runs apply R s l r s') (view : ι → ι) :
    r = .error e ↔ ∃ step ∈ p.stepsBy view l, bad step.answer := by
  induction p generalizing s l with
  | ret a =>
      obtain ⟨rfl, rfl, -⟩ := h.ret_inv
      simp
  | raise e' =>
      obtain ⟨rfl, rfl, -⟩ := h.raise_inv
      have hne : e' ≠ e := hp
      simp [hne]
  | act op next ih =>
      obtain ⟨i, s₁, l', -, rfl, hn⟩ := h.act_inv
      show _ ↔ ∃ step ∈ ⟨i, s₁, op (view i) s₁⟩ :: (next i s₁).stepsBy view l', bad step.answer
      simp only [List.mem_cons, exists_eq_or_imp]
      by_cases hbad : bad i
      · -- nothing runs after a fault
        rw [(hp i s₁).1 hbad] at hn
        obtain ⟨-, rfl, -⟩ := hn.raise_inv
        exact iff_of_true rfl (Or.inl hbad)
      · rw [ih i s₁ ((hp i s₁).2 hbad) hn]
        constructor
        · exact Or.inr
        · rintro (h | h)
          · exact absurd h hbad
          · exact h

end Prog

end Interleave
