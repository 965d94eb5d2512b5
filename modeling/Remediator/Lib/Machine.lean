import Mathlib.Logic.Basic
import Mathlib.Tactic.Common

set_option autoImplicit false

/-! # Runs of a machine

A machine is a partial step function on a state; a label that is not enabled has no result. A run
is a sequence of steps that all meet a side condition, and an invariant of the steps that meet it
holds in every state of a run.
-/

namespace Machine

variable {σ α : Type}

/-- The states that are reached by steps that all meet `ok`. -/
inductive Reaches (step : σ → α → Option σ) (ok : σ → α → Bool) (s₀ : σ) : σ → Prop
  | init : Reaches step ok s₀ s₀
  | next {s s' : σ} (a : α) : Reaches step ok s₀ s → ok s a = true → step s a = some s' →
      Reaches step ok s₀ s'

/-- The state a schedule leads to, if each of its steps is enabled and meets `ok`. -/
def runAll (step : σ → α → Option σ) (ok : σ → α → Bool) : List α → σ → Option σ
  | [], s => some s
  | a :: as, s => if ok s a then (step s a).bind (runAll step ok as) else none

section Runs

variable {step : σ → α → Option σ} {ok : σ → α → Bool} {s₀ : σ}

/-- **An invariant of the steps holds in every state of a run.** -/
theorem Reaches.inv {P : σ → Prop} (h₀ : P s₀)
    (hstep : ∀ s a s', P s → ok s a = true → step s a = some s' → P s') {s : σ}
    (h : Reaches step ok s₀ s) : P s := by
  induction h with
  | init => exact h₀
  | next a _ hok hs ih => exact hstep _ a _ ih hok hs

/-- Whatever side condition a run meets, it is a run. -/
theorem Reaches.weaken {s : σ} (h : Reaches step ok s₀ s) : Reaches step (fun _ _ => true) s₀ s := by
  induction h with
  | init => exact .init
  | next a _ _ hs ih => exact ih.next a rfl hs

theorem Reaches.runAll {s s' : σ} {as : List α} (h : Reaches step ok s₀ s)
    (hrun : Machine.runAll step ok as s = some s') : Reaches step ok s₀ s' := by
  induction as generalizing s with
  | nil =>
      cases hrun
      exact h
  | cons a as ih =>
      simp only [Machine.runAll] at hrun
      split at hrun
      · next hok =>
          obtain ⟨s₁, hs₁, hrest⟩ := Option.bind_eq_some_iff.mp hrun
          exact ih (h.next a hok hs₁) hrest
      · cases hrun

/-- What a schedule shows is shown by a state that is reached. -/
theorem exists_of_runAll {β : Type} (step : σ → α → Option σ) (ok : σ → α → Bool) (s₀ : σ)
    (as : List α) (view : σ → β) (x : β)
    (h : (Machine.runAll step ok as s₀).map view = some x) :
    ∃ s, Reaches step ok s₀ s ∧ view s = x := by
  obtain ⟨s, hs, hview⟩ := Option.map_eq_some_iff.mp h
  exact ⟨s, Reaches.init.runAll hs, hview⟩

end Runs

end Machine
