import Remediator.Lib.Runs
import Remediator.System

set_option autoImplicit false

/-! # Runs of the programs

What one action of a run does, for the actions that the programs are made of.
-/

namespace Remediator

open Interleave

/-! ## Transactions -/

/-- A transaction of a run: it commits what the body returns on the store it meets. -/
theorem runs_tx {α : Type} {o : Owner} {body : Input → Store → Except Err (Txn × α)}
    {apply : Op → Store → Store} {R : Store → Store → Prop} {s s' : Store}
    {l : List (Input × Store)} {r : Except Err α} (h : (tx o body).Runs apply R s l r s') :
    ∃ i s₁, R s s₁ ∧ l = [(i, s₁)] ∧
      match Txn.outcome body i s₁ with
      | .ok (t, a) => r = .ok a ∧ s' = apply (.commit o t) s₁
      | .error e => r = .error e ∧ s' = apply .skip s₁ := by
  obtain ⟨i, s₁, l', hR, rfl, hn⟩ := Prog.Runs.act_inv h
  refine ⟨i, s₁, hR, ?_⟩
  cases hout : Txn.outcome body i s₁ with
  | error e =>
      simp only [hout] at hn ⊢
      obtain ⟨rfl, rfl, rfl⟩ := hn.raise_inv
      exact ⟨rfl, rfl, rfl⟩
  | ok x =>
      simp only [hout] at hn ⊢
      obtain ⟨rfl, rfl, rfl⟩ := hn.ret_inv
      exact ⟨rfl, rfl, rfl⟩

/-- The operation of a transaction. -/
def Txn.op {α : Type} (o : Owner) : Except Err (Txn × α) → Op
  | .ok (t, _) => .commit o t
  | .error _ => .skip

theorem steps_tx_one {α : Type} {o : Owner} {body : Input → Store → Except Err (Txn × α)} {i : Input}
    {s : Store} : (tx o body).steps [(i, s)] = [⟨i, s, Txn.op o (Txn.outcome body i s)⟩] :=
  congrArg (List.cons _) (Prog.steps_nil _)

theorem stepsBy_tx {α : Type} {o : Owner} {body : Input → Store → Except Err (Txn × α)}
    {view : Input → Input} {i : Input} {s : Store} {t : Txn} {a : α}
    (h : Txn.outcome body (view i) s = .ok (t, a)) :
    (tx o body).stepsBy view [(i, s)] = [⟨i, s, .commit o t⟩] := by
  refine congrArg₂ List.cons ?_ (Prog.stepsBy_nil _)
  dsimp only
  rw [h]

/-- A run whose first action is a transaction that commits. -/
theorem runs_commit {α β : Type} {apply : Op → Store → Store} {R : Store → Store → Prop} {o : Owner}
    {body : Input → Store → Except Err (Txn × α)} {k : α → P β} {i : Input} {s s' : Store} {t : Txn}
    {x : α} {l : List (Input × Store)} {res : Except Err β} (hR : R s s)
    (hout : Txn.outcome body i s = .ok (t, x))
    (h : (k x).Runs apply R (apply (.commit o t) s) l res s') :
    ((tx o body).bind k).Runs apply R s ((i, s) :: l) res s' := by
  refine .act i hR ?_
  dsimp only
  rw [hout]
  exact h

/-- No action of the run meets an exception of the database. -/
def Undisturbed (l : List (Input × Store)) : Prop := ∀ x ∈ l, x.1.fault = none

theorem Undisturbed.append {l l' : List (Input × Store)} (h : Undisturbed (l ++ l')) :
    Undisturbed l ∧ Undisturbed l' :=
  ⟨fun x hx => h x (List.mem_append_left _ hx), fun x hx => h x (List.mem_append_right _ hx)⟩

/-- A body that neither raises nor moves the case nor inserts an attempt commits. -/
theorem outcome_plain {α : Type} {body : Input → Store → Except Err (Txn × α)} {i : Input}
    {s : Store} {t : Txn} {a : α} (hf : i.fault = none) (hb : body i s = .ok (t, a))
    (hm : t.moves = []) (hn : t.insert = none) : Txn.outcome body i s = .ok (t, a) := by
  simp [Txn.outcome, hf, hb, hm, hn, movesOk, Txn.unique]

/-- A body whose only effect on the case is one move commits exactly when the move is possible. -/
theorem outcome_move {α : Type} {body : Input → Store → Except Err (Txn × α)} {i : Input}
    {s : Store} {t : Txn} {a : α} {m : Move} (hf : i.fault = none) (hb : body i s = .ok (t, a))
    (hm : t.moves = [m]) (hn : t.insert = none) :
    Txn.outcome body i s = if m.ok s.case then .ok (t, a) else .error .invalidTransition := by
  cases hok : m.ok s.case with
  | true => simp [Txn.outcome, hf, hb, hm, hn, movesOk, Txn.unique, hok]
  | false => simp [Txn.outcome, hf, hb, hm, movesOk, hok]

/-! ## Calls -/

/-- A call without an effect: its answer is that of the input it meets. -/
theorem runs_ask {α : Type} {answer : Input → α} {R : Store → Store → Prop} {s s' : Store}
    {l : List (Input × Store)} {r : Except Err α}
    (h : (ask answer).Runs Op.apply R s l r s') :
    ∃ i s₁, R s s₁ ∧ l = [(i, s₁)] ∧ s' = Op.skip.apply s₁ ∧
      ((∃ f, i.fault = some f ∧ r = .error f.err) ∨ i.fault = none ∧ r = .ok (answer i)) := by
  obtain ⟨i, s₁, l', hR, rfl, hn⟩ := Prog.Runs.act_inv h
  refine ⟨i, s₁, hR, ?_⟩
  unfold unlessFault at hn
  cases hf : i.fault with
  | some f =>
      simp only [hf] at hn
      obtain ⟨rfl, rfl, rfl⟩ := hn.raise_inv
      exact ⟨rfl, rfl, Or.inl ⟨f, rfl, rfl⟩⟩
  | none =>
      simp only [hf] at hn
      obtain ⟨rfl, rfl, rfl⟩ := hn.ret_inv
      exact ⟨rfl, rfl, Or.inr ⟨rfl, rfl⟩⟩

theorem stepsBy_ask {α : Type} {answer : Input → α} {view : Input → Input} {i : Input} {s : Store} :
    (ask answer).stepsBy view [(i, s)] = [⟨i, s, .skip⟩] :=
  congrArg (List.cons _) (Prog.stepsBy_nil _)

/-! ## Handlers -/

/-- A run with a handler: the program returns or halts, or the handler goes on after its
exception. -/
theorem rescue_inv {α : Type} {p : P α} {handler : Err → P α} {R : Store → Store → Prop}
    {s s' : Store} {l : List (Input × Store)} {r : Except Err α}
    (h : (rescue p handler).Runs Op.apply R s l r s') :
    (((∃ a, r = .ok a) ∨ r = .error .halt) ∧ p.Runs Op.apply R s l r s' ∧
      ∀ view, (rescue p handler).stepsBy view l = p.stepsBy view l) ∨
    ∃ e s₁ l₁ l₂, e ≠ .halt ∧ l = l₁ ++ l₂ ∧ p.Runs Op.apply R s l₁ (.error e) s₁ ∧
      (handler e).Runs Op.apply R s₁ l₂ r s' ∧
      ∀ view, (rescue p handler).stepsBy view l =
        p.stepsBy view l₁ ++ (handler e).stepsBy view l₂ := by
  rcases Prog.Runs.handle_inv h with ⟨a, rfl, hp, hview⟩ | ⟨e, s₁, l₁, l₂, rfl, hp, hh, hview⟩
  · exact Or.inl ⟨Or.inl ⟨a, rfl⟩, hp, hview⟩
  · by_cases hhalt : e = .halt
    · subst hhalt
      rw [if_pos rfl] at hh
      obtain ⟨rfl, rfl, rfl⟩ := hh.raise_inv
      rw [List.append_nil] at hview ⊢
      refine Or.inl ⟨Or.inr rfl, hp, fun view => (hview view).trans ?_⟩
      rw [Prog.stepsBy_nil, List.append_nil]
    · rw [if_neg hhalt] at hh
      refine Or.inr ⟨e, s₁, l₁, l₂, hhalt, rfl, hp, hh, fun view => (hview view).trans ?_⟩
      rw [if_neg hhalt]

end Remediator
