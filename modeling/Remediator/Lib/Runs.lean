import Mathlib.Logic.Relation
import Remediator.Lib.Interleave

set_option autoImplicit false

/-! # Runs of one program

A run of one program from its first action to its end, while others use the store as well: they
may take the store along a relation before each action. The run lists the stores that the
program acted on and the answers it got.
-/

namespace Interleave

variable {σ ι Op ε α β : Type}

/-- `p` is started in the store `s`, meets the answers and stores `l`, ends with `r` and leaves
the store `s'`; the others move along `R`. -/
inductive Prog.Runs (apply : Op → σ → σ) (R : σ → σ → Prop) :
    Prog σ ι Op ε α → σ → List (ι × σ) → Except ε α → σ → Prop
  | ret (a : α) (s : σ) : Runs apply R (.ret a) s [] (.ok a) s
  | raise (e : ε) (s : σ) : Runs apply R (.raise e) s [] (.error e) s
  | act {op : ι → σ → Op} {next : ι → σ → Prog σ ι Op ε α} {s s₁ s' : σ} {l : List (ι × σ)}
      {r : Except ε α} (i : ι) : R s s₁ → Runs apply R (next i s₁) (apply (op i s₁) s₁) l r s' →
      Runs apply R (.act op next) s ((i, s₁) :: l) r s'

namespace Prog

variable {apply : Op → σ → σ} {R : σ → σ → Prop}

theorem Runs.ret_inv {a : α} {s s' : σ} {l : List (ι × σ)} {r : Except ε α}
    (h : (Prog.ret a : Prog σ ι Op ε α).Runs apply R s l r s') : l = [] ∧ r = .ok a ∧ s' = s := by
  cases h
  exact ⟨rfl, rfl, rfl⟩

theorem Runs.raise_inv {e : ε} {s s' : σ} {l : List (ι × σ)} {r : Except ε α}
    (h : (Prog.raise e : Prog σ ι Op ε α).Runs apply R s l r s') :
    l = [] ∧ r = .error e ∧ s' = s := by
  cases h
  exact ⟨rfl, rfl, rfl⟩

theorem Runs.act_inv {op : ι → σ → Op} {next : ι → σ → Prog σ ι Op ε α} {s s' : σ}
    {l : List (ι × σ)} {r : Except ε α} (h : (Prog.act op next).Runs apply R s l r s') :
    ∃ i s₁ l', R s s₁ ∧ l = (i, s₁) :: l' ∧
      (next i s₁).Runs apply R (apply (op i s₁) s₁) l' r s' := by
  cases h with
  | act i hR hn => exact ⟨i, _, _, hR, rfl, hn⟩

/-- A sequence ends with the exception of its first part, or runs both parts. -/
theorem Runs.bind_inv {p : Prog σ ι Op ε α} {k : α → Prog σ ι Op ε β} {s s' : σ}
    {l : List (ι × σ)} {r : Except ε β} (h : (p.bind k).Runs apply R s l r s') :
    (∃ e, r = .error e ∧ p.Runs apply R s l (.error e) s') ∨
      ∃ a s₁ l₁ l₂, l = l₁ ++ l₂ ∧ p.Runs apply R s l₁ (.ok a) s₁ ∧
        (k a).Runs apply R s₁ l₂ r s' := by
  induction p generalizing s l with
  | ret a => exact Or.inr ⟨a, s, [], l, rfl, .ret a s, h⟩
  | raise e =>
      obtain ⟨rfl, rfl, rfl⟩ := Runs.raise_inv h
      exact Or.inl ⟨e, rfl, .raise e _⟩
  | act op next ih =>
      obtain ⟨i, s₁, l', hR, rfl, hn⟩ := Runs.act_inv h
      rcases ih i s₁ hn with ⟨e, hr, hp⟩ | ⟨a, s₂, l₁, l₂, rfl, hp, hk⟩
      · exact Or.inl ⟨e, hr, .act i hR hp⟩
      · exact Or.inr ⟨a, s₂, (i, s₁) :: l₁, l₂, rfl, .act i hR hp, hk⟩

/-- The outcome of a program that runs on its own, with the answer `i` to each action, and the
store it leaves. -/
def alone (apply : Op → σ → σ) (i : ι) : Prog σ ι Op ε α → σ → Except ε α × σ
  | .ret a, s => (.ok a, s)
  | .raise e, s => (.error e, s)
  | .act op next, s => (next i s).alone apply i (apply (op i s) s)

/-- Every program runs to its end on its own. -/
theorem runs_alone (apply : Op → σ → σ) (p : Prog σ ι Op ε α) (i : ι) (hR : ∀ s, R s s) (s : σ) :
    ∃ l, p.Runs apply R s l (p.alone apply i s).1 (p.alone apply i s).2 ∧ ∀ x ∈ l, x.1 = i := by
  induction p generalizing s with
  | ret a => exact ⟨[], .ret a s, by simp⟩
  | raise e => exact ⟨[], .raise e s, by simp⟩
  | act op next ih =>
      obtain ⟨l, hrun, hl⟩ := ih i s (apply (op i s) s)
      refine ⟨(i, s) :: l, .act i (hR s) hrun, ?_⟩
      intro x hx
      rcases List.mem_cons.mp hx with rfl | hx
      · rfl
      · exact hl x hx

/-- What the program does on its own when the store decides the answers. -/
def answered (apply : Op → σ → σ) (f : σ → ι) : Prog σ ι Op ε α → σ → Except ε α × σ
  | .ret a, s => (.ok a, s)
  | .raise e, s => (.error e, s)
  | .act op next, s => (next (f s) s).answered apply f (apply (op (f s) s) s)

theorem runs_answered (apply : Op → σ → σ) (p : Prog σ ι Op ε α) (f : σ → ι) (hR : ∀ s, R s s)
    (s : σ) : ∃ l, p.Runs apply R s l (p.answered apply f s).1 (p.answered apply f s).2 ∧
      ∀ x ∈ l, x.1 = f x.2 := by
  induction p generalizing s with
  | ret a => exact ⟨[], .ret a s, by simp⟩
  | raise e => exact ⟨[], .raise e s, by simp⟩
  | act op next ih =>
      obtain ⟨l, hrun, hl⟩ := ih (f s) s (apply (op (f s) s) s)
      refine ⟨(f s, s) :: l, .act (f s) (hR s) hrun, ?_⟩
      intro x hx
      rcases List.mem_cons.mp hx with rfl | hx
      · rfl
      · exact hl x hx

/-! ## Parts of a run -/

/-- `p` is started in `s` and meets the answers and stores `l`; then `q` is left to be run, in
the store `s'`. -/
inductive Reaches (apply : Op → σ → σ) (R : σ → σ → Prop) :
    Prog σ ι Op ε α → σ → List (ι × σ) → Prog σ ι Op ε α → σ → Prop
  | refl (p : Prog σ ι Op ε α) (s : σ) : Reaches apply R p s [] p s
  | act {op : ι → σ → Op} {next : ι → σ → Prog σ ι Op ε α} {q : Prog σ ι Op ε α} {s s₁ s' : σ}
      {l : List (ι × σ)} (i : ι) : R s s₁ →
      Reaches apply R (next i s₁) (apply (op i s₁) s₁) l q s' →
      Reaches apply R (.act op next) s ((i, s₁) :: l) q s'

/-- What is left of a run completes it. -/
theorem Reaches.runs {p q : Prog σ ι Op ε α} {s s₁ s' : σ} {l l' : List (ι × σ)}
    {r : Except ε α} (h : p.Reaches apply R s l q s₁) (hq : q.Runs apply R s₁ l' r s') :
    p.Runs apply R s (l ++ l') r s' := by
  induction h with
  | refl => exact hq
  | act i hR _ ih => exact .act i hR (ih hq)

theorem Runs.bind_error {p : Prog σ ι Op ε α} {k : α → Prog σ ι Op ε β} {s s' : σ}
    {l : List (ι × σ)} {e : ε} (h : p.Runs apply R s l (.error e) s') :
    (p.bind k).Runs apply R s l (.error e) s' := by
  induction p generalizing s l with
  | ret a =>
      obtain ⟨-, hr, -⟩ := h.ret_inv
      cases hr
  | raise e' =>
      obtain ⟨rfl, hr, rfl⟩ := h.raise_inv
      cases hr
      exact .raise e _
  | act op next ih =>
      obtain ⟨i, s₁, l', hR, rfl, hn⟩ := h.act_inv
      exact .act i hR (ih i s₁ hn)

/-- A handler goes on where the exception was raised. -/
theorem Runs.handle_error {p : Prog σ ι Op ε α} {handler : ε → Prog σ ι Op ε α} {s s₁ s' : σ}
    {l l' : List (ι × σ)} {e : ε} {r : Except ε α} (h : p.Runs apply R s l (.error e) s₁)
    (hh : (handler e).Runs apply R s₁ l' r s') :
    (p.handle handler).Runs apply R s (l ++ l') r s' := by
  induction p generalizing s l with
  | ret a =>
      obtain ⟨-, hr, -⟩ := h.ret_inv
      cases hr
  | raise e' =>
      obtain ⟨rfl, hr, rfl⟩ := h.raise_inv
      cases hr
      exact hh
  | act op next ih =>
      obtain ⟨i, s₂, l₂, hR, rfl, hn⟩ := h.act_inv
      exact .act i hR (ih i s₂ hn)

/-- An exception of a run is one that the program may raise. -/
theorem Runs.each_error {A : σ → Op → Prop} {Q : α → Prop} {E : ε → Prop}
    {p : Prog σ ι Op ε α} {s s' : σ} {l : List (ι × σ)} {e : ε} (hp : p.Each A Q E)
    (h : p.Runs apply R s l (.error e) s') : E e := by
  induction p generalizing s l with
  | ret a =>
      obtain ⟨-, hr, -⟩ := h.ret_inv
      cases hr
  | raise e' =>
      obtain ⟨-, hr, -⟩ := h.raise_inv
      cases hr
      exact hp
  | act op next ih =>
      obtain ⟨i, s₁, l', -, rfl, hn⟩ := h.act_inv
      exact ih i s₁ (hp i s₁).2 hn

/-! ## What an exception leaves behind -/

/-- Until it is certain that no exception of `E` is raised any more, the program performs only
actions that `A` permits. -/
def Until (A : σ → Op → Prop) (E : ε → Prop) : Prog σ ι Op ε α → Prop
  | .ret _ | .raise _ => True
  | .act op next => ∀ i s, (A s (op i s) ∧ (next i s).Until A E) ∨
      (next i s).Each (fun _ _ => True) (fun _ => True) (fun e => ¬ E e)

section Until

variable {A : σ → Op → Prop} {E : ε → Prop}

/-- A program that never raises an exception of `E` may do what it likes. -/
theorem Until.of_never {p : Prog σ ι Op ε α}
    (hp : p.Each (fun _ _ => True) (fun _ => True) (fun e => ¬ E e)) : p.Until A E := by
  cases p with
  | ret a => trivial
  | raise e => trivial
  | act op next => exact fun i s => Or.inr (hp i s).2

theorem Until.bind {p : Prog σ ι Op ε α} {k : α → Prog σ ι Op ε β} {Q : α → Prop}
    (hp : p.Each A Q (fun _ => True)) (hk : ∀ a, Q a → (k a).Until A E) :
    (p.bind k).Until A E := by
  induction p with
  | ret a => exact hk a hp
  | raise e => trivial
  | act op next ih => exact fun i s => Or.inl ⟨(hp i s).1, ih i s (hp i s).2⟩

/-- **A run that ends with an exception of `E` consists of permitted actions and of what the
others do.** -/
theorem Runs.until_error {p : Prog σ ι Op ε α} {s s' : σ} {l : List (ι × σ)} {e : ε}
    (hp : p.Until A E) (h : p.Runs apply R s l (.error e) s') (he : E e) :
    Relation.ReflTransGen (fun a b => R a b ∨ ∃ op, A a op ∧ b = apply op a) s s' := by
  induction p generalizing s l with
  | ret a =>
      obtain ⟨-, hr, -⟩ := h.ret_inv
      cases hr
  | raise e' =>
      obtain ⟨-, -, rfl⟩ := h.raise_inv
      exact .refl
  | act op next ih =>
      obtain ⟨i, s₁, l', hR, rfl, hn⟩ := h.act_inv
      rcases hp i s₁ with ⟨hA, hnext⟩ | hnever
      · exact .head (Or.inl hR) (.head (Or.inr ⟨_, hA, rfl⟩) (ih i s₁ hnext hn))
      · have hne : ¬ E e := Runs.each_error (E := fun e => ¬ E e) hnever hn
        exact absurd he hne

end Until

/-! ## The actions of a run -/

/-- One action of a run: the answer and the store it met, and what it did. -/
structure Step (σ ι Op : Type) where
  answer : ι
  store : σ
  op : Op

/-- The actions of the run that met the answers and stores `l`; what each of them does is looked
at with the answer `view i` for `i`. -/
def stepsBy (view : ι → ι) : Prog σ ι Op ε α → List (ι × σ) → List (Step σ ι Op)
  | .act op next, (i, s) :: l => ⟨i, s, op (view i) s⟩ :: (next i s).stepsBy view l
  | _, _ => []

section Steps

variable {view : ι → ι} {s s' : σ} {l : List (ι × σ)}

@[simp] theorem stepsBy_nil (p : Prog σ ι Op ε α) : p.stepsBy view [] = [] := by
  cases p <;> rfl

theorem Runs.stepsBy_bind {p : Prog σ ι Op ε α} {k : α → Prog σ ι Op ε β} {a : α}
    (h : p.Runs apply R s l (.ok a) s') (l' : List (ι × σ)) :
    (p.bind k).stepsBy view (l ++ l') = p.stepsBy view l ++ (k a).stepsBy view l' := by
  induction p generalizing s l with
  | ret b =>
      obtain ⟨rfl, hr, -⟩ := h.ret_inv
      cases hr
      rfl
  | raise e =>
      obtain ⟨-, hr, -⟩ := h.raise_inv
      cases hr
  | act op next ih =>
      obtain ⟨i, s₁, l₁, -, rfl, hn⟩ := h.act_inv
      exact congrArg (List.cons _) (ih i s₁ hn)

theorem Runs.stepsBy_bind_error {p : Prog σ ι Op ε α} {k : α → Prog σ ι Op ε β} {e : ε}
    (h : p.Runs apply R s l (.error e) s') : (p.bind k).stepsBy view l = p.stepsBy view l := by
  induction p generalizing s l with
  | ret b =>
      obtain ⟨-, hr, -⟩ := h.ret_inv
      cases hr
  | raise e' =>
      obtain ⟨rfl, -, -⟩ := h.raise_inv
      rfl
  | act op next ih =>
      obtain ⟨i, s₁, l₁, -, rfl, hn⟩ := h.act_inv
      exact congrArg (List.cons _) (ih i s₁ hn)

/-- A run with a handler is a run without an exception, or one up to the exception that goes on
with the handler. -/
theorem Runs.handle_inv {p : Prog σ ι Op ε α} {handler : ε → Prog σ ι Op ε α}
    {r : Except ε α} (h : (p.handle handler).Runs apply R s l r s') :
    (∃ a, r = .ok a ∧ p.Runs apply R s l (.ok a) s' ∧
      ∀ view, (p.handle handler).stepsBy view l = p.stepsBy view l) ∨
      ∃ e s₁ l₁ l₂, l = l₁ ++ l₂ ∧ p.Runs apply R s l₁ (.error e) s₁ ∧
        (handler e).Runs apply R s₁ l₂ r s' ∧
        ∀ view, (p.handle handler).stepsBy view l =
          p.stepsBy view l₁ ++ (handler e).stepsBy view l₂ := by
  induction p generalizing s l with
  | ret a =>
      obtain ⟨rfl, rfl, rfl⟩ := Runs.ret_inv h
      exact Or.inl ⟨a, rfl, .ret a _, fun _ => rfl⟩
  | raise e => exact Or.inr ⟨e, s, [], l, rfl, .raise e s, h, fun _ => rfl⟩
  | act op next ih =>
      obtain ⟨i, s₁, l', hR, rfl, hn⟩ := Runs.act_inv h
      rcases ih i s₁ hn with ⟨a, hr, hp, hsteps⟩ | ⟨e, s₂, l₁, l₂, rfl, hp, hh, hsteps⟩
      · exact Or.inl ⟨a, hr, .act i hR hp, fun view => congrArg (List.cons _) (hsteps view)⟩
      · exact Or.inr ⟨e, s₂, (i, s₁) :: l₁, l₂, rfl, .act i hR hp, hh,
          fun view => congrArg (List.cons _) (hsteps view)⟩

/-- The actions of the run that met the answers and stores `l`, as they were performed. -/
def steps (p : Prog σ ι Op ε α) (l : List (ι × σ)) : List (Step σ ι Op) := p.stepsBy id l

@[simp] theorem steps_nil (p : Prog σ ι Op ε α) : p.steps [] = [] := stepsBy_nil p

theorem Runs.steps_bind {p : Prog σ ι Op ε α} {k : α → Prog σ ι Op ε β} {a : α}
    (h : p.Runs apply R s l (.ok a) s') (l' : List (ι × σ)) :
    (p.bind k).steps (l ++ l') = p.steps l ++ (k a).steps l' :=
  h.stepsBy_bind l'

theorem Runs.steps_bind_error {p : Prog σ ι Op ε α} {k : α → Prog σ ι Op ε β} {e : ε}
    (h : p.Runs apply R s l (.error e) s') : (p.bind k).steps l = p.steps l :=
  h.stepsBy_bind_error

/-- What is permitted of every action holds of the actions of a run. -/
theorem Runs.each_steps {A : σ → Op → Prop} {Q : α → Prop} {E : ε → Prop}
    {p : Prog σ ι Op ε α} {r : Except ε α} (hp : p.Each A Q E)
    (h : p.Runs apply R s l r s') : ∀ step ∈ p.steps l, A step.store step.op := by
  induction p generalizing s l with
  | ret a =>
      obtain ⟨rfl, -, -⟩ := h.ret_inv
      simp
  | raise e =>
      obtain ⟨rfl, -, -⟩ := h.raise_inv
      simp
  | act op next ih =>
      obtain ⟨i, s₁, l', -, rfl, hn⟩ := h.act_inv
      intro step hstep
      rcases List.mem_cons.mp hstep with rfl | hstep
      · exact (hp i s₁).1
      · exact ih i s₁ (hp i s₁).2 hn step hstep

end Steps

end Prog

end Interleave
