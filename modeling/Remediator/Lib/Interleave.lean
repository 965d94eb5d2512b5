import Mathlib.Logic.Basic
import Mathlib.Tactic.Common

set_option autoImplicit false

/-! # Interleaved programs over a shared store

A *program* is a tree of atomic actions. Each action looks at the shared store and at one
answer of the environment, performs one operation on the store and continues with the rest
of the program. A *pool* is a store together with the programs of the threads that are
alive; one scheduling choice starts a thread, performs one action of a thread, ends a
thread, or lets the environment act. Nothing happens between two choices, so a property of
every reachable pool is a property of every interleaving, with threads dying at any point.

There are two proof rules for the threads. `Prog.Each` asks that every single action of a
program is permitted by the store it acts on; `Safe` lets an action rely on what the thread
itself established before, as long as the other threads keep it. `Pool.Reachable.each` and
`Pool.Reachable.safe` put the threads together.
-/

namespace Interleave

/-! ## Programs -/

/-- A program of one thread over the store `σ`: `ι` are the answers of the environment,
`Op` the operations on the store, `ε` the exceptions and `α` the result. -/
inductive Prog (σ ι Op ε α : Type) : Type
  | ret (a : α)
  | raise (e : ε)
  | act (op : ι → σ → Op) (next : ι → σ → Prog σ ι Op ε α)

namespace Prog

variable {σ ι Op ε α β : Type}

def bind (p : Prog σ ι Op ε α) (k : α → Prog σ ι Op ε β) : Prog σ ι Op ε β :=
  match p with
  | .ret a => k a
  | .raise e => .raise e
  | .act op next => .act op (fun i s => (next i s).bind k)

/-- Run `h` on the exception of `p`, if there is one. -/
def handle (p : Prog σ ι Op ε α) (h : ε → Prog σ ι Op ε α) : Prog σ ι Op ε α :=
  match p with
  | .ret a => .ret a
  | .raise e => h e
  | .act op next => .act op (fun i s => (next i s).handle h)

instance : Monad (Prog σ ι Op ε) where
  pure := .ret
  bind := .bind

instance : MonadExceptOf ε (Prog σ ι Op ε) where
  throw := .raise
  tryCatch := .handle

@[simp] theorem bind_eq (p : Prog σ ι Op ε α) (k : α → Prog σ ι Op ε β) :
    p >>= k = p.bind k := rfl

end Prog

/-! ## Pools of threads -/

/-- What a pool is built from: how an operation changes the store, the program of a job
started under a thread name, the operation recorded when a thread is gone, and the
operations the environment performs on its own. -/
structure System (σ ι Op ε J : Type) where
  apply : Op → σ → σ
  job : Nat → J → Prog σ ι Op ε Unit
  leave : Nat → Op
  env : σ → Op → Bool

/-- A scheduling choice. -/
inductive Choice (ι Op J : Type)
  | spawn (o : Nat) (j : J)
  | step (o : Nat) (i : ι)
  | kill (o : Nat)
  | env (op : Op)

structure Pool (σ ι Op ε : Type) where
  store : σ
  threads : Nat → Option (Prog σ ι Op ε Unit)

namespace Pool

variable {σ ι Op ε J : Type}

/-- Replace the program of the thread `o`; `none` ends the thread. -/
def setThread (c : Pool σ ι Op ε) (o : Nat) (p : Option (Prog σ ι Op ε Unit)) :
    Nat → Option (Prog σ ι Op ε Unit) :=
  fun o' => if o' = o then p else c.threads o'

/-- One scheduling choice, `none` when it is not available. A thread name is used by at most
one thread at a time. -/
def exec (sys : System σ ι Op ε J) (c : Pool σ ι Op ε) : Choice ι Op J → Option (Pool σ ι Op ε)
  | .spawn o j =>
      match c.threads o with
      | some _ => none
      | none => some ⟨c.store, c.setThread o (some (sys.job o j))⟩
  | .step o i =>
      match c.threads o with
      | some (.act op next) =>
          some ⟨sys.apply (op i c.store) c.store, c.setThread o (some (next i c.store))⟩
      | some _ => some ⟨sys.apply (sys.leave o) c.store, c.setThread o none⟩
      | none => none
  | .kill o =>
      match c.threads o with
      | some _ => some ⟨sys.apply (sys.leave o) c.store, c.setThread o none⟩
      | none => none
  | .env op => if sys.env c.store op then some ⟨sys.apply op c.store, c.threads⟩ else none

/-- A whole schedule, `none` as soon as a choice is not available. -/
def execAll (sys : System σ ι Op ε J) (c : Pool σ ι Op ε) :
    List (Choice ι Op J) → Option (Pool σ ι Op ε)
  | [] => some c
  | ch :: chs =>
      match c.exec sys ch with
      | some c' => c'.execAll sys chs
      | none => none

/-- The pools reached from the store `s₀` with no thread alive. -/
inductive Reachable (sys : System σ ι Op ε J) (s₀ : σ) : Pool σ ι Op ε → Prop
  | init : Reachable sys s₀ ⟨s₀, fun _ => none⟩
  | next {c c' : Pool σ ι Op ε} (ch : Choice ι Op J) :
      Reachable sys s₀ c → c.exec sys ch = some c' → Reachable sys s₀ c'

theorem Reachable.execAll {sys : System σ ι Op ε J} {s₀ : σ} {c c' : Pool σ ι Op ε}
    {chs : List (Choice ι Op J)} (h : Reachable sys s₀ c) (hx : c.execAll sys chs = some c') :
    Reachable sys s₀ c' := by
  induction chs generalizing c with
  | nil =>
      cases hx
      exact h
  | cons ch chs ih =>
      simp only [Pool.execAll] at hx
      split at hx
      · next c₁ hc₁ => exact ih (h.next ch hc₁) hx
      · cases hx

end Pool

/-! ## Actions that are permitted one by one -/

namespace Prog

variable {σ ι Op ε α β : Type} {A : σ → Op → Prop}

/-- Every action of the program is permitted in whatever store it is performed; the result
satisfies `Q` and an exception satisfies `E`. -/
def Each (A : σ → Op → Prop) (Q : α → Prop) (E : ε → Prop) : Prog σ ι Op ε α → Prop
  | .ret a => Q a
  | .raise e => E e
  | .act op next => ∀ i s, A s (op i s) ∧ (next i s).Each A Q E

theorem Each.conseq {p : Prog σ ι Op ε α} {Q Q' : α → Prop} {E E' : ε → Prop}
    (hp : p.Each A Q E) (hQ : ∀ a, Q a → Q' a) (hE : ∀ e, E e → E' e) : p.Each A Q' E' := by
  induction p with
  | ret a => exact hQ a hp
  | raise e => exact hE e hp
  | act op next ih => exact fun i s => ⟨(hp i s).1, ih i s (hp i s).2⟩

/-- More actions may be permitted. -/
theorem Each.permit {B : σ → Op → Prop} {p : Prog σ ι Op ε α} {Q : α → Prop} {E : ε → Prop}
    (hp : p.Each A Q E) (h : ∀ s op, A s op → B s op) : p.Each B Q E := by
  induction p with
  | ret a => exact hp
  | raise e => exact hp
  | act op next ih => exact fun i s => ⟨h s _ (hp i s).1, ih i s (hp i s).2⟩

theorem Each.bind {p : Prog σ ι Op ε α} {k : α → Prog σ ι Op ε β} {R : α → Prop}
    {Q : β → Prop} {E : ε → Prop} (hp : p.Each A R E) (hk : ∀ a, R a → (k a).Each A Q E) :
    (p.bind k).Each A Q E := by
  induction p with
  | ret a => exact hk a hp
  | raise e => exact hp
  | act op next ih => exact fun i s => ⟨(hp i s).1, ih i s (hp i s).2⟩

theorem Each.handle {p : Prog σ ι Op ε α} {h : ε → Prog σ ι Op ε α} {Q : α → Prop}
    {F E : ε → Prop} (hp : p.Each A Q F) (hh : ∀ e, F e → (h e).Each A Q E) :
    (p.handle h).Each A Q E := by
  induction p with
  | ret a => exact hp
  | raise e => exact hh e hp
  | act op next ih => exact fun i s => ⟨(hp i s).1, ih i s (hp i s).2⟩

end Prog

/-- Every action of every job, every end of a thread and everything the environment does is
permitted. -/
structure Sanctioned {σ ι Op ε J : Type} (sys : System σ ι Op ε J) (A : σ → Op → Prop) : Prop where
  job : ∀ o j, (sys.job o j).Each A (fun _ => True) (fun _ => True)
  leave : ∀ o s, A s (sys.leave o)
  env : ∀ s op, sys.env s op = true → A s op

theorem Prog.Each.any {σ ι Op ε α : Type} (p : Prog σ ι Op ε α) :
    p.Each (fun _ _ => True) (fun _ => True) (fun _ => True) := by
  induction p with
  | ret a => trivial
  | raise e => trivial
  | act op next ih => exact fun i s => ⟨trivial, ih i s⟩

/-- For an invariant of all operations. -/
theorem Sanctioned.any {σ ι Op ε J : Type} (sys : System σ ι Op ε J) :
    Sanctioned sys (fun _ _ => True) :=
  ⟨fun o j => .any (sys.job o j), fun _ _ => trivial, fun _ _ _ => trivial⟩

namespace Pool

variable {σ ι Op ε J : Type} {sys : System σ ι Op ε J} {A : σ → Op → Prop}

/-- The programs that are still to be run have only permitted actions. -/
def Permitted (A : σ → Op → Prop) (c : Pool σ ι Op ε) : Prop :=
  ∀ o p, c.threads o = some p → p.Each A (fun _ => True) (fun _ => True)

theorem Permitted.setThread {c : Pool σ ι Op ε} (h : c.Permitted A) {o : Nat} {s : σ}
    {q : Option (Prog σ ι Op ε Unit)} (hq : ∀ p, q = some p → p.Each A (fun _ => True) (fun _ => True)) :
    Permitted A ⟨s, c.setThread o q⟩ := by
  intro o' p hp
  simp only [Pool.setThread] at hp
  split at hp
  · exact hq p hp
  · exact h o' p hp

/-- A scheduling choice leaves the store alone or performs a permitted operation on it. -/
theorem exec_permitted (hs : Sanctioned sys A) {c c' : Pool σ ι Op ε} {ch : Choice ι Op J}
    (h : c.Permitted A) (hx : c.exec sys ch = some c') :
    c'.Permitted A ∧
      (c'.store = c.store ∨ ∃ op, A c.store op ∧ c'.store = sys.apply op c.store) := by
  cases ch with
  | spawn o j =>
      simp only [exec] at hx
      split at hx
      · cases hx
      · cases hx
        refine ⟨h.setThread (fun p hp => ?_), Or.inl rfl⟩
        cases hp
        exact hs.job o j
  | step o i =>
      simp only [exec] at hx
      split at hx
      · next op next hth =>
          cases hx
          have hact := h o _ hth i c.store
          refine ⟨h.setThread (fun p hp => ?_), Or.inr ⟨_, hact.1, rfl⟩⟩
          cases hp
          exact hact.2
      · cases hx
        exact ⟨h.setThread (fun p hp => by cases hp), Or.inr ⟨_, hs.leave o _, rfl⟩⟩
      · cases hx
  | kill o =>
      simp only [exec] at hx
      split at hx
      · cases hx
        exact ⟨h.setThread (fun p hp => by cases hp), Or.inr ⟨_, hs.leave o _, rfl⟩⟩
      · cases hx
  | env op =>
      simp only [exec] at hx
      split at hx
      · next henv =>
          cases hx
          exact ⟨h, Or.inr ⟨op, hs.env _ _ henv, rfl⟩⟩
      · cases hx

/-- **An invariant of the permitted operations holds in every interleaving.** -/
theorem Reachable.each (hs : Sanctioned sys A) {P : σ → Prop} {s₀ : σ} (h₀ : P s₀)
    (hstep : ∀ s op, P s → A s op → P (sys.apply op s)) {c : Pool σ ι Op ε}
    (h : Reachable sys s₀ c) : c.Permitted A ∧ P c.store := by
  induction h with
  | init => exact ⟨fun _ _ h => (by cases h), h₀⟩
  | next ch _ hx ih =>
      obtain ⟨hperm, hstore⟩ := exec_permitted hs ih.1 hx
      refine ⟨hperm, ?_⟩
      rcases hstore with heq | ⟨op, hop, heq⟩
      · exact heq ▸ ih.2
      · exact heq ▸ hstep _ op ih.2 hop

/-- What every permitted operation does to the store, a schedule does. -/
theorem execAll_rel (hs : Sanctioned sys A) {P : σ → Prop} {R : σ → σ → Prop}
    (hrefl : ∀ s, R s s) (htrans : ∀ s s' s'', R s s' → R s' s'' → R s s'')
    (hstep : ∀ s op, P s → A s op → P (sys.apply op s) ∧ R s (sys.apply op s))
    {c c' : Pool σ ι Op ε} {chs : List (Choice ι Op J)} (hperm : c.Permitted A)
    (hP : P c.store) (hx : c.execAll sys chs = some c') : R c.store c'.store := by
  induction chs generalizing c with
  | nil =>
      cases hx
      exact hrefl _
  | cons ch chs ih =>
      simp only [execAll] at hx
      split at hx
      · next c₁ hc₁ =>
          obtain ⟨hperm₁, hstore⟩ := exec_permitted hs hperm hc₁
          rcases hstore with heq | ⟨op, hop, heq⟩
          · rw [← heq] at hP ⊢
            exact ih hperm₁ hP hx
          · obtain ⟨hP₁, hR⟩ := hstep _ op hP hop
            rw [← heq] at hP₁ hR
            exact htrans _ _ _ hR (ih hperm₁ hP₁ hx)
      · cases hx

end Pool

/-! ## The proof rule for one thread -/

/-- What a proof about a system fixes: an invariant of the store and, for each thread name,
the operations a thread of that name may perform. -/
structure Contract (σ Op : Type) where
  inv : σ → Prop
  allowed : Nat → σ → Op → Prop

section

variable {σ ι Op ε J α β : Type} (sys : System σ ι Op ε J) (K : Contract σ Op)

/-- An operation that may happen between two actions of the thread `o`. -/
inductive Interference (o : Nat) (s : σ) : Op → Prop
  | other {o' : Nat} {op : Op} : o' ≠ o → K.allowed o' s op → Interference o s op
  | leave {o' : Nat} : o' ≠ o → Interference o s (sys.leave o')
  | env {op : Op} : sys.env s op = true → Interference o s op

/-- The other threads and the environment keep `P`. -/
def Stable (o : Nat) (P : σ → Prop) : Prop :=
  ∀ s op, K.inv s → P s → Interference sys K o s op → P (sys.apply op s)

/-- Started in a store with `P`, every action of the program is allowed; the result satisfies
`Q` and an exception satisfies `E`. The others may act between two actions. -/
def Safe (o : Nat) : Prog σ ι Op ε α → (σ → Prop) → (α → σ → Prop) → (ε → σ → Prop) → Prop
  | .ret a, P, Q, _ => ∀ s, K.inv s → P s → Q a s
  | .raise e, P, _, E => ∀ s, K.inv s → P s → E e s
  | .act op next, P, Q, E => ∀ i s, K.inv s → P s → K.allowed o s (op i s) ∧
      ∃ P' : σ → Prop, Stable sys K o P' ∧ P' (sys.apply (op i s) s) ∧
        Safe o (next i s) P' Q E

variable {sys K} {o : Nat}

theorem Stable.true : Stable sys K o (fun _ => True) := fun _ _ _ _ _ => trivial

theorem Stable.and {P P' : σ → Prop} (h : Stable sys K o P) (h' : Stable sys K o P') :
    Stable sys K o (fun s => P s ∧ P' s) :=
  fun s op hi hp hf => ⟨h s op hi hp.1 hf, h' s op hi hp.2 hf⟩

theorem Stable.all {γ : Sort*} {P : γ → σ → Prop} (h : ∀ x, Stable sys K o (P x)) :
    Stable sys K o (fun s => ∀ x, P x s) :=
  fun s op hi hp hf x => h x s op hi (hp x) hf

theorem Stable.imp {p : Prop} {P : σ → Prop} (h : p → Stable sys K o P) :
    Stable sys K o (fun s => p → P s) :=
  fun s op hi hp hf hx => h hx s op hi (hp hx) hf

theorem Stable.const {p : Prop} : Stable sys K o (fun _ => p) := fun _ _ _ hp _ => hp

/-- Strengthen what is known before and weaken what is promised after. -/
theorem Safe.conseq {p : Prog σ ι Op ε α} {P P' : σ → Prop} {Q Q' : α → σ → Prop}
    {E E' : ε → σ → Prop} (h : Safe sys K o p P Q E) (hP : ∀ s, K.inv s → P' s → P s)
    (hQ : ∀ a s, K.inv s → Q a s → Q' a s) (hE : ∀ e s, K.inv s → E e s → E' e s) :
    Safe sys K o p P' Q' E' := by
  induction p generalizing P P' with
  | ret a => exact fun s hi hp => hQ a s hi (h s hi (hP s hi hp))
  | raise e => exact fun s hi hp => hE e s hi (h s hi (hP s hi hp))
  | act op next ih =>
      intro i s hi hp
      obtain ⟨ha, R, hR, hr, hn⟩ := h i s hi (hP s hi hp)
      exact ⟨ha, R, hR, hr, ih i s hn (fun _ _ h => h)⟩

/-- Actions that are permitted whatever happens are allowed while a fact holds that they keep. -/
theorem Safe.of_each_keep {A : σ → Op → Prop} {F : σ → Prop} {p : Prog σ ι Op ε α}
    {Q : α → Prop} {E : ε → Prop} (hF : Stable sys K o F)
    (hA : ∀ s op, K.inv s → F s → A s op → K.allowed o s op ∧ F (sys.apply op s))
    (h : p.Each A Q E) :
    Safe sys K o p F (fun a s => Q a ∧ F s) (fun e s => E e ∧ F s) := by
  induction p with
  | ret a => exact fun _ _ hs => ⟨h, hs⟩
  | raise e => exact fun _ _ hs => ⟨h, hs⟩
  | act op next ih =>
      intro i s hi hs
      obtain ⟨ha, hkept⟩ := hA s _ hi hs (h i s).1
      exact ⟨ha, F, hF, hkept, ih i s (h i s).2⟩

/-- Actions that are permitted whatever happens are allowed at any time. -/
theorem Safe.of_each {A : σ → Op → Prop} {p : Prog σ ι Op ε α} {Q : α → Prop} {E : ε → Prop}
    (hA : ∀ s op, K.inv s → A s op → K.allowed o s op) (h : p.Each A Q E) :
    Safe sys K o p (fun _ => True) (fun a _ => Q a) (fun e _ => E e) :=
  (Safe.of_each_keep Stable.true (fun s op hi _ ha => ⟨hA s op hi ha, trivial⟩) h).conseq
    (fun _ _ _ => trivial) (fun _ _ _ hs => hs.1) (fun _ _ _ hs => hs.1)

/-- A program that is never reached. -/
theorem Safe.unreached {p : Prog σ ι Op ε α} {P : σ → Prop} {Q : α → σ → Prop}
    {E : ε → σ → Prop} (h : ∀ s, K.inv s → ¬ P s) : Safe sys K o p P Q E := by
  cases p with
  | ret a => exact fun s hi hp => absurd hp (h s hi)
  | raise e => exact fun s hi hp => absurd hp (h s hi)
  | act op next => exact fun i s hi hp => absurd hp (h s hi)

/-- What does not depend on the store may be assumed. -/
theorem Safe.assume {p : Prog σ ι Op ε α} {c : Prop} {P : σ → Prop} {Q : α → σ → Prop}
    {E : ε → σ → Prop} (h : c → Safe sys K o p P Q E) :
    Safe sys K o p (fun s => c ∧ P s) Q E := by
  by_cases hc : c
  · exact (h hc).conseq (fun _ _ hs => hs.2) (fun _ _ _ hq => hq) (fun _ _ _ he => he)
  · exact .unreached (fun _ _ hs => hc hs.1)

theorem Safe.pre {p : Prog σ ι Op ε α} {P P' : σ → Prop} {Q : α → σ → Prop}
    {E : ε → σ → Prop} (h : Safe sys K o p P Q E) (hP : ∀ s, K.inv s → P' s → P s) :
    Safe sys K o p P' Q E :=
  h.conseq hP (fun _ _ _ h => h) (fun _ _ _ h => h)

theorem Safe.bind {p : Prog σ ι Op ε α} {k : α → Prog σ ι Op ε β} {P : σ → Prop}
    {Q : α → σ → Prop} {Q' : β → σ → Prop} {E : ε → σ → Prop} (hp : Safe sys K o p P Q E)
    (hk : ∀ a, Safe sys K o (k a) (Q a) Q' E) : Safe sys K o (p.bind k) P Q' E := by
  induction p generalizing P with
  | ret a => exact (hk a).pre hp
  | raise e => exact hp
  | act op next ih =>
      intro i s hi h
      obtain ⟨ha, R, hR, hr, hn⟩ := hp i s hi h
      exact ⟨ha, R, hR, hr, ih i s hn⟩

theorem Safe.handle {p : Prog σ ι Op ε α} {h : ε → Prog σ ι Op ε α} {P : σ → Prop}
    {Q : α → σ → Prop} {E E' : ε → σ → Prop} (hp : Safe sys K o p P Q E)
    (hh : ∀ e, Safe sys K o (h e) (E e) Q E') : Safe sys K o (p.handle h) P Q E' := by
  induction p generalizing P with
  | ret a => exact hp
  | raise e => exact (hh e).pre hp
  | act op next ih =>
      intro i s hi hP
      obtain ⟨ha, R, hR, hr, hn⟩ := hp i s hi hP
      exact ⟨ha, R, hR, hr, ih i s hn⟩

/-- A fact that everyone keeps, this thread included, is carried through a program. -/
theorem Safe.keep {p : Prog σ ι Op ε α} {P F : σ → Prop} {Q : α → σ → Prop}
    {E : ε → σ → Prop} (h : Safe sys K o p P Q E) (hF : Stable sys K o F)
    (hown : ∀ s op, K.inv s → F s → K.allowed o s op → F (sys.apply op s)) :
    Safe sys K o p (fun s => P s ∧ F s) (fun a s => Q a s ∧ F s) (fun e s => E e s ∧ F s) := by
  induction p generalizing P with
  | ret a => exact fun s hi hp => ⟨h s hi hp.1, hp.2⟩
  | raise e => exact fun s hi hp => ⟨h s hi hp.1, hp.2⟩
  | act op next ih =>
      intro i s hi hp
      obtain ⟨ha, R, hR, hr, hn⟩ := h i s hi hp.1
      exact ⟨ha, _, hR.and hF, ⟨hr, hown s _ hi hp.2 ha⟩, ih i s hn⟩

/-! ## All threads together -/

/-- The obligations of a system against a contract. -/
structure Sound (sys : System σ ι Op ε J) (K : Contract σ Op) : Prop where
  act : ∀ o s op, K.inv s → K.allowed o s op → K.inv (sys.apply op s)
  leave : ∀ o s, K.inv s → K.inv (sys.apply (sys.leave o) s)
  env : ∀ s op, K.inv s → sys.env s op = true → K.inv (sys.apply op s)
  job : ∀ o j, Safe sys K o (sys.job o j) (fun _ => True) (fun _ _ => True) (fun _ _ => True)

/-- The thread `o` can go on from the store `s` for ever. -/
def Alive (sys : System σ ι Op ε J) (K : Contract σ Op) (o : Nat) (p : Prog σ ι Op ε Unit)
    (s : σ) : Prop :=
  ∃ P : σ → Prop, Stable sys K o P ∧ P s ∧
    Safe sys K o p P (fun _ _ => True) (fun _ _ => True)

theorem Alive.interfere {p : Prog σ ι Op ε Unit} {s : σ} {op : Op} (h : Alive sys K o p s)
    (hi : K.inv s) (hf : Interference sys K o s op) : Alive sys K o p (sys.apply op s) := by
  obtain ⟨P, hP, hs, hp⟩ := h
  exact ⟨P, hP, hP s op hi hs hf, hp⟩

theorem Pool.exec_sound (hs : Sound sys K) {c c' : Pool σ ι Op ε} {ch : Choice ι Op J}
    (hx : c.exec sys ch = some c') (hi : K.inv c.store)
    (ht : ∀ o p, c.threads o = some p → Alive sys K o p c.store) :
    K.inv c'.store ∧ ∀ o p, c'.threads o = some p → Alive sys K o p c'.store := by
  cases ch with
  | spawn o j =>
      simp only [Pool.exec] at hx
      split at hx
      · cases hx
      · cases hx
        refine ⟨hi, fun o' p hp => ?_⟩
        by_cases ho : o' = o
        · subst ho
          have hp : some (sys.job o' j) = some p := by simpa [Pool.setThread] using hp
          cases hp
          exact ⟨_, Stable.true, trivial, hs.job o' j⟩
        · exact ht o' p (by simpa [Pool.setThread, ho] using hp)
  | step o i =>
      simp only [Pool.exec] at hx
      split at hx
      · next op next hth =>
          cases hx
          obtain ⟨P, hP, hps, hsafe⟩ := ht o _ hth
          obtain ⟨ha, R, hR, hr, hn⟩ := hsafe i c.store hi hps
          refine ⟨hs.act o _ _ hi ha, fun o' p hp => ?_⟩
          by_cases ho : o' = o
          · subst ho
            have hp : some (next i c.store) = some p := by simpa [Pool.setThread] using hp
            cases hp
            exact ⟨R, hR, hr, hn⟩
          · have hp : c.threads o' = some p := by simpa [Pool.setThread, ho] using hp
            exact (ht o' p hp).interfere hi (.other (Ne.symm ho) ha)
      · cases hx
        refine ⟨hs.leave o _ hi, fun o' p hp => ?_⟩
        by_cases ho : o' = o
        · simp [Pool.setThread, ho] at hp
        · have hp : c.threads o' = some p := by simpa [Pool.setThread, ho] using hp
          exact (ht o' p hp).interfere hi (.leave (Ne.symm ho))
      · cases hx
  | kill o =>
      simp only [Pool.exec] at hx
      split at hx
      · cases hx
        refine ⟨hs.leave o _ hi, fun o' p hp => ?_⟩
        by_cases ho : o' = o
        · simp [Pool.setThread, ho] at hp
        · have hp : c.threads o' = some p := by simpa [Pool.setThread, ho] using hp
          exact (ht o' p hp).interfere hi (.leave (Ne.symm ho))
      · cases hx
  | env op =>
      simp only [Pool.exec] at hx
      split at hx
      · next he =>
          cases hx
          exact ⟨hs.env _ _ hi he, fun o' p hp => (ht o' p hp).interfere hi (.env he)⟩
      · cases hx

/-- **The invariant holds in every interleaving.** -/
theorem Pool.Reachable.safe (hs : Sound sys K) {s₀ : σ} (h₀ : K.inv s₀) {c : Pool σ ι Op ε}
    (h : Pool.Reachable sys s₀ c) :
    K.inv c.store ∧ ∀ o p, c.threads o = some p → Alive sys K o p c.store := by
  induction h with
  | init => exact ⟨h₀, fun _ _ h => by cases h⟩
  | next ch _ hx ih => exact Pool.exec_sound hs hx ih.1 ih.2

/-! ## What a schedule does -/

variable (sys K) in
/-- An operation of one scheduling choice. -/
inductive Performed (s : σ) : Op → Prop
  | act {o : Nat} {op : Op} : K.allowed o s op → Performed s op
  | leave (o : Nat) : Performed s (sys.leave o)
  | env {op : Op} : sys.env s op = true → Performed s op

theorem Pool.exec_performed {c c' : Pool σ ι Op ε} {ch : Choice ι Op J}
    (hx : c.exec sys ch = some c') (hi : K.inv c.store)
    (ht : ∀ o p, c.threads o = some p → Alive sys K o p c.store) :
    c'.store = c.store ∨ ∃ op, Performed sys K c.store op ∧ c'.store = sys.apply op c.store := by
  cases ch with
  | spawn o j =>
      simp only [Pool.exec] at hx
      split at hx
      · cases hx
      · cases hx
        exact Or.inl rfl
  | step o i =>
      simp only [Pool.exec] at hx
      split at hx
      · next op next hth =>
          cases hx
          obtain ⟨P, -, hps, hsafe⟩ := ht o _ hth
          exact Or.inr ⟨_, .act (hsafe i c.store hi hps).1, rfl⟩
      · cases hx
        exact Or.inr ⟨_, .leave o, rfl⟩
      · cases hx
  | kill o =>
      simp only [Pool.exec] at hx
      split at hx
      · cases hx
        exact Or.inr ⟨_, .leave o, rfl⟩
      · cases hx
  | env op =>
      simp only [Pool.exec] at hx
      split at hx
      · next he =>
          cases hx
          exact Or.inr ⟨_, .env he, rfl⟩
      · cases hx

/-- **What every operation of a schedule does to the store, the schedule does.** -/
theorem Pool.execAll_performed (hs : Sound sys K) {R : σ → σ → Prop} (hrefl : ∀ s, R s s)
    (htrans : ∀ s s' s'', R s s' → R s' s'' → R s s'')
    (hstep : ∀ s op, K.inv s → Performed sys K s op → R s (sys.apply op s))
    {c c' : Pool σ ι Op ε} {chs : List (Choice ι Op J)} (hi : K.inv c.store)
    (ht : ∀ o p, c.threads o = some p → Alive sys K o p c.store)
    (hx : c.execAll sys chs = some c') : R c.store c'.store := by
  induction chs generalizing c with
  | nil =>
      cases hx
      exact hrefl _
  | cons ch chs ih =>
      simp only [Pool.execAll] at hx
      split at hx
      · next c₁ hc₁ =>
          obtain ⟨hi₁, ht₁⟩ := Pool.exec_sound hs hc₁ hi ht
          have hrest := ih hi₁ ht₁ hx
          rcases Pool.exec_performed hc₁ hi ht with heq | ⟨op, hop, heq⟩
          · exact heq ▸ hrest
          · exact htrans _ _ _ (heq ▸ hstep _ op hi hop) hrest
      · cases hx

end

end Interleave
