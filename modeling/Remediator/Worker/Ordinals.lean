import Remediator.Lib.Machine
import Remediator.Worker.Runner

set_option autoImplicit false

/-! # The ordinals of concurrent creates

`DevinRunner._create`, statement by statement, for any number of workers on one case and kind.
`allocate_attempt_ordinal` takes the lock on the case row and reads the highest ordinal and the
number of attempts; the commit that ends `_settle_previous_sessions` gives the lock up, and the
row is inserted in a transaction of its own. A statement sees the committed rows. An `INSERT`
waits for the uncommitted row of the same ordinal, and violates the unique index when a committed
one has it.

An attempt of a refused create is never inserted; a worker may also die, or fail for another
reason, between any two statements.
-/

namespace Remediator.Ordinals

open Machine

/-! ## The numbers -/

/-- The ordinals of the rows; legacy rows have none. -/
def ordinals (rows : List (Option Nat)) : List Nat := rows.filterMap id

/-- `func.max(Attempt.ordinal)`, or 0. -/
def highest (rows : List (Option Nat)) : Nat := (ordinals rows).foldr max 0

/-- The ordinal that `allocate_attempt_ordinal` computes on unchanging rows. -/
def allocate (rows : List (Option Nat)) : Nat := max (highest rows) rows.length + 1

/-- The ordinal of the model's `_create` is the one computed here. -/
theorem allocateAttemptOrdinal_eq (kind : AttemptKind) (as : List Attempt) :
    allocateAttemptOrdinal kind as =
      allocate ((as.filter (fun a => decide (a.kind = kind))).map (fun a => some a.ordinal)) := by
  have hfold : ∀ (l : List Nat) (m : Nat), l.foldl max m = max m (l.foldr max 0) := by
    intro l
    induction l with
    | nil => exact fun m => (Nat.max_zero m).symm
    | cons n l ih =>
        intro m
        rw [List.foldl_cons, ih, List.foldr_cons, Nat.max_assoc]
  have hordinals : ∀ l : List Attempt,
      ordinals (l.map (fun a => some a.ordinal)) = l.map (·.ordinal) := by
    intro l
    unfold ordinals
    rw [List.filterMap_map]
    exact congrFun List.filterMap_eq_map l
  unfold allocateAttemptOrdinal allocate highest
  rw [hordinals, List.length_map]
  dsimp only
  rw [hfold, Nat.zero_max]

theorem ordinals_append (rows : List (Option Nat)) (n : Nat) :
    ordinals (rows ++ [some n]) = ordinals rows ++ [n] := by
  simp [ordinals]

theorem le_foldr_max {l : List Nat} {n : Nat} (h : n ∈ l) : n ≤ l.foldr max 0 := by
  induction l with
  | nil => cases h
  | cons m l ih =>
      rw [List.foldr_cons]
      rcases List.mem_cons.mp h with rfl | hmem
      · exact Nat.le_max_left _ _
      · exact Nat.le_trans (ih hmem) (Nat.le_max_right _ _)

theorem foldr_max_mem {l : List Nat} (h : 0 < l.foldr max 0) : l.foldr max 0 ∈ l := by
  induction l with
  | nil => cases h
  | cons m l ih =>
      rw [List.foldr_cons] at h ⊢
      by_cases hle : l.foldr max 0 ≤ m
      · rw [Nat.max_eq_left hle]
        exact List.mem_cons_self
      · rw [Nat.max_eq_right (by omega)]
        exact List.mem_cons_of_mem _ (ih (by omega))

theorem highest_append (rows : List (Option Nat)) (n : Nat) :
    highest (rows ++ [some n]) = max (highest rows) n := by
  unfold highest
  rw [ordinals_append, List.foldr_append]
  induction ordinals rows with
  | nil => simp
  | cons m ms ih => rw [List.foldr_cons, ih, List.foldr_cons, Nat.max_assoc]

/-- The next free ordinal is that of no row. -/
theorem allocate_notMem (rows : List (Option Nat)) : allocate rows ∉ ordinals rows := by
  intro h
  have hle : allocate rows ≤ highest rows := le_foldr_max h
  unfold allocate at hle
  omega

/-! ## Workers -/

/-- Where a worker is in `_create`. -/
inductive Pc
  | idle
  /-- the case row is locked -/
  | locked
  /-- the highest ordinal is read -/
  | maxRead (highest : Nat)
  /-- the ordinal is computed; the lock is still held -/
  | allocated (n : Nat)
  /-- `_settle_previous_sessions` has committed -/
  | settled (n : Nat)
  /-- the row is inserted and not committed -/
  | inserted (n : Nat)
  | committed (n : Nat)
  /-- the `INSERT` violated the unique index on the ordinal -/
  | collided (n : Nat)
  /-- refused, or rolled back -/
  | gone
  deriving DecidableEq

def Pc.holdsLock : Pc → Bool
  | .locked | .maxRead _ | .allocated _ => true
  | _ => false

/-- The ordinal of the row that the worker has tried to insert. -/
def Pc.tried : Pc → Option Nat
  | .inserted n | .committed n | .collided n => some n
  | _ => none

/-- The committed rows of the case and kind, and the `n` workers. -/
structure State (n : Nat) where
  rows : List (Option Nat)
  pc : Fin n → Pc

def init (n : Nat) (rows : List (Option Nat)) : State n := ⟨rows, fun _ => .idle⟩

variable {n : Nat}

def State.setPc (s : State n) (i : Fin n) (p : Pc) : State n :=
  { s with pc := fun j => if j = i then p else s.pc j }

@[simp] theorem State.setPc_pc (s : State n) (i j : Fin n) (p : Pc) :
    (s.setPc i p).pc j = if j = i then p else s.pc j := rfl

/-- One statement of a worker. -/
inductive Act (n : Nat)
  | lock (i : Fin n)
  | readMax (i : Fin n)
  | readCount (i : Fin n)
  /-- the cap and `_settle_previous_sessions`; `refused` ends the create -/
  | settle (i : Fin n) (refused : Bool)
  | insert (i : Fin n)
  | commit (i : Fin n)
  /-- the worker dies, or fails for a reason of its own -/
  | die (i : Fin n)

/-- The effect of a statement; `none` when the worker is not at it, or waits. -/
def step (cap : Nat) (s : State n) : Act n → Option (State n)
  | .lock i =>
      if s.pc i = .idle ∧ ∀ j, (s.pc j).holdsLock = false then some (s.setPc i .locked) else none
  | .readMax i =>
      if s.pc i = .locked then some (s.setPc i (.maxRead (highest s.rows))) else none
  | .readCount i =>
      match s.pc i with
      | .maxRead m => some (s.setPc i (.allocated (max m s.rows.length + 1)))
      | _ => none
  | .settle i refused =>
      match s.pc i with
      | .allocated k => some (s.setPc i (if cap < k ∨ refused then .gone else .settled k))
      | _ => none
  | .insert i =>
      match s.pc i with
      | .settled k =>
          if ∀ j, s.pc j ≠ .inserted k then
            some (s.setPc i (if k ∈ ordinals s.rows then .collided k else .inserted k))
          else none
      | _ => none
  | .commit i =>
      match s.pc i with
      | .inserted k => some { s.setPc i (.committed k) with rows := s.rows ++ [some k] }
      | _ => none
  | .die i =>
      match s.pc i with
      | .committed _ | .collided _ | .gone => none
      | _ => some (s.setPc i .gone)

/-- The worker inserts the ordinal that is still the next free one. -/
def fresh (s : State n) : Act n → Bool
  | .insert i =>
      match s.pc i with
      | .settled k => decide (k = allocate s.rows)
      | _ => true
  | _ => true

/-- The ordinals that the workers insert are pairwise distinct, and no `INSERT` violates the
index. -/
structure Distinct (s : State n) : Prop where
  noCollision : ∀ i k, s.pc i ≠ .collided k
  distinct : ∀ i j k, (s.pc i).tried = some k → (s.pc j).tried = some k → i = j

/-! ## The invariant of all runs -/

/-- A row was committed between the two reads of a worker that read the highest ordinal `m`: it
has the ordinal that was free before, and no other worker has a free one. -/
structure Overtaken (s : State n) (m : Nat) : Prop where
  some : 0 < s.rows.length
  highest : highest s.rows = max m (s.rows.length - 1) + 1
  taken : ∀ j k, s.pc j = .settled k → k ∈ ordinals s.rows
  pending : ∀ j k, s.pc j ≠ .inserted k

/-- In every run: one worker holds the lock, every number held by a worker is taken or the next
free one, and at most one row is uncommitted. -/
structure Inv (s : State n) : Prop where
  lock : ∀ i j, (s.pc i).holdsLock = true → (s.pc j).holdsLock = true → i = j
  number : ∀ i k, s.pc i = .allocated k ∨ s.pc i = .settled k →
    k ∈ ordinals s.rows ∨ k = allocate s.rows
  pending : ∀ i k, s.pc i = .inserted k → k = allocate s.rows
  single : ∀ i j k k', s.pc i = .inserted k → s.pc j = .inserted k' → i = j
  reading : ∀ i m, s.pc i = .maxRead m → m = highest s.rows ∨ Overtaken s m

theorem inv_init (rows : List (Option Nat)) : Inv (init n rows) where
  lock := fun _ _ h => by cases h
  number := fun _ _ h => by rcases h with h | h <;> cases h
  pending := fun _ _ h => by cases h
  single := fun _ _ _ _ h => by cases h
  reading := fun _ _ h => by cases h

/-- What the place `p` of the worker `i` has to satisfy for the invariant to be kept. -/
structure Admits (s : State n) (i : Fin n) (p : Pc) : Prop where
  lock : p.holdsLock = true → ∀ j, j ≠ i → (s.pc j).holdsLock = false
  number : ∀ k, p = .allocated k ∨ p = .settled k → k ∈ ordinals s.rows ∨ k = allocate s.rows
  pending : ∀ k, p = .inserted k → k = allocate s.rows ∧ ∀ j k', s.pc j ≠ .inserted k'
  reading : ∀ m, p = .maxRead m → m = highest s.rows
  overtaken : ∀ j m, j ≠ i → s.pc j = .maxRead m → Overtaken s m →
    (∀ k, p = .settled k → k ∈ ordinals s.rows) ∧ ∀ k, p ≠ .inserted k

theorem Inv.setPc {s : State n} {i : Fin n} {p : Pc} (h : Inv s) (hp : Admits s i p) :
    Inv (s.setPc i p) where
  lock := by
    intro j j' hj hj'
    rw [State.setPc_pc] at hj hj'
    split at hj
    · next hi =>
        split at hj'
        · next hi' => exact hi.trans hi'.symm
        · next hi' =>
            rw [hp.lock hj j' hi'] at hj'
            cases hj'
    · next hi =>
        split at hj'
        · rw [hp.lock hj' j hi] at hj
          cases hj
        · exact h.lock j j' hj hj'
  number := by
    intro j k hj
    rw [State.setPc_pc] at hj
    split at hj
    · exact hp.number k hj
    · exact h.number j k hj
  pending := by
    intro j k hj
    rw [State.setPc_pc] at hj
    split at hj
    · exact (hp.pending k hj).1
    · exact h.pending j k hj
  single := by
    intro j j' k k' hj hj'
    rw [State.setPc_pc] at hj hj'
    split at hj
    · next hi =>
        split at hj'
        · next hi' => exact hi.trans hi'.symm
        · exact absurd hj' ((hp.pending k hj).2 j' k')
    · split at hj'
      · exact absurd hj ((hp.pending k' hj').2 j k)
      · exact h.single j j' k k' hj hj'
  reading := by
    intro j m hj
    rw [State.setPc_pc] at hj
    split at hj
    · exact Or.inl (hp.reading m hj)
    · next hi =>
        refine (h.reading j m hj).imp_right fun hover => ?_
        obtain ⟨htaken, hpending⟩ := hp.overtaken j m hi hj hover
        refine ⟨hover.some, hover.highest, ?_, ?_⟩
        · intro j' k hj'
          rw [State.setPc_pc] at hj'
          split at hj'
          · exact htaken k hj'
          · exact hover.taken j' k hj'
        · intro j' k hj'
          rw [State.setPc_pc] at hj'
          split at hj'
          · exact hpending k hj'
          · exact hover.pending j' k hj'

/-- A place without a lock, a number or a row is always admitted. -/
theorem Admits.plain {s : State n} {i : Fin n} {p : Pc} (hlock : p.holdsLock = false)
    (hsettled : ∀ k, p ≠ .settled k) (hinserted : ∀ k, p ≠ .inserted k) : Admits s i p where
  lock := fun h => by
    rw [hlock] at h
    cases h
  number := by
    rintro k (rfl | rfl)
    · cases hlock
    · exact absurd rfl (hsettled k)
  pending := fun k hk => absurd hk (hinserted k)
  reading := by
    rintro m rfl
    cases hlock
  overtaken := fun _ _ _ _ _ => ⟨fun k hk => absurd hk (hsettled k), hinserted⟩

/-- The lock holder is alone. -/
theorem Inv.alone {s : State n} (h : Inv s) {i j : Fin n} (hi : (s.pc i).holdsLock = true)
    (hj : j ≠ i) : (s.pc j).holdsLock = false := by
  cases hlock : (s.pc j).holdsLock with
  | false => rfl
  | true => exact absurd (h.lock j i hlock hi) hj

/-- The number that a worker computes from its two reads is taken or the next free one. -/
theorem computed_number {s : State n} {m : Nat} (h : m = highest s.rows ∨ Overtaken s m) :
    max m s.rows.length + 1 ∈ ordinals s.rows ∨ max m s.rows.length + 1 = allocate s.rows := by
  rcases h with rfl | hover
  · exact Or.inr rfl
  · have hsome := hover.some
    have hhigh := hover.highest
    by_cases hle : s.rows.length ≤ m
    · left
      have heq : max m s.rows.length + 1 = highest s.rows := by omega
      rw [heq]
      exact foldr_max_mem (by
        change 0 < highest s.rows
        omega)
    · right
      unfold allocate
      omega

theorem allocate_append {rows : List (Option Nat)} {k : Nat} (h : k ∈ ordinals rows) (k' : Nat) :
    k ∈ ordinals (rows ++ [some k']) := by
  rw [ordinals_append]
  exact List.mem_append_left _ h

/-- The commit of the one uncommitted row. -/
theorem Inv.commit {s : State n} {i : Fin n} {k : Nat} (h : Inv s) (hi : s.pc i = .inserted k) :
    Inv { s.setPc i (.committed k) with rows := s.rows ++ [some k] } := by
  have hk : k = allocate s.rows := h.pending i k hi
  have hnew : k ∈ ordinals (s.rows ++ [some k]) := by
    rw [ordinals_append]
    exact List.mem_append_right _ (List.mem_singleton.mpr rfl)
  have hlast : ∀ j k', j ≠ i → s.pc j ≠ .inserted k' := by
    intro j k' hne hj
    exact hne (h.single j i k' k hj hi)
  have htaken : ∀ j k', s.pc j = .allocated k' ∨ s.pc j = .settled k' →
      k' ∈ ordinals (s.rows ++ [some k]) := by
    intro j k' hj
    rcases h.number j k' hj with hmem | hfree
    · exact allocate_append hmem k
    · rw [hfree, ← hk]
      exact hnew
  have hplain : Inv (s.setPc i (.committed k)) := h.setPc (.plain rfl nofun nofun)
  refine ⟨hplain.lock, ?_, ?_, hplain.single, ?_⟩
  · intro j k' hj
    left
    simp only [State.setPc_pc] at hj
    split at hj
    · rcases hj with hj | hj <;> cases hj
    · exact htaken j k' hj
  · intro j k' hj
    simp only [State.setPc_pc] at hj
    split at hj
    · cases hj
    · next hne => exact absurd hj (hlast j k' hne)
  · intro j m hj
    simp only [State.setPc_pc] at hj
    split at hj
    · cases hj
    · right
      -- the reader saw the highest ordinal before this row
      have hm : m = highest s.rows := by
        rcases h.reading j m hj with hm | hover
        · exact hm
        · exact absurd hi (hover.pending i k)
      refine ⟨by simp, ?_, ?_, ?_⟩
      · dsimp only
        rw [highest_append, List.length_append, List.length_singleton]
        unfold allocate at hk
        omega
      · intro j' k' hj'
        simp only [State.setPc_pc] at hj'
        split at hj'
        · cases hj'
        · exact htaken j' k' (Or.inr hj')
      · intro j' k' hj'
        simp only [State.setPc_pc] at hj'
        split at hj'
        · cases hj'
        · next hne => exact hlast j' k' hne hj'

/-- **Every statement keeps the invariant.** -/
theorem step_inv {cap : Nat} {s s' : State n} {a : Act n} (h : Inv s)
    (hstep : step cap s a = some s') : Inv s' := by
  cases a with
  | lock i =>
      simp only [step] at hstep
      split at hstep
      · next hfree =>
          obtain rfl := Option.some.inj hstep
          refine h.setPc ⟨fun _ j _ => hfree.2 j, ?_, nofun, nofun, ?_⟩
          · rintro k (hk | hk) <;> cases hk
          · exact fun _ _ _ _ _ => ⟨nofun, nofun⟩
      · cases hstep
  | readMax i =>
      simp only [step] at hstep
      split at hstep
      · next hlocked =>
          obtain rfl := Option.some.inj hstep
          have hheld : (s.pc i).holdsLock = true := by rw [hlocked]; rfl
          refine h.setPc ⟨fun _ j hne => h.alone hheld hne, ?_, nofun, ?_, ?_⟩
          · rintro k (hk | hk) <;> cases hk
          · exact fun m hm => (Pc.maxRead.inj hm).symm
          · exact fun _ _ _ _ _ => ⟨nofun, nofun⟩
      · cases hstep
  | readCount i =>
      simp only [step] at hstep
      split at hstep
      · next m hread =>
          obtain rfl := Option.some.inj hstep
          have hheld : (s.pc i).holdsLock = true := by rw [hread]; rfl
          refine h.setPc ⟨fun _ j hne => h.alone hheld hne, ?_, nofun, nofun, ?_⟩
          · rintro k (hk | hk)
            · rw [← Pc.allocated.inj hk]
              exact computed_number (h.reading i m hread)
            · cases hk
          · exact fun _ _ _ _ _ => ⟨nofun, nofun⟩
      · cases hstep
  | settle i refused =>
      simp only [step] at hstep
      split at hstep
      · next k halloc =>
          obtain rfl := Option.some.inj hstep
          have hheld : (s.pc i).holdsLock = true := by rw [halloc]; rfl
          by_cases hend : cap < k ∨ refused = true
          · rw [if_pos hend]
            exact h.setPc (.plain rfl nofun nofun)
          · rw [if_neg hend]
            refine h.setPc ⟨nofun, ?_, nofun, nofun, ?_⟩
            · rintro k' (hk | hk)
              · cases hk
              · rw [← Pc.settled.inj hk]
                exact h.number i k (Or.inl halloc)
            · -- a reader would hold the lock as well
              intro j m hne hread _
              have halone := h.alone hheld hne
              rw [hread] at halone
              cases halone
      · cases hstep
  | insert i =>
      simp only [step] at hstep
      split at hstep
      · next k hsettled =>
          split at hstep
          · next hwait =>
              obtain rfl := Option.some.inj hstep
              by_cases hmem : k ∈ ordinals s.rows
              · rw [if_pos hmem]
                exact h.setPc (.plain rfl nofun nofun)
              · rw [if_neg hmem]
                have hfree := (h.number i k (Or.inr hsettled)).resolve_left hmem
                refine h.setPc ⟨nofun, ?_, ?_, nofun, ?_⟩
                · rintro k' (hk | hk) <;> cases hk
                · intro k' hk
                  obtain rfl := Pc.inserted.inj hk
                  refine ⟨hfree, fun j k' hj => hwait j ?_⟩
                  rw [hj, hfree, h.pending j k' hj]
                · exact fun _ _ _ _ hover => absurd (hover.taken i k hsettled) hmem
          · cases hstep
      · cases hstep
  | commit i =>
      simp only [step] at hstep
      split at hstep
      · next k hinserted =>
          obtain rfl := Option.some.inj hstep
          exact h.commit hinserted
      · cases hstep
  | die i =>
      simp only [step] at hstep
      split at hstep
      · cases hstep
      · cases hstep
      · cases hstep
      · obtain rfl := Option.some.inj hstep
        exact h.setPc (.plain rfl nofun nofun)

/-! ## Runs of fresh inserts -/

/-- What holds besides as long as every insert is fresh. -/
structure Orderly (s : State n) : Prop where
  inv : Inv s
  noCollision : ∀ i k, s.pc i ≠ .collided k
  row : ∀ i k, s.pc i = .committed k → k ∈ ordinals s.rows
  single : ∀ i j k, s.pc i = .committed k → s.pc j = .committed k → i = j

theorem Orderly.distinct {s : State n} (h : Orderly s) : Distinct s where
  noCollision := h.noCollision
  distinct := by
    have hclash : ∀ i j k, s.pc i = .inserted k → s.pc j ≠ .committed k := by
      intro i j k hi hj
      refine allocate_notMem s.rows ?_
      rw [← h.inv.pending i k hi]
      exact h.row j k hj
    intro i j k hi hj
    cases hpi : s.pc i with
    | inserted m =>
        rw [hpi] at hi
        obtain rfl := Option.some.inj hi
        cases hpj : s.pc j with
        | inserted m' => exact h.inv.single i j m m' hpi hpj
        | committed m' =>
            rw [hpj] at hj
            obtain rfl := Option.some.inj hj
            exact absurd hpj (hclash i j m' hpi)
        | collided m' => exact absurd hpj (h.noCollision j m')
        | _ => rw [hpj] at hj; cases hj
    | committed m =>
        rw [hpi] at hi
        obtain rfl := Option.some.inj hi
        cases hpj : s.pc j with
        | inserted m' =>
            rw [hpj] at hj
            obtain rfl := Option.some.inj hj
            exact absurd hpi (hclash j i m' hpj)
        | committed m' =>
            rw [hpj] at hj
            obtain rfl := Option.some.inj hj
            exact h.single i j m' hpi hpj
        | collided m' => exact absurd hpj (h.noCollision j m')
        | _ => rw [hpj] at hj; cases hj
    | collided m => exact absurd hpi (h.noCollision i m)
    | _ => rw [hpi] at hi; cases hi

/-- A statement that neither commits a row nor collides. -/
theorem Orderly.setPc {s : State n} {i : Fin n} {p : Pc} (h : Orderly s) (hinv : Inv (s.setPc i p))
    (hcommitted : ∀ k, p ≠ .committed k) (hcollided : ∀ k, p ≠ .collided k) :
    Orderly (s.setPc i p) where
  inv := hinv
  noCollision := by
    intro j k hj
    rw [State.setPc_pc] at hj
    split at hj
    · exact hcollided k hj
    · exact h.noCollision j k hj
  row := by
    intro j k hj
    rw [State.setPc_pc] at hj
    split at hj
    · exact absurd hj (hcommitted k)
    · exact h.row j k hj
  single := by
    intro j j' k hj hj'
    rw [State.setPc_pc] at hj hj'
    split at hj
    · exact absurd hj (hcommitted k)
    · split at hj'
      · exact absurd hj' (hcommitted k)
      · exact h.single j j' k hj hj'

theorem Orderly.commit {s : State n} {i : Fin n} {k : Nat} (h : Orderly s)
    (hi : s.pc i = .inserted k) :
    Orderly { s.setPc i (.committed k) with rows := s.rows ++ [some k] } := by
  have hnew : k ∉ ordinals s.rows := by
    rw [h.inv.pending i k hi]
    exact allocate_notMem s.rows
  refine ⟨h.inv.commit hi, ?_, ?_, ?_⟩
  · intro j k' hj
    simp only [State.setPc_pc] at hj
    split at hj
    · cases hj
    · exact h.noCollision j k' hj
  · intro j k' hj
    simp only [State.setPc_pc] at hj
    split at hj
    · obtain rfl := Pc.committed.inj hj
      dsimp only
      rw [ordinals_append]
      exact List.mem_append_right _ (List.mem_singleton.mpr rfl)
    · exact allocate_append (h.row j k' hj) k
  · intro j j' k' hj hj'
    simp only [State.setPc_pc] at hj hj'
    split at hj
    · next hji =>
        obtain rfl := Pc.committed.inj hj
        split at hj'
        · next hji' => exact hji.trans hji'.symm
        · exact absurd (h.row j' k hj') hnew
    · split at hj'
      · obtain rfl := Pc.committed.inj hj'
        exact absurd (h.row j k hj) hnew
      · exact h.single j j' k' hj hj'

theorem step_orderly {cap : Nat} {s s' : State n} {a : Act n} (h : Orderly s)
    (hfresh : fresh s a = true) (hstep : step cap s a = some s') : Orderly s' := by
  have hinv := step_inv h.inv hstep
  cases a with
  | lock i =>
      simp only [step] at hstep
      split at hstep
      · obtain rfl := Option.some.inj hstep
        exact h.setPc hinv nofun nofun
      · cases hstep
  | readMax i =>
      simp only [step] at hstep
      split at hstep
      · obtain rfl := Option.some.inj hstep
        exact h.setPc hinv nofun nofun
      · cases hstep
  | readCount i =>
      simp only [step] at hstep
      split at hstep
      · obtain rfl := Option.some.inj hstep
        exact h.setPc hinv nofun nofun
      · cases hstep
  | settle i refused =>
      simp only [step] at hstep
      split at hstep
      · next k _ =>
          obtain rfl := Option.some.inj hstep
          refine h.setPc hinv (fun k' => ?_) (fun k' => ?_) <;> split <;> exact nofun
      · cases hstep
  | insert i =>
      simp only [step] at hstep
      simp only [fresh] at hfresh
      split at hstep
      · next k hsettled =>
          rw [hsettled] at hfresh
          have hfree : k = allocate s.rows := of_decide_eq_true hfresh
          split at hstep
          · obtain rfl := Option.some.inj hstep
            have hnew : k ∉ ordinals s.rows := by
              rw [hfree]
              exact allocate_notMem s.rows
            rw [if_neg hnew] at hinv ⊢
            exact h.setPc hinv nofun nofun
          · cases hstep
      · cases hstep
  | commit i =>
      simp only [step] at hstep
      split at hstep
      · next k hinserted =>
          obtain rfl := Option.some.inj hstep
          exact h.commit hinserted
      · cases hstep
  | die i =>
      simp only [step] at hstep
      split at hstep
      · cases hstep
      · cases hstep
      · cases hstep
      · obtain rfl := Option.some.inj hstep
        exact h.setPc hinv nofun nofun

/-- **Ordinals are inserted without collision exactly by fresh inserts.** In every run whose
inserts are all fresh the inserted ordinals are pairwise distinct and none is refused; and in any
run an insert that is not fresh violates the index. -/
theorem distinct_of_fresh (cap : Nat) (rows : List (Option Nat)) (s : State n) :
    (Reaches (step cap) fresh (init n rows) s → Distinct s) ∧
      ∀ i s', Reaches (step cap) (fun _ _ => true) (init n rows) s →
        step cap s (.insert i) = some s' →
          (fresh s (.insert i) = false ↔ ∃ k, s'.pc i = .collided k) := by
  constructor
  · intro h
    have hinit : Orderly (init n rows) := ⟨inv_init rows, nofun, nofun, nofun⟩
    exact (h.inv hinit fun s a s' ho hf hs => step_orderly ho hf hs).distinct
  · intro i s' h hstep
    have hinv : Inv s := h.inv (inv_init rows) fun s a s' hi _ hs => step_inv hi hs
    simp only [step] at hstep
    simp only [fresh]
    split at hstep
    · next k hsettled =>
        split at hstep
        · obtain rfl := Option.some.inj hstep
          simp only [State.setPc_pc, if_true, decide_eq_false_iff_not]
          by_cases hmem : k ∈ ordinals s.rows
          · rw [if_pos hmem]
            refine ⟨fun _ => ⟨k, rfl⟩, fun _ heq => allocate_notMem s.rows ?_⟩
            rw [← heq]
            exact hmem
          · rw [if_neg hmem]
            have hfree := (hinv.number i k (Or.inr hsettled)).resolve_left hmem
            exact ⟨fun hne => absurd hfree hne, nofun⟩
        · cases hstep
    · cases hstep

/-- Two creates one after the other. -/
def serialSchedule : List (Act 2) :=
  [.lock 0, .readMax 0, .readCount 0, .settle 0 false, .insert 0, .commit 0,
   .lock 1, .readMax 1, .readCount 1, .settle 1 false, .insert 1, .commit 1]

theorem distinct_of_fresh_demo : ∃ s : State 2,
    (s.pc 0, s.pc 1) = (.committed 1, .committed 2) ∧ Distinct s := by
  obtain ⟨s, hs, hview⟩ := exists_of_runAll (step 3) fresh (init 2 []) serialSchedule
    (fun s => (s.pc 0, s.pc 1)) (.committed 1, .committed 2) (by decide)
  exact ⟨s, hview, (distinct_of_fresh 3 [] s).1 hs⟩

/-- The second worker allocates after the commit that ends the settling of the first one. -/
def overlappingSchedule : List (Act 2) :=
  [.lock 0, .readMax 0, .readCount 0, .settle 0 false,
   .lock 1, .readMax 1, .readCount 1, .settle 1 false,
   .insert 0, .commit 0, .insert 1]

/-- Both workers allocate the ordinal 1. -/
theorem overlapping_creates_collide :
    ¬∀ (n cap : Nat) (rows : List (Option Nat)) (s : State n),
      Reaches (step cap) (fun _ _ => true) (init n rows) s → Distinct s := by
  intro h
  obtain ⟨s, hs, hview⟩ := exists_of_runAll (step 3) (fun _ _ => true) (init 2 [])
    overlappingSchedule (fun s => s.pc 1) (.collided 1) (by decide)
  exact (h 2 3 [] s hs).noCollision 1 1 hview

end Remediator.Ordinals
