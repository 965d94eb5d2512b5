import Remediator.Lib.Machine
import Mathlib.Logic.Relation

set_option autoImplicit false

/-! # Row locks

Transactions request locks on rows one after the other and release them all when they end. A
request waits while another transaction holds a lock on the row that conflicts with it. The rows
are ranked; when every transaction requests its locks along the ranks, no cycle of waiting
transactions arises.
-/

namespace RowLocks

/-- Ranked rows, and lock modes. `upgrades` are the stronger locks on a row already locked that
are harmless: whoever waits for the lock that is held requests more than the upgrade does. -/
structure Table (Row Mode : Type) where
  rank : Row → Nat
  conflicts : Mode → Mode → Bool
  covers : (held requested : Mode) → Bool
  upgrades : (held requested : Mode) → Bool
  strength : Mode → Nat
  upgrades_lt : ∀ held requested other, upgrades held requested = true →
    conflicts other held = true → strength requested < strength other

structure Lock (Row Mode : Type) where
  row : Row
  mode : Mode
  deriving DecidableEq

/-- A running transaction: the locks it holds, and those it has still to request. -/
structure Session (Row Mode : Type) where
  held : List (Lock Row Mode)
  next : List (Lock Row Mode)
  deriving DecidableEq

/-- The transactions by number; one that has ended holds nothing. -/
abbrev State (Row Mode : Type) := List (Session Row Mode)

section Precedence

variable {Row Mode : Type} {T : Table Row Mode}

/-- A request precedes another: on the ranks, or on one row by asking for more. -/
def Precedes (T : Table Row Mode) (l m : Lock Row Mode) : Prop :=
  T.rank l.row < T.rank m.row ∨
    (T.rank l.row = T.rank m.row ∧ T.strength m.mode < T.strength l.mode)

theorem Precedes.trans {l m n : Lock Row Mode} (h : Precedes T l m) (h' : Precedes T m n) :
    Precedes T l n := by
  unfold Precedes at *
  omega

theorem Precedes.irrefl (l : Lock Row Mode) : ¬ Precedes T l l := by
  unfold Precedes
  omega

end Precedence

variable {Row Mode : Type} [DecidableEq Row]

/-! ## Waiting -/

/-- A lock that is held already, in this mode or a stronger one, is not requested. -/
def covered (T : Table Row Mode) (held : List (Lock Row Mode)) (l : Lock Row Mode) : Bool :=
  held.any (fun h => decide (h.row = l.row) && T.covers h.mode l.mode)

/-- The session `j` holds a lock that conflicts with the request of the session `i`. -/
def blocks (T : Table Row Mode) (s : State Row Mode) (i : Nat) (l : Lock Row Mode) (j : Nat) :
    Bool :=
  decide (j ≠ i) && (s[j]?).any (fun t =>
    t.held.any (fun h => decide (h.row = l.row) && T.conflicts l.mode h.mode))

/-- The session `i` waits for the session `j`. -/
def WaitsFor (T : Table Row Mode) (s : State Row Mode) (i j : Nat) : Prop :=
  ∃ t l rest, s[i]? = some t ∧ t.next = l :: rest ∧ covered T t.held l = false ∧
    blocks T s i l j = true

/-! ## Steps -/

inductive Act (Txn : Type)
  | begin (t : Txn)
  | acquire (i : Nat)
  /-- a commit or a rollback -/
  | finish (i : Nat)

/-- The steps of transactions whose requests are `locks`. -/
def step {Txn : Type} (T : Table Row Mode) (locks : Txn → List (Lock Row Mode))
    (s : State Row Mode) : Act Txn → Option (State Row Mode)
  | .begin t => some (s ++ [⟨[], locks t⟩])
  | .acquire i => do
      let t ← s[i]?
      match t.next with
      | [] => none
      | l :: rest =>
          if covered T t.held l || (List.range s.length).all (fun j => !blocks T s i l j) then
            some (s.set i ⟨l :: t.held, rest⟩)
          else none
  | .finish i => if i < s.length then some (s.set i ⟨[], []⟩) else none

/-! ## Ordered requests -/

/-- The lock `h` may be held when `l` is requested. -/
def ahead (T : Table Row Mode) (h l : Lock Row Mode) : Bool :=
  decide (T.rank h.row < T.rank l.row) || (decide (h.row = l.row) && T.upgrades h.mode l.mode)

/-- A transaction that holds `held` requests the rest along the ranks. -/
def ordered (T : Table Row Mode) : (held next : List (Lock Row Mode)) → Bool
  | _, [] => true
  | held, l :: ls => (covered T held l || held.all (fun h => ahead T h l)) && ordered T (l :: held) ls

def Session.Ordered (T : Table Row Mode) (t : Session Row Mode) : Prop :=
  ordered T t.held t.next = true

/-- The next request of a session is not on a row that comes before one it has locked. -/
def Session.InOrder (T : Table Row Mode) (t : Session Row Mode) : Prop :=
  ∀ l rest, t.next = l :: rest → covered T t.held l = false →
    ∀ h ∈ t.held, T.rank h.row ≤ T.rank l.row

/-- No session waits for itself through others. -/
def NoCycle (T : Table Row Mode) (s : State Row Mode) : Prop :=
  ∀ i, ¬ Relation.TransGen (WaitsFor T s) i i

section Proofs

variable {T : Table Row Mode} {s : State Row Mode} {i j k : Nat} {t : Session Row Mode}
  {l : Lock Row Mode} {rest : List (Lock Row Mode)}

theorem Session.Ordered.ahead (h : t.Ordered T) (hnext : t.next = l :: rest)
    (hcovered : covered T t.held l = false) : ∀ x ∈ t.held, RowLocks.ahead T x l = true := by
  unfold Session.Ordered at h
  rw [hnext] at h
  simp only [ordered, hcovered, Bool.false_or, Bool.and_eq_true, List.all_eq_true] at h
  exact h.1

theorem Session.Ordered.inOrder (h : t.Ordered T) : t.InOrder T := by
  intro l rest hnext hcovered x hx
  have hx' := h.ahead hnext hcovered x hx
  simp only [RowLocks.ahead, Bool.or_eq_true, Bool.and_eq_true, decide_eq_true_eq] at hx'
  rcases hx' with hlt | ⟨heq, -⟩
  · exact Nat.le_of_lt hlt
  · exact Nat.le_of_eq (congrArg T.rank heq)

/-- The request that a session waits for. -/
def Requests (T : Table Row Mode) (s : State Row Mode) (i : Nat) (l : Lock Row Mode) : Prop :=
  ∃ t rest, s[i]? = some t ∧ t.next = l :: rest ∧ covered T t.held l = false

theorem Requests.unique {m : Lock Row Mode} (h : Requests T s i l) (h' : Requests T s i m) :
    l = m := by
  obtain ⟨t, rest, ht, hnext, -⟩ := h
  obtain ⟨t', rest', ht', hnext', -⟩ := h'
  rw [ht] at ht'
  cases ht'
  rw [hnext] at hnext'
  cases hnext'
  rfl

/-- A session that others wait for is ahead of them. -/
theorem WaitsFor.precedes (hord : ∀ (i : Nat) (t : Session Row Mode), s[i]? = some t → t.Ordered T)
    (h : WaitsFor T s i j) {m : Lock Row Mode} (hm : Requests T s j m) :
    ∃ l, Requests T s i l ∧ Precedes T l m := by
  obtain ⟨t, l, rest, ht, hnext, hcovered, hblocks⟩ := h
  obtain ⟨u, rest', hu, hnext', hcovered'⟩ := hm
  refine ⟨l, ⟨t, rest, ht, hnext, hcovered⟩, ?_⟩
  simp only [blocks, hu, Option.any_some, Bool.and_eq_true, List.any_eq_true,
    decide_eq_true_eq] at hblocks
  obtain ⟨-, x, hx, hrow, hconflict⟩ := hblocks
  have hahead := (hord j u hu).ahead hnext' hcovered' x hx
  simp only [RowLocks.ahead, Bool.or_eq_true, Bool.and_eq_true, decide_eq_true_eq] at hahead
  rcases hahead with hlt | ⟨heq, hup⟩
  · exact .inl (by rwa [← hrow])
  · exact .inr ⟨by rw [← hrow, heq], T.upgrades_lt _ _ _ hup hconflict⟩

theorem WaitsFor.requests (h : WaitsFor T s i j) : ∃ l, Requests T s i l := by
  obtain ⟨t, l, rest, ht, hnext, hcovered, -⟩ := h
  exact ⟨l, t, rest, ht, hnext, hcovered⟩

/-- **Ordered sessions never wait in a cycle.** -/
theorem noCycle_of_ordered
    (hord : ∀ (i : Nat) (t : Session Row Mode), s[i]? = some t → t.Ordered T) : NoCycle T s := by
  -- along a chain of waiting sessions the requests precede one another
  have hchain : ∀ i j, Relation.TransGen (WaitsFor T s) i j → ∀ m, Requests T s j m →
      ∃ l, Requests T s i l ∧ Precedes T l m := by
    intro i j h
    induction h with
    | single h => exact fun m hm => h.precedes hord hm
    | tail _ h ih =>
        intro m hm
        obtain ⟨n, hn, hnm⟩ := h.precedes hord hm
        obtain ⟨l, hl, hln⟩ := ih n hn
        exact ⟨l, hl, hln.trans hnm⟩
  intro i h
  obtain ⟨m, hm⟩ : ∃ m, Requests T s i m := by
    cases Relation.TransGen.head'_iff.mp h with
    | intro j hj => exact hj.1.requests
  obtain ⟨l, hl, hlm⟩ := hchain i i h m hm
  rw [hl.unique hm] at hlm
  exact Precedes.irrefl m hlm

end Proofs

/-! ## Runs -/

section Runs

variable {Txn : Type} {T : Table Row Mode} {locks : Txn → List (Lock Row Mode)}

/-- Only transactions with ordered requests begin. -/
def orderedOnly (T : Table Row Mode) (locks : Txn → List (Lock Row Mode)) (_ : State Row Mode) :
    Act Txn → Bool
  | .begin t => ordered T [] (locks t)
  | _ => true

theorem ordered_step {s s' : State Row Mode} {a : Act Txn}
    (hs : ∀ (i : Nat) (t : Session Row Mode), s[i]? = some t → t.Ordered T)
    (hok : orderedOnly T locks s a = true) (h : step T locks s a = some s') :
    ∀ (i : Nat) (t : Session Row Mode), s'[i]? = some t → t.Ordered T := by
  cases a with
  | begin t =>
      cases h
      intro i u hu
      rcases List.mem_append.mp (List.mem_of_getElem? hu) with hmem | hmem
      · obtain ⟨j, hj⟩ := List.mem_iff_getElem?.mp hmem
        exact hs j u hj
      · rw [List.mem_singleton.mp hmem]
        exact hok
  | acquire i =>
      obtain ⟨t, ht, h⟩ := Option.bind_eq_some_iff.mp h
      split at h
      · cases h
      · next l rest hnext =>
          split at h
          · cases h
            intro j u hu
            rcases List.mem_or_eq_of_mem_set (List.mem_of_getElem? hu) with hmem | rfl
            · obtain ⟨k, hk⟩ := List.mem_iff_getElem?.mp hmem
              exact hs k u hk
            · have hordered : ordered T t.held t.next = true := hs i t ht
              rw [hnext, ordered, Bool.and_eq_true] at hordered
              exact hordered.2
          · cases h
  | finish i =>
      simp only [step] at h
      split at h
      · cases h
        intro j u hu
        rcases List.mem_or_eq_of_mem_set (List.mem_of_getElem? hu) with hmem | rfl
        · obtain ⟨k, hk⟩ := List.mem_iff_getElem?.mp hmem
          exact hs k u hk
        · rfl
      · cases h

/-- **In a run of ordered transactions every session is ordered.** -/
theorem ordered_of_reaches {s : State Row Mode}
    (h : Machine.Reaches (step T locks) (orderedOnly T locks) [] s) :
    ∀ (i : Nat) (t : Session Row Mode), s[i]? = some t → t.Ordered T := by
  refine h.inv (P := fun s => ∀ (i : Nat) (t : Session Row Mode), s[i]? = some t → t.Ordered T) ?_ ?_
  · intro i t ht
    cases ht
  · exact fun s a s' hs hok hstep => ordered_step hs hok hstep

end Runs

end RowLocks
