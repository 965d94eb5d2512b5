import Remediator.Store

set_option autoImplicit false

/-! # The audit trail

`transition` of `remediator/lifecycle.py` on a database with row locks. The rest of the
development treats a transaction as one step; here it is taken apart. The callers of
`transition` are database sessions. A session works on its own copy of the case, which may be
out of date; its `UPDATE` waits for the row lock and is then checked against the row as it is
now; the audit row is added to the session and inserted later, with the next number of a
sequence that no rollback gives back; and the transaction is committed or rolled back, as a
whole or to a savepoint.
-/

namespace Remediator.Audit

/-! ## The database -/

/-- A committed or inserted row of `state_transitions`, with the call of `transition` that added
it: `from_state`, `to_state` and `actor` are columns, the other two arguments are not. -/
structure Entry where
  seq : Nat
  move : Move

/-- What a transaction has written. -/
structure Work where
  /-- its version of the case row; it holds the row lock exactly when it has one -/
  row : Option Case := none
  /-- audit rows it has inserted -/
  inserted : List Entry := []
  /-- audit rows in the session, not inserted yet -/
  added : List Move := []

structure Database where
  now : Nat := 0
  nextSeq : Nat := 1
  row : Case := {}
  audit : List Entry := []
  /-- the session that holds the lock of the case row -/
  holder : Option Nat := none
  work : Nat → Work := fun _ => {}
  /-- the savepoints of a session, the last one first -/
  saved : Nat → List Work := fun _ => []

/-- The case row as the session sees it: its own version, or the last committed one. -/
def Database.visible (d : Database) (x : Nat) : Case := (d.work x).row.getD d.row

/-- The lock is free for the session. -/
def Database.available (d : Database) (x : Nat) : Bool :=
  d.holder.isNone || decide (d.holder = some x)

/-- The session writes its version of the row, and holds the lock from now on. -/
def Database.write (d : Database) (x : Nat) (c : Case) (added : List Move) : Database :=
  { d with
    holder := some x
    work := fun y => if y = x then
        { d.work x with row := some c, added := (d.work x).added ++ added }
      else d.work y }

/-- Replace the work and the savepoints of the session; without a version of the row it holds no
lock. -/
def Database.reset (d : Database) (x : Nat) (w : Work) (ws : List Work) : Database :=
  { d with
    holder := if d.holder = some x ∧ w.row = none then none else d.holder
    work := fun y => if y = x then w else d.work y
    saved := fun y => if y = x then ws else d.saved y }

/-! ## Steps -/

/-- The row after the `UPDATE` of `transition`. -/
def moved (now : Nat) (m : Move) (c : Case) : Case :=
  { c with
    state := m.dst
    stateEnteredAt := now
    completedAt := if m.dst.terminal then some now else none }

inductive Step
  | tick (seconds : Nat)
  /-- an audit row of another case -/
  | nextval
  /-- `SELECT … FOR UPDATE` -/
  | lock (x : Nat)
  /-- claim, release, or hand over the case -/
  | assignClaim (x : Nat) (owner : Option Owner)
  /-- `transition`; `m.src` is the state of the session's copy, whatever it is -/
  | transition (x : Nat) (m : Move)
  /-- insert the first audit row that was added -/
  | flush (x : Nat)
  | savepoint (x : Nat)
  | release (x : Nat)
  | rollbackTo (x : Nat)
  | commit (x : Nat)
  /-- also what is left of a session that dies -/
  | rollback (x : Nat)

/-- One step; `none` when the session has to wait for the row lock, or there is nothing to do. A
`transition` that raises writes nothing. -/
def Database.exec (d : Database) : Step → Option Database
  | .tick n => some { d with now := d.now + n }
  | .nextval => some { d with nextSeq := d.nextSeq + 1 }
  | .lock x => if d.available x then some (d.write x (d.visible x) []) else none
  | .assignClaim x owner =>
      if d.available x then some (d.write x { d.visible x with claimedBy := owner } []) else none
  | .transition x m =>
      if m.dst ∉ m.src.allowed m.probeNotConfigured then some d
      else if d.available x = false then none
      else if m.ok (d.visible x) then some (d.write x (moved d.now m (d.visible x)) [m])
      else some d
  | .flush x =>
      match (d.work x).added with
      | [] => none
      | m :: ms => some { d with
          nextSeq := d.nextSeq + 1
          work := fun y => if y = x then
              { d.work x with inserted := (d.work x).inserted ++ [⟨d.nextSeq, m⟩], added := ms }
            else d.work y }
  | .savepoint x =>
      some { d with saved := fun y => if y = x then d.work x :: d.saved x else d.saved y }
  | .release x =>
      some { d with saved := fun y => if y = x then (d.saved x).tail else d.saved y }
  | .rollbackTo x =>
      match d.saved x with
      | [] => none
      | w :: ws => some (d.reset x w ws)
  | .commit x =>
      match (d.work x).added with
      | [] => some ({ d with
          row := d.visible x
          audit := d.audit ++ (d.work x).inserted }.reset x {} [])
      | _ :: _ => none
  | .rollback x => some (d.reset x {} [])

/-- Any interleaving of the sessions. -/
inductive Reaches : Database → Prop
  | init : Reaches {}
  | next {d d' : Database} (st : Step) : Reaches d → d.exec st = some d' → Reaches d'

/-! ## Paths -/

/-- The moves lead from `st` to `st'`, each of them over an edge its caller may use. -/
def Chain : CaseState → List Move → CaseState → Prop
  | st, [], st' => st = st'
  | st, m :: ms, st' =>
      m.src = st ∧ m.dst ∈ st.allowed m.probeNotConfigured ∧ Chain m.dst ms st'

/-- The audit rows of the case, `ORDER BY seq`. -/
def Database.trail (d : Database) : List Entry :=
  d.audit.mergeSort (fun a b => decide (a.seq ≤ b.seq))

theorem chain_append {st st' : CaseState} {ms ms' : List Move} :
    Chain st (ms ++ ms') st' ↔ ∃ mid, Chain st ms mid ∧ Chain mid ms' st' := by
  induction ms generalizing st with
  | nil => simp [Chain]
  | cons m ms ih =>
      simp only [List.cons_append, Chain, ih]
      constructor
      · rintro ⟨hs, ha, mid, h, h'⟩
        exact ⟨mid, ⟨hs, ha, h⟩, h'⟩
      · rintro ⟨mid, ⟨hs, ha, h⟩, h'⟩
        exact ⟨hs, ha, mid, h, h'⟩

/-! ## The invariant -/

/-- `completed_at` is set exactly in the terminal states. -/
def Dated (c : Case) : Prop := c.completedAt.isSome = c.state.terminal

/-- What a transaction has written continues the committed trail; without the lock it has
written nothing. -/
structure Work.Continues (w : Work) (d : Database) : Prop where
  bare : w.row = none → w.inserted = [] ∧ w.added = []
  chain : Chain d.row.state (w.inserted.map (·.move) ++ w.added) (w.row.getD d.row).state
  dated : ∀ c, w.row = some c → Dated c
  sorted : (d.audit ++ w.inserted).Pairwise (fun a b => a.seq < b.seq)
  below : ∀ e ∈ d.audit ++ w.inserted, e.seq < d.nextSeq

/-- The work of a session, and the earlier stages it can go back to. -/
def Database.stages (d : Database) (x : Nat) : List Work := d.work x :: d.saved x

structure Inv (d : Database) : Prop where
  chain : Chain .received (d.audit.map (·.move)) d.row.state
  dated : Dated d.row
  sorted : d.audit.Pairwise (fun a b => a.seq < b.seq)
  below : ∀ e ∈ d.audit, e.seq < d.nextSeq
  continues : ∀ x, ∀ w ∈ d.stages x, w.Continues d
  locked : ∀ x, ∀ w ∈ d.stages x, w.row ≠ none → d.holder = some x
  /-- a lock is kept until a savepoint before it -/
  nested : ∀ x, (d.stages x).Pairwise (fun w w' => w'.row ≠ none → w.row ≠ none)

theorem Inv.init : Inv {} where
  chain := rfl
  dated := rfl
  sorted := List.Pairwise.nil
  below := fun e he => absurd he List.not_mem_nil
  continues := by
    intro x w hw
    rw [List.mem_singleton.mp hw]
    exact ⟨fun _ => ⟨rfl, rfl⟩, rfl, fun c hc => (by cases hc), List.Pairwise.nil,
      fun e he => absurd he List.not_mem_nil⟩
  locked := by
    intro x w hw hrow
    rw [List.mem_singleton.mp hw] at hrow
    exact absurd rfl hrow
  nested := fun x => List.pairwise_singleton _ _

/-- Only the committed row and the sequence matter to a transaction. -/
theorem Work.Continues.mono {w : Work} {d d' : Database} (h : w.Continues d)
    (hrow : d'.row = d.row) (haudit : d'.audit = d.audit) (hseq : d.nextSeq ≤ d'.nextSeq) :
    w.Continues d' where
  bare := h.bare
  chain := by rw [hrow]; exact h.chain
  dated := h.dated
  sorted := by rw [haudit]; exact h.sorted
  below := by
    rw [haudit]
    intro e he
    exact Nat.lt_of_lt_of_le (h.below e he) hseq

/-- A transaction that has written nothing continues every trail. -/
theorem Work.Continues.of_bare {w : Work} {d : Database} (hrow : w.row = none)
    (hins : w.inserted = []) (hadd : w.added = [])
    (hsorted : d.audit.Pairwise (fun a b => a.seq < b.seq))
    (hbelow : ∀ e ∈ d.audit, e.seq < d.nextSeq) : w.Continues d where
  bare := fun _ => ⟨hins, hadd⟩
  chain := by rw [hrow, hins, hadd]; rfl
  dated := by
    intro c hc
    rw [hrow] at hc
    cases hc
  sorted := by rw [hins, List.append_nil]; exact hsorted
  below := by rw [hins, List.append_nil]; exact hbelow

/-- What the session sees continues the committed trail. -/
theorem Inv.chain_visible {d : Database} (h : Inv d) (x : Nat) :
    Chain d.row.state ((d.work x).inserted.map (·.move) ++ (d.work x).added)
      (d.visible x).state :=
  (h.continues x _ List.mem_cons_self).chain

theorem Inv.dated_visible {d : Database} (h : Inv d) (x : Nat) : Dated (d.visible x) := by
  unfold Database.visible
  cases hrow : (d.work x).row with
  | none => exact h.dated
  | some c => exact (h.continues x _ List.mem_cons_self).dated c hrow

/-- While the lock is free for `x`, no other session has written anything. -/
theorem Inv.eq_of_available {d : Database} (h : Inv d) {x y : Nat} (hx : d.available x = true)
    {w : Work} (hw : w ∈ d.stages y) (hrow : w.row ≠ none) : y = x := by
  have hy := h.locked y w hw hrow
  unfold Database.available at hx
  rw [hy] at hx
  simpa using hx

/-- The stages of a session whose work is replaced, and of the others. -/
theorem mem_replaced {d : Database} {x y : Nat} {w' w : Work}
    (hw : w ∈ (if y = x then w' else d.work y) :: d.saved y) :
    (y = x ∧ w = w') ∨ w ∈ d.stages y := by
  by_cases hy : y = x
  · rw [if_pos hy] at hw
    exact (List.mem_cons.mp hw).imp (fun h => ⟨hy, h⟩) (List.mem_cons_of_mem _)
  · rw [if_neg hy] at hw
    exact Or.inr hw

/-! ## One step -/

/-- The holder of the lock, or the first to take it, writes a new version of the row. -/
theorem Inv.write {d : Database} (h : Inv d) {x : Nat} (hx : d.available x = true) {c : Case}
    {added : List Move} (hchain : Chain (d.visible x).state added c.state) (hc : Dated c) :
    Inv (d.write x c added) where
  chain := h.chain
  dated := h.dated
  sorted := h.sorted
  below := h.below
  continues := by
    intro y w hw
    rcases mem_replaced (d := d) hw with ⟨-, rfl⟩ | hw
    · have hold := h.continues x _ List.mem_cons_self
      refine ⟨fun hnone => (by cases hnone), ?_, ?_, hold.sorted, hold.below⟩
      · show Chain d.row.state (_ ++ (_ ++ added)) c.state
        rw [← List.append_assoc]
        exact chain_append.mpr ⟨_, h.chain_visible x, hchain⟩
      · intro c' hc'
        cases hc'
        exact hc
    · exact (h.continues y w hw).mono rfl rfl (Nat.le_refl _)
  locked := by
    intro y w hw hrow
    rcases mem_replaced (d := d) hw with ⟨rfl, -⟩ | hw
    · rfl
    · rw [h.eq_of_available hx hw hrow]
      rfl
  nested := by
    intro y
    show List.Pairwise _ ((if y = x then _ else d.work y) :: d.saved y)
    split
    · exact List.pairwise_cons.mpr ⟨fun _ _ _ hnone => (by cases hnone), (List.pairwise_cons.mp (h.nested y)).2⟩
    · exact h.nested y

/-- The session goes back to stages that are sound in the present database. -/
theorem Inv.reset {d : Database} (h : Inv d) {x : Nat} {w : Work} {ws : List Work}
    (hcont : ∀ v ∈ w :: ws, v.Continues d)
    (hlock : ∀ v ∈ w :: ws, v.row ≠ none → d.holder = some x)
    (hnest : (w :: ws).Pairwise (fun v v' => v'.row ≠ none → v.row ≠ none)) :
    Inv (d.reset x w ws) := by
  have hstages : ∀ y, (d.reset x w ws).stages y = if y = x then w :: ws else d.stages y := by
    intro y
    unfold Database.stages Database.reset
    by_cases hy : y = x
    · simp [hy]
    · simp [hy]
  refine ⟨h.chain, h.dated, h.sorted, h.below, fun y v hv => ?_, fun y v hv hrow => ?_,
    fun y => ?_⟩
  · rw [hstages] at hv
    split at hv
    · exact (hcont v hv).mono rfl rfl (Nat.le_refl _)
    · exact (h.continues y v hv).mono rfl rfl (Nat.le_refl _)
  · rw [hstages] at hv
    show (if d.holder = some x ∧ w.row = none then none else d.holder) = some y
    split at hv
    · next hy =>
        -- a stage with the lock is at or behind `w`, so `w` has the lock too
        have hw : w.row ≠ none := by
          rcases List.mem_cons.mp hv with rfl | hv
          · exact hrow
          · exact (List.pairwise_cons.mp hnest).1 v hv hrow
        rw [if_neg (fun hc => hw hc.2), hy]
        exact hlock v hv hrow
    · next hy =>
        have hholder := h.locked y v hv hrow
        rw [if_neg (fun hc => hy (Option.some.inj (hholder.symm.trans hc.1)))]
        exact hholder
  · rw [hstages]
    split
    · exact hnest
    · exact h.nested y

/-- The work of the session becomes the committed row and the end of the trail. -/
theorem Inv.commit {d : Database} (h : Inv d) {x : Nat} (hadd : (d.work x).added = []) :
    Inv ({ d with
      row := d.visible x
      audit := d.audit ++ (d.work x).inserted }.reset x {} []) := by
  have hx := h.continues x _ List.mem_cons_self
  have hstages : ∀ y w, w ∈ Database.stages ({ d with
      row := d.visible x
      audit := d.audit ++ (d.work x).inserted }.reset x {} []) y →
      w = {} ∨ y ≠ x ∧ w ∈ d.stages y := by
    intro y w hw
    unfold Database.stages Database.reset at hw
    by_cases hy : y = x
    · simp only [hy, if_true, List.mem_singleton] at hw
      exact Or.inl hw
    · simp only [hy, if_false] at hw
      exact Or.inr ⟨hy, hw⟩
  refine ⟨?_, h.dated_visible x, hx.sorted, hx.below, fun y w hw => ?_, fun y w hw hrow => ?_,
    fun y => ?_⟩
  · show Chain .received ((d.audit ++ _).map _) _
    rw [List.map_append]
    refine chain_append.mpr ⟨_, h.chain, ?_⟩
    have hvis := h.chain_visible x
    rwa [hadd, List.append_nil] at hvis
  · rcases hstages y w hw with rfl | ⟨hy, hw⟩
    · exact .of_bare rfl rfl rfl hx.sorted hx.below
    · have hcont := h.continues y w hw
      by_cases hrow : w.row = none
      · obtain ⟨hins, hadd'⟩ := hcont.bare hrow
        exact .of_bare hrow hins hadd' hx.sorted hx.below
      · -- the lock is with `y`, so the commit of `x` publishes nothing
        have hnone : (d.work x).row = none := by
          by_contra hsome
          have hlx := h.locked x _ List.mem_cons_self hsome
          exact hy (Option.some.inj ((h.locked y w hw hrow).symm.trans hlx))
        have hins := (hx.bare hnone).1
        refine hcont.mono ?_ ?_ (Nat.le_refl _)
        · show d.visible x = d.row
          unfold Database.visible
          rw [hnone]
          rfl
        · show d.audit ++ (d.work x).inserted = d.audit
          rw [hins, List.append_nil]
  · rcases hstages y w hw with rfl | ⟨hy, hw⟩
    · exact absurd rfl hrow
    · have hholder := h.locked y w hw hrow
      show (if d.holder = some x ∧ _ then none else d.holder) = some y
      rw [if_neg (fun hc => hy (Option.some.inj (hholder.symm.trans hc.1)))]
      exact hholder
  · show List.Pairwise _ ((if y = x then _ else d.work y) :: (if y = x then _ else d.saved y))
    split
    · exact List.pairwise_singleton _ _
    · exact h.nested y

/-- The first added audit row gets the next number of the sequence. -/
theorem Inv.flush {d : Database} (h : Inv d) {x : Nat} {m : Move} {ms : List Move}
    (hadd : (d.work x).added = m :: ms) :
    Inv { d with
      nextSeq := d.nextSeq + 1
      work := fun y => if y = x then
          { d.work x with inserted := (d.work x).inserted ++ [⟨d.nextSeq, m⟩], added := ms }
        else d.work y } := by
  have hx := h.continues x _ List.mem_cons_self
  refine ⟨h.chain, h.dated, h.sorted, fun e he => Nat.lt_succ_of_lt (h.below e he),
    fun y w hw => ?_, fun y w hw hrow => ?_, fun y => ?_⟩
  · rcases mem_replaced (d := d) hw with ⟨-, rfl⟩ | hw
    · refine ⟨fun hrow => ?_, ?_, hx.dated, ?_, ?_⟩
      · -- an audit row is added only together with a version of the row
        have hbare := (hx.bare hrow).2
        rw [hadd] at hbare
        cases hbare
      · have hchain := hx.chain
        rw [hadd] at hchain
        simpa using hchain
      · show (d.audit ++ ((d.work x).inserted ++ [_])).Pairwise _
        rw [← List.append_assoc]
        refine List.pairwise_append.mpr ⟨hx.sorted, List.pairwise_singleton _ _, ?_⟩
        intro a ha b hb
        rw [List.mem_singleton.mp hb]
        exact hx.below a ha
      · intro e he
        rw [← List.append_assoc] at he
        rcases List.mem_append.mp he with he | he
        · exact Nat.lt_succ_of_lt (hx.below e he)
        · rw [List.mem_singleton.mp he]
          exact Nat.lt_succ_self _
    · exact (h.continues y w hw).mono rfl rfl (Nat.le_succ _)
  · rcases mem_replaced (d := d) hw with ⟨rfl, rfl⟩ | hw
    · exact h.locked y _ List.mem_cons_self hrow
    · exact h.locked y w hw hrow
  · have hn := List.pairwise_cons.mp (h.nested y)
    show List.Pairwise _ ((if y = x then _ else d.work y) :: d.saved y)
    split
    · next hy =>
        subst hy
        exact List.pairwise_cons.mpr ⟨hn.1, hn.2⟩
    · exact h.nested y

/-- Stages are only dropped, or the present one kept twice. -/
theorem Inv.resave {d : Database} (h : Inv d) {x : Nat} {ws : List Work}
    (hcont : ∀ w ∈ ws, w ∈ d.stages x)
    (hnest : (d.work x :: ws).Pairwise (fun w w' => w'.row ≠ none → w.row ≠ none)) :
    Inv { d with saved := fun y => if y = x then ws else d.saved y } := by
  have hstages : ∀ y w, w ∈ Database.stages
      { d with saved := fun y => if y = x then ws else d.saved y } y → w ∈ d.stages y := by
    intro y w hw
    rcases List.mem_cons.mp hw with rfl | hw
    · exact List.mem_cons_self
    · have hw : w ∈ if y = x then ws else d.saved y := hw
      by_cases hy : y = x
      · subst hy
        rw [if_pos rfl] at hw
        exact hcont w hw
      · rw [if_neg hy] at hw
        exact List.mem_cons_of_mem _ hw
  refine ⟨h.chain, h.dated, h.sorted, h.below,
    fun y w hw => (h.continues y w (hstages y w hw)).mono rfl rfl (Nat.le_refl _),
    fun y w hw => h.locked y w (hstages y w hw), fun y => ?_⟩
  show List.Pairwise _ (d.work y :: (if y = x then ws else d.saved y))
  split
  · next hy =>
      subst hy
      exact hnest
  · exact h.nested y

/-- The `UPDATE` of `transition` sees the state and the claim that its caller expects. -/
theorem move_ok_cases {m : Move} {c : Case} (h : m.ok c = true) :
    m.src = c.state ∧ m.dst ∈ c.state.allowed m.probeNotConfigured ∧
      ∀ o, m.claim = some o → c.claimedBy = some o := by
  simp only [Move.ok, Bool.and_eq_true, Bool.or_eq_true, decide_eq_true_eq] at h
  obtain ⟨⟨hsrc, hdst⟩, hclaim⟩ := h
  refine ⟨hsrc.symm, hsrc ▸ hdst, fun o ho => ?_⟩
  rcases hclaim with hnone | hclaim
  · rw [ho] at hnone
    cases hnone
  · rw [hclaim, ho]

theorem dated_moved (now : Nat) (m : Move) (c : Case) : Dated (moved now m c) := by
  unfold Dated moved
  cases m.dst.terminal with
  | true => rfl
  | false => rfl

theorem Inv.exec {d d' : Database} {st : Step} (h : Inv d) (hx : d.exec st = some d') :
    Inv d' := by
  cases st with
  | tick n =>
      cases hx
      exact ⟨h.chain, h.dated, h.sorted, h.below,
        fun x w hw => (h.continues x w hw).mono rfl rfl (Nat.le_refl _), h.locked, h.nested⟩
  | nextval =>
      cases hx
      exact ⟨h.chain, h.dated, h.sorted, fun e he => Nat.lt_succ_of_lt (h.below e he),
        fun x w hw => (h.continues x w hw).mono rfl rfl (Nat.le_succ _), h.locked, h.nested⟩
  | lock x =>
      simp only [Database.exec] at hx
      split at hx
      · next hav =>
          cases hx
          exact h.write hav rfl (h.dated_visible x)
      · cases hx
  | assignClaim x owner =>
      simp only [Database.exec] at hx
      split at hx
      · next hav =>
          cases hx
          exact h.write hav rfl (h.dated_visible x)
      · cases hx
  | transition x m =>
      simp only [Database.exec] at hx
      split at hx
      · cases hx
        exact h
      · split at hx
        · cases hx
        · next hav =>
            split at hx
            · next hok =>
                cases hx
                obtain ⟨hsrc, hdst, -⟩ := move_ok_cases hok
                exact h.write (by simpa using hav) ⟨hsrc, hdst, rfl⟩ (dated_moved _ _ _)
            · cases hx
              exact h
  | flush x =>
      simp only [Database.exec] at hx
      split at hx
      · cases hx
      · next m ms hadd =>
          cases hx
          exact h.flush hadd
  | savepoint x =>
      cases hx
      exact h.resave (fun w hw => hw)
        (List.pairwise_cons.mpr ⟨fun w hw hrow => by
          rcases List.mem_cons.mp hw with rfl | hw
          · exact hrow
          · exact (List.pairwise_cons.mp (h.nested x)).1 w hw hrow, h.nested x⟩)
  | release x =>
      cases hx
      refine h.resave (fun w hw => List.mem_cons_of_mem _ (List.mem_of_mem_tail hw)) ?_
      exact (h.nested x).sublist ((List.tail_sublist _).cons_cons _)
  | rollbackTo x =>
      simp only [Database.exec] at hx
      split at hx
      · cases hx
      · next w ws hsaved =>
          cases hx
          have hmem : ∀ v ∈ w :: ws, v ∈ d.stages x := by
            intro v hv
            unfold Database.stages
            rw [hsaved]
            exact List.mem_cons_of_mem _ hv
          have hnest := h.nested x
          unfold Database.stages at hnest
          rw [hsaved] at hnest
          exact h.reset (fun v hv => h.continues x v (hmem v hv))
            (fun v hv => h.locked x v (hmem v hv)) (List.pairwise_cons.mp hnest).2
  | commit x =>
      simp only [Database.exec] at hx
      split at hx
      · next hadd =>
          cases hx
          exact h.commit hadd
      · cases hx
  | rollback x =>
      cases hx
      refine h.reset (fun v hv => ?_) (fun v hv hrow => ?_) (List.pairwise_singleton _ _)
      · rw [List.mem_singleton.mp hv]
        exact .of_bare rfl rfl rfl h.sorted h.below
      · rw [List.mem_singleton.mp hv] at hrow
        exact absurd rfl hrow

/-! ## Every run -/

theorem inv_of_reaches {d : Database} (h : Reaches d) : Inv d := by
  induction h with
  | init => exact Inv.init
  | next st _ hx ih => exact ih.exec hx

/-- The rows are committed in the order of their numbers. -/
theorem Inv.trail_eq {d : Database} (h : Inv d) : d.trail = d.audit := by
  unfold Database.trail
  refine List.mergeSort_of_pairwise (h.sorted.imp (fun hab => ?_))
  exact decide_eq_true (Nat.le_of_lt hab)

/-- A call of `transition` that writes anything moves a case whose claim is the expected one. -/
theorem transition_claim {d d' : Database} {x : Nat} {m : Move}
    (hx : d.exec (.transition x m) = some d') (hne : d' ≠ d) {o : Owner}
    (ho : m.claim = some o) : (d.visible x).claimedBy = some o := by
  simp only [Database.exec] at hx
  split at hx
  · cases hx
    exact absurd rfl hne
  · split at hx
    · cases hx
    · split at hx
      · next hok => exact (move_ok_cases hok).2.2 o ho
      · cases hx
        exact absurd rfl hne

/-- **The audit trail is a path** from `RECEIVED` to the current state, whatever the sessions do
in between; `completed_at` is set in the terminal states and nowhere else; and nobody who names
a claim moves a case with another one. -/
theorem trail_of_reaches {d : Database} (h : Reaches d) :
    Chain .received (d.trail.map (·.move)) d.row.state ∧
      d.trail.Pairwise (fun a b => a.seq < b.seq) ∧
      (d.row.completedAt.isSome = true ↔ d.row.state.terminal = true) ∧
      ∀ x m d', d.exec (.transition x m) = some d' → d' ≠ d →
        ∀ o, m.claim = some o → (d.visible x).claimedBy = some o := by
  have hinv := inv_of_reaches h
  rw [hinv.trail_eq]
  refine ⟨hinv.chain, hinv.sorted, ?_, fun x m d' hx hne o ho => transition_claim hx hne ho⟩
  rw [hinv.dated]

/-- A list of steps, `none` as soon as one has to wait. -/
def Database.execAll (d : Database) : List Step → Option Database
  | [] => some d
  | st :: sts =>
      match d.exec st with
      | some d' => d'.execAll sts
      | none => none

theorem Reaches.execAll {d d' : Database} {sts : List Step} (h : Reaches d)
    (hx : d.execAll sts = some d') : Reaches d' := by
  induction sts generalizing d with
  | nil =>
      cases hx
      exact h
  | cons st sts ih =>
      simp only [Database.execAll] at hx
      split at hx
      · next d₁ hd₁ => exact ih (h.next st hd₁) hx
      · cases hx

/-- The worker 7 claims the case and evaluates it; an operator's cancel works from an older copy
and raises; the worker 8, whose claim is gone, raises too; a failure is recorded and rolled
back; and the worker 7 rejects the case. -/
def rejectedRun : List Step :=
  [.assignClaim 1 (some 7), .commit 1,
    .transition 1 ⟨.received, .eligibilityEvaluated, .worker, some 7, false⟩, .flush 1,
    .nextval, .commit 1,
    .transition 2 ⟨.received, .cancelled, .operator, none, false⟩,
    .transition 3 ⟨.eligibilityEvaluated, .failed, .worker, some 8, false⟩,
    .savepoint 1, .transition 1 ⟨.eligibilityEvaluated, .failed, .worker, some 7, false⟩, .flush 1,
    .rollbackTo 1,
    .transition 1 ⟨.eligibilityEvaluated, .policyRejected, .worker, some 7, false⟩, .flush 1,
    .commit 1]

theorem trail_of_reaches_demo : ∃ d, Reaches d ∧ d.row.state = .policyRejected ∧
    d.row.completedAt.isSome = true ∧ d.audit.map (·.seq) = [1, 4] ∧
    Chain .received (d.trail.map (·.move)) .policyRejected := by
  have hrun : (Database.execAll {} rejectedRun).map
      (fun d => (d.row.state, d.audit.map (·.seq))) = some (.policyRejected, [1, 4]) := by
    decide +kernel
  cases hd : Database.execAll {} rejectedRun with
  | none =>
      rw [hd] at hrun
      cases hrun
  | some d =>
      rw [hd] at hrun
      obtain ⟨hstate, hseq⟩ := Prod.mk.inj (Option.some.inj hrun)
      have hd := Reaches.init.execAll hd
      have htrail := trail_of_reaches hd
      rw [hstate] at htrail
      exact ⟨d, hd, hstate, htrail.2.2.1.mpr rfl, hseq, htrail.1⟩

end Remediator.Audit
