import Mathlib.Data.List.Nodup
import Remediator.Dispatch

set_option autoImplicit false

/-! # What is spent, and on what evidence

`create_session` is a `POST` without an idempotency key, so it is called only by the job that has
inserted the attempt, after the commit of its row and once. The unique indexes keep the ordinals
of the rows apart, and no row is inserted with an ordinal beyond the maximum. A remediation attempt
that is verified is inserted together with the link to the run of the probe that has reproduced the
defect; as long as one job at a time works on the case, the run is still free then, and the last
dispatch is the one that the attempt is created for.
-/

namespace Remediator

open Interleave

/-! ## The bound -/

/-- How often `create_session` was called for attempts of the kind. -/
def Store.spent (s : Store) (kind : AttemptKind) : Nat :=
  (s.history.posts.filter (fun a =>
    (s.core.attempts[a]?).any (fun row => decide (row.kind = kind)))).length

/-- Two rows that the unique indexes on `attempts` admit. -/
def Attempt.Apart (a b : Attempt) : Prop :=
  ¬ (a.kind = b.kind ∧ a.ordinal = b.ordinal) ∧ a.operationKey ≠ b.operationKey

/-- `create_session` is called for attempts whose row is committed, at most once for each, by the
job that has inserted it, and at most as often as the configuration allows. -/
structure SpendBound (cfg : Settings) (s : Store) : Prop where
  known : ∀ a ∈ s.history.posts, a < s.core.attempts.length
  once : s.history.posts.Nodup
  own : ¬ s.hit [.foundPosted]
  apart : s.core.attempts.Pairwise Attempt.Apart
  spent : ∀ kind, s.spent kind ≤ cfg.maxAttemptsPerKind

/-! ## The evidence -/

/-- The run has reproduced the defect at the commit that the attempt is pinned to, with the script
of the snapshot that the attempt is verified with. -/
structure ProbeExecution.Backs (x : ProbeExecution) (c : Core) (a : Attempt) : Prop where
  target : x.target = .base
  verdict : x.verdict = .matched
  snapshot : a.probeSnapshotId = some x.probeSnapshotId
  commit : a.baseSha = some x.commitSha
  script : ∃ p, c.snapshots[x.probeSnapshotId]? = some p ∧ x.scriptHash = p.scriptHash

/-- A remediation attempt that is not one without a probe. -/
def Attempt.NeedsRun (a : Attempt) : Prop := a.kind = .remediation ∧ a.probeStatus = .verified

/-- Every attempt that needs a run has one of its own. -/
structure Evidenced (c : Core) : Prop where
  run : ∀ (i : Nat) (a : Attempt), c.attempts[i]? = some a → a.NeedsRun →
    ∃ (e : Nat) (x : ProbeExecution), c.executions[e]? = some x ∧ x.attemptId = some i ∧
      x.Backs c a
  single : ∀ (e e' : Nat) (x x' : ProbeExecution) (i : Nat), c.executions[e]? = some x →
    c.executions[e']? = some x' → x.target = .base → x'.target = .base →
    x.attemptId = some i → x'.attemptId = some i → e = e'
  known : ∀ (e : Nat) (x : ProbeExecution) (i : Nat), c.executions[e]? = some x →
    x.target = .base → x.attemptId = some i → i < c.attempts.length

/-- One job at a time has worked on the case. -/
def Store.alone (s : Store) : Prop := ¬ s.hit [.crowded]

/-- What is behind both. -/
structure Spending (cfg : Settings) (s : Store) : Prop where
  known : ∀ a ∈ s.history.posts, a < s.core.attempts.length
  once : s.history.posts.Nodup
  own : s.history.incident .foundPosted = false
  unsent : ∀ o a, s.history.inserted o = some a → a < s.core.attempts.length ∧
    a ∉ s.history.posts
  single : ∀ o o' a, s.history.inserted o = some a → s.history.inserted o' = some a → o = o'
  apart : s.core.attempts.Pairwise Attempt.Apart
  range : ∀ a ∈ s.core.attempts, 0 < a.ordinal ∧ a.ordinal ≤ cfg.maxAttemptsPerKind
  evidenced : s.alone → Evidenced s.core
  decided : s.straight → s.case.state.dispatched = true → s.Decided

/-- Numbers that are told apart by their images in `1, …, n` are at most `n`. -/
theorem length_le_of_range {ids : List Nat} {f : Nat → Nat} {n : Nat} (hids : ids.Nodup)
    (hinj : ∀ i ∈ ids, ∀ j ∈ ids, f i = f j → i = j)
    (hrange : ∀ i ∈ ids, 0 < f i ∧ f i ≤ n) : ids.length ≤ n := by
  have hnodup : (ids.map f).Nodup := List.Nodup.map_on hinj hids
  have hsub : ids.map f ⊆ List.range' 1 n := by
    intro x hx
    obtain ⟨i, hi, rfl⟩ := List.mem_map.mp hx
    obtain ⟨hpos, hle⟩ := hrange i hi
    rw [List.mem_range'_1]
    omega
  calc ids.length = (ids.map f).length := (List.length_map _).symm
    _ ≤ (List.range' 1 n).length := hnodup.length_le_of_subset hsub
    _ = n := List.length_range'

theorem Spending.bounded {cfg : Settings} {s : Store} (h : Spending cfg s) : SpendBound cfg s := by
  refine ⟨h.known, h.once, ?_, h.apart, fun kind => ?_⟩
  · rintro ⟨k, hk, hhit⟩
    rw [List.mem_singleton.mp hk, h.own] at hhit
    cases hhit
  · -- the ordinals tell the attempts of the kind apart
    have hrow : ∀ i ∈ s.history.posts.filter (fun a =>
        (s.core.attempts[a]?).any (fun row => decide (row.kind = kind))),
        ∃ row, s.core.attempts[i]? = some row ∧ row.kind = kind := by
      intro i hi
      obtain ⟨-, hi⟩ := List.mem_filter.mp hi
      cases hrow : s.core.attempts[i]? with
      | none => simp [hrow] at hi
      | some row => exact ⟨row, rfl, by simpa [hrow] using hi⟩
    refine length_le_of_range (f := fun i => ((s.core.attempts[i]?).map (·.ordinal)).getD 0)
      (h.once.filter _) (fun i hi j hj hij => ?_) (fun i hi => ?_)
    · obtain ⟨a, ha, hakind⟩ := hrow i hi
      obtain ⟨b, hb, hbkind⟩ := hrow j hj
      simp only [ha, hb, Option.map_some, Option.getD_some] at hij
      obtain ⟨hil, rfl⟩ := List.getElem?_eq_some_iff.mp ha
      obtain ⟨hjl, rfl⟩ := List.getElem?_eq_some_iff.mp hb
      have hapart := List.pairwise_iff_getElem.mp h.apart
      rcases Nat.lt_trichotomy i j with hlt | heq | hgt
      · exact absurd ⟨hakind.trans hbkind.symm, hij⟩ (hapart i j hil hjl hlt).1
      · exact heq
      · exact absurd ⟨hbkind.trans hakind.symm, hij.symm⟩ (hapart j i hjl hil hgt).1
    · obtain ⟨a, ha, -⟩ := hrow i hi
      simp only [ha, Option.map_some, Option.getD_some]
      exact h.range a (List.mem_of_getElem? ha)

/-! ## The contract -/

/-- The attempt consumes a run that backs it, if it needs one; it needs none only if no probe was
ever taken from the registry. -/
structure NewAttempt.Backed (n : NewAttempt) (c : Core) : Prop where
  bare : n.row.kind = .remediation → n.row.probeStatus = .notConfigured → c.snapshots = []
  needs : n.row.NeedsRun → n.link.isSome = true
  link : ∀ e, n.link = some e → ∃ x : ProbeExecution,
    c.executions[e]? = some x ∧ x.attemptId = none ∧ x.Backs c n.row

/-- What only a job at work does. -/
def Txn.Busy (t : Txn) : Prop :=
  t.insert.isSome = true ∨ t.snapshots ≠ [] ∨ t.executions ≠ [] ∨ t.enters

/-- What a thread `o` sees to when it commits `t` under the name `o'`: it takes up the case and
inserts an attempt under its own name only, with an ordinal that the configuration allows, and with
its evidence and as the last dispatch has it; it dispatches the case and records what is about a
probe only while it works on the case, and a probe is run before the case is dispatched. -/
structure Txn.Spends (cfg : Settings) (o o' : Owner) (t : Txn) (s : Store) : Prop where
  valid : movesOk t.moves s.case = true
  unique : t.unique s.core = true
  starts : t.starts = true → o' = o
  own : ∀ n, t.insert = some n → o' = o
  range : ∀ n, t.insert = some n → 0 < n.row.ordinal ∧ n.row.ordinal ≤ cfg.maxAttemptsPerKind
  works : s.alone → t.Busy → s.history.atWork = some o
  backed : s.alone → ∀ n, t.insert = some n → n.Backed s.core
  runs : ∀ x ∈ t.executions, x.target = .base → x.attemptId = none
  probes : s.alone → t.snapshots ≠ [] ∨ (∃ x ∈ t.executions, x.target = .base) →
    (movesEnd t.moves s.case.state).dispatched = false
  dispatched : s.straight → ∀ n, t.insert = some n → n.row.kind = .remediation →
    s.DispatchedAs n.row

/-- A thread calls `create_session` for the attempt it has inserted, and not again. -/
def spendContract (cfg : Settings) : Contract Store Op where
  inv := Spending cfg
  allowed o s
    | .commit o' t => t.Spends cfg o o' s
    | .post o' a _ => o' = o ∧ s.history.inserted o = some a
    | .leave _ => False
    | _ => True

theorem alone_of_apply {op : Op} {s : Store} (h : (op.apply s).alone) : s.alone :=
  (not_hit_apply h).1

theorem straight_of_apply {op : Op} {s : Store} (h : (op.apply s).straight) : s.straight :=
  (not_hit_apply h).1

theorem Store.straight.alone {s : Store} (h : s.straight) : s.alone := by
  rintro ⟨k, hk, hhit⟩
  obtain rfl := List.mem_singleton.mp hk
  exact h ⟨.crowded, by decide, hhit⟩

/-! ## A commit -/

/-- The columns that are not written after the insert, as far as the results read them. -/
def Attempt.fixed (a : Attempt) :
    AttemptKind × Nat × OperationKey × ProbeStatus × Option Nat × Option String :=
  (a.kind, a.ordinal, a.operationKey, a.probeStatus, a.probeSnapshotId, a.baseSha)

section Commit

variable {cfg : Settings} {o o' : Owner} {t : Txn} {s : Store}

theorem attempts_fixed (t : Txn) (c : Core) :
    (t.attempts c).map Attempt.fixed = c.attempts.map Attempt.fixed :=
  flush_map _ (fun _ _ _ => rfl) _

/-- A row after the writes is the row before them, in its fixed columns. -/
theorem attempts_get {t : Txn} {c : Core} {i : Nat} {a : Attempt}
    (h : (t.attempts c)[i]? = some a) : ∃ b, c.attempts[i]? = some b ∧ b.fixed = a.fixed := by
  have hget : ((t.attempts c).map Attempt.fixed)[i]? = some a.fixed := by
    rw [List.getElem?_map, h]
    rfl
  rw [attempts_fixed, List.getElem?_map] at hget
  exact Option.map_eq_some_iff.mp hget

theorem attempts_apart {t : Txn} {c : Core} (h : c.attempts.Pairwise Attempt.Apart) :
    (t.attempts c).Pairwise Attempt.Apart := by
  have hfixed : (c.attempts.map Attempt.fixed).Pairwise
      (fun x y => ¬ (x.1 = y.1 ∧ x.2.1 = y.2.1) ∧ x.2.2.1 ≠ y.2.2.1) := List.pairwise_map.mpr h
  rw [← attempts_fixed t] at hfixed
  exact (List.pairwise_map (f := Attempt.fixed)).mp hfixed

theorem attempts_length (t : Txn) (c : Core) : (t.attempts c).length = c.attempts.length :=
  flush_length _ _ _

theorem commit_attempts :
    ((Op.commit o' t).apply s).core.attempts =
      t.attempts s.core ++ t.insert.toList.map (·.row) := rfl

theorem commit_length :
    s.core.attempts.length ≤ ((Op.commit o' t).apply s).core.attempts.length := by
  rw [commit_attempts, List.length_append, attempts_length]
  exact Nat.le_add_right _ _

/-- A row of the table after the commit. -/
theorem commit_attempt {i : Nat} {a : Attempt}
    (h : ((Op.commit o' t).apply s).core.attempts[i]? = some a) :
    (∃ b, s.core.attempts[i]? = some b ∧ b.fixed = a.fixed) ∨
      i = s.core.attempts.length ∧ ∃ n, t.insert = some n ∧ n.row = a := by
  rw [commit_attempts, List.getElem?_append, attempts_length] at h
  split at h
  · exact Or.inl (attempts_get h)
  · next hge =>
      refine Or.inr ?_
      cases hn : t.insert with
      | none =>
          rw [hn] at h
          cases h
      | some n =>
          rw [hn] at h
          obtain ⟨hlt, hrow⟩ := List.getElem?_eq_some_iff.mp h
          have hi : i = s.core.attempts.length := by
            simp at hlt
            omega
          refine ⟨hi, n, rfl, ?_⟩
          subst hi
          simpa using hrow

theorem commit_inserted (o : Owner) : ((Op.commit o' t).apply s).history.inserted o =
    if o = o' ∧ t.insert.isSome then some s.core.attempts.length
    else s.history.inserted o := rfl

theorem commit_snapshot {p : Nat} {x : ProbeSnapshot} (h : s.core.snapshots[p]? = some x) :
    ((Op.commit o' t).apply s).core.snapshots[p]? = some x := by
  show (s.core.snapshots ++ t.snapshots)[p]? = some x
  obtain ⟨hlt, rfl⟩ := List.getElem?_eq_some_iff.mp h
  rw [List.getElem?_append_left hlt]
  exact List.getElem?_eq_getElem hlt

/-- The link of the attempt that the transaction inserts. -/
def Txn.link (t : Txn) : Option Nat := t.insert.bind (·.link)

theorem commit_executions : ((Op.commit o' t).apply s).core.executions =
    (match t.link with
      | some e => s.core.executions.modify e
          (fun x => { x with attemptId := some s.core.attempts.length })
      | none => s.core.executions) ++ t.executions := rfl

/-- The run as the commit leaves it. -/
def Txn.linked (t : Txn) (c : Core) (e : Nat) (x : ProbeExecution) : ProbeExecution :=
  if t.link = some e then { x with attemptId := some c.attempts.length } else x

theorem commit_execution {e : Nat} {x : ProbeExecution} (h : s.core.executions[e]? = some x) :
    ((Op.commit o' t).apply s).core.executions[e]? = some (t.linked s.core e x) := by
  obtain ⟨hlt, rfl⟩ := List.getElem?_eq_some_iff.mp h
  rw [commit_executions]
  unfold Txn.linked
  cases hl : t.link with
  | none =>
      dsimp only
      rw [List.getElem?_append_left hlt, if_neg nofun]
      exact List.getElem?_eq_getElem hlt
  | some e' =>
      dsimp only
      rw [List.getElem?_append_left (by rwa [List.length_modify]), List.getElem?_modify,
        List.getElem?_eq_getElem hlt]
      by_cases he : e' = e
      · simp [he]
      · simp [he]

/-- A run after the commit was there before it, or it is a new one. -/
theorem execution_commit {e : Nat} {x : ProbeExecution}
    (h : ((Op.commit o' t).apply s).core.executions[e]? = some x) :
    (∃ y, s.core.executions[e]? = some y ∧ x = t.linked s.core e y) ∨ x ∈ t.executions := by
  cases hy : s.core.executions[e]? with
  | some y =>
      rw [commit_execution hy] at h
      exact Or.inl ⟨y, rfl, (Option.some.inj h).symm⟩
  | none =>
      refine Or.inr ?_
      have hge : s.core.executions.length ≤ e := List.getElem?_eq_none_iff.mp hy
      rw [commit_executions] at h
      have hlength : (match t.link with
          | some e => s.core.executions.modify e
              (fun x => { x with attemptId := some s.core.attempts.length })
          | none => s.core.executions).length ≤ e := by
        split
        · rwa [List.length_modify]
        · exact hge
      rw [List.getElem?_append_right hlength] at h
      exact List.mem_of_getElem? h

/-- The row of an insert that the unique indexes admit. -/
theorem apart_of_unique {n : NewAttempt} (hinsert : t.insert = some n)
    (h : t.unique s.core = true) : ∀ a ∈ t.attempts s.core, a.Apart n.row := by
  intro a ha
  unfold Txn.unique at h
  rw [hinsert] at h
  have hrow := List.all_eq_true.mp h a ha
  simp only [Bool.and_eq_true, Bool.not_eq_true', Bool.and_eq_false_iff,
    decide_eq_false_iff_not] at hrow
  exact ⟨fun hsame => hrow.1.1.elim (· hsame.1) (· hsame.2), hrow.1.2⟩

/-! ### The runs of the probe -/

theorem linked_backs {c : Core} {e : Nat} {x : ProbeExecution} {a : Attempt}
    (h : x.Backs s.core a) : (t.linked c e x).Backs ((Op.commit o' t).apply s).core a := by
  obtain ⟨p, hp, hscript⟩ := h.script
  unfold Txn.linked
  split
  · exact ⟨h.target, h.verdict, h.snapshot, h.commit, p, commit_snapshot hp, hscript⟩
  · exact ⟨h.target, h.verdict, h.snapshot, h.commit, p, commit_snapshot hp, hscript⟩

theorem backs_fixed {c : Core} {x : ProbeExecution} {a b : Attempt} (h : x.Backs c a)
    (hfixed : a.fixed = b.fixed) : x.Backs c b := by
  simp only [Attempt.fixed, Prod.mk.injEq] at hfixed
  obtain ⟨-, -, -, -, hsnapshot, hbase⟩ := hfixed
  exact ⟨h.target, h.verdict, hsnapshot ▸ h.snapshot, hbase ▸ h.commit, h.script⟩

theorem needsRun_fixed {a b : Attempt} (h : b.NeedsRun) (hfixed : a.fixed = b.fixed) :
    a.NeedsRun := by
  simp only [Attempt.fixed, Prod.mk.injEq] at hfixed
  obtain ⟨hkind, -, -, hstatus, -, -⟩ := hfixed
  exact ⟨hkind.trans h.1, hstatus.trans h.2⟩

/-- A free run is linked to the new attempt, and every other run keeps its link. -/
theorem linked_attempt {e : Nat} {x : ProbeExecution} {i : Nat}
    (h : (t.linked s.core e x).attemptId = some i) :
    x.attemptId = some i ∧ t.link ≠ some e ∨
      t.link = some e ∧ i = s.core.attempts.length := by
  unfold Txn.linked at h
  split at h
  · next hl => exact Or.inr ⟨hl, (Option.some.inj h).symm⟩
  · next hl => exact Or.inl ⟨h, hl⟩

theorem link_free (hbacked : ∀ n, t.insert = some n → n.Backed s.core) {e : Nat}
    (h : t.link = some e) : ∃ x n, s.core.executions[e]? = some x ∧ x.attemptId = none ∧
      t.insert = some n ∧ x.Backs s.core n.row := by
  obtain ⟨n, hn, hlink⟩ := Option.bind_eq_some_iff.mp h
  obtain ⟨x, hx, hfree, hbacks⟩ := (hbacked n hn).link e hlink
  exact ⟨x, n, hx, hfree, hn, hbacks⟩

theorem Evidenced.commit (h : Evidenced s.core)
    (hbacked : ∀ n, t.insert = some n → n.Backed s.core)
    (hruns : ∀ x ∈ t.executions, x.target = .base → x.attemptId = none) :
    Evidenced ((Op.commit o' t).apply s).core := by
  -- a linked run was there before, and was linked or is the one that is linked now
  have hold : ∀ (e : Nat) (x : ProbeExecution) (i : Nat),
      ((Op.commit o' t).apply s).core.executions[e]? = some x → x.target = .base →
      x.attemptId = some i →
      ∃ y, s.core.executions[e]? = some y ∧ y.target = .base ∧
        (y.attemptId = some i ∨ t.link = some e ∧ i = s.core.attempts.length) := by
    intro e x i hx htarget hattempt
    rcases execution_commit hx with ⟨y, hy, rfl⟩ | hnew
    · refine ⟨y, hy, ?_, (linked_attempt hattempt).imp And.left id⟩
      unfold Txn.linked at htarget
      split at htarget
      · exact htarget
      · exact htarget
    · rw [hruns x hnew htarget] at hattempt
      cases hattempt
  refine ⟨fun i a ha hneeds => ?_, fun e e' x x' i hx hx' hbase hbase' hi hi' => ?_,
    fun e x i hx hbase hi => ?_⟩
  · rcases commit_attempt ha with ⟨b, hb, hfixed⟩ | ⟨rfl, n, hn, rfl⟩
    · obtain ⟨e, x, hx, hattempt, hbacks⟩ := h.run i b hb (needsRun_fixed hneeds hfixed)
      refine ⟨e, _, commit_execution hx, ?_, backs_fixed (linked_backs hbacks) hfixed⟩
      unfold Txn.linked
      rw [if_neg]
      · exact hattempt
      · -- the run that is linked now was free
        intro hlink
        obtain ⟨y, -, hy, hfree, -⟩ := link_free hbacked hlink
        rw [hx] at hy
        rw [← Option.some.inj hy, hattempt] at hfree
        cases hfree
    · obtain ⟨e, he⟩ := Option.isSome_iff_exists.mp ((hbacked n hn).needs hneeds)
      obtain ⟨x, hx, -, hbacks⟩ := (hbacked n hn).link e he
      have hlink : t.link = some e := by
        unfold Txn.link
        rw [hn]
        exact he
      refine ⟨e, _, commit_execution hx, ?_, linked_backs hbacks⟩
      unfold Txn.linked
      rw [if_pos hlink]
  · obtain ⟨y, hy, hybase, hyi⟩ := hold e x i hx hbase hi
    obtain ⟨y', hy', hybase', hyi'⟩ := hold e' x' i hx' hbase' hi'
    rcases hyi with hyi | ⟨hl, hi⟩ <;> rcases hyi' with hyi' | ⟨hl', hi'⟩
    · exact h.single e e' y y' i hy hy' hybase hybase' hyi hyi'
    · exact absurd (h.known e y i hy hybase hyi) (by omega)
    · exact absurd (h.known e' y' i hy' hybase' hyi') (by omega)
    · exact Option.some.inj (hl.symm.trans hl')
  · obtain ⟨y, hy, hybase, hyi⟩ := hold e x i hx hbase hi
    rcases hyi with hyi | ⟨hl, rfl⟩
    · exact Nat.lt_of_lt_of_le (h.known e y i hy hybase hyi) commit_length
    · obtain ⟨-, n, -, -, hn, -⟩ := link_free hbacked hl
      rw [commit_attempts, hn, List.length_append, attempts_length]
      exact Nat.lt_succ_self _

/-! ### The dispatch -/

/-- A commit frees no run, but for a new one. -/
theorem freeRun_commit (hsnapshots : t.snapshots = [])
    (hruns : ∀ x ∈ t.executions, x.target ≠ .base)
    (h : ((Op.commit o' t).apply s).core.freeRun = true) : s.core.freeRun = true := by
  have hsame : ((Op.commit o' t).apply s).core.snapshots = s.core.snapshots := by
    show s.core.snapshots ++ t.snapshots = s.core.snapshots
    rw [hsnapshots, List.append_nil]
  obtain ⟨p, hp, x, hx, hsnapshot, htarget, hverdict, hcommit, hscript, hfree⟩ := freeRun_iff.mp h
  rw [hsame] at hp hsnapshot
  obtain ⟨e, he⟩ := List.mem_iff_getElem?.mp hx
  rcases execution_commit he with ⟨y, hy, rfl⟩ | hnew
  · unfold Txn.linked at hsnapshot htarget hverdict hcommit hscript hfree
    split at hfree
    · cases hfree
    · next hlink =>
        rw [if_neg hlink] at hsnapshot htarget hverdict hcommit hscript
        exact freeRun_iff.mpr ⟨p, hp, y, List.mem_of_getElem? hy, hsnapshot, htarget, hverdict,
          hcommit, hscript, hfree⟩
  · exact absurd htarget (hruns x hnew)

/-- A run that is not consumed stays free. -/
theorem freeRun_stays (hlink : t.link = none) (hsnapshots : t.snapshots = [])
    (h : s.core.freeRun = true) : ((Op.commit o' t).apply s).core.freeRun = true := by
  have hsame : ((Op.commit o' t).apply s).core.snapshots = s.core.snapshots := by
    show s.core.snapshots ++ t.snapshots = s.core.snapshots
    rw [hsnapshots, List.append_nil]
  obtain ⟨p, hp, x, hx, hrun⟩ := freeRun_iff.mp h
  obtain ⟨e, he⟩ := List.mem_iff_getElem?.mp hx
  refine freeRun_iff.mpr ⟨p, by rw [hsame]; exact hp, x, List.mem_of_getElem? (i := e) ?_, ?_⟩
  · rw [commit_execution he]
    unfold Txn.linked
    rw [hlink, if_neg nofun]
  · rw [hsame]
    exact hrun

/-- What was decided is not touched by a commit that neither enters nor frees a run. -/
theorem Store.Decided.commit (h : s.Decided) (henters : ¬ t.enters) (hsnapshots : t.snapshots = [])
    (hruns : ∀ x ∈ t.executions, x.target ≠ .base) : ((Op.commit o' t).apply s).Decided := by
  intro hfree
  rw [intentFrom_commit henters]
  exact h (freeRun_commit hsnapshots hruns hfree)

/-- The case is dispatched by the commit; without a probe only if no run is free. -/
theorem decided_of_enters (hvalid : movesOk t.moves s.case = true) (henters : t.enters)
    (hsnapshots : t.snapshots = []) (hruns : ∀ x ∈ t.executions, x.target ≠ .base)
    (hstraight : ((Op.commit o' t).apply s).straight) : ((Op.commit o' t).apply s).Decided := by
  intro hfree
  obtain ⟨st, hst⟩ := Option.ne_none_iff_exists'.mp (rows_entered henters)
  have hlog : intentFrom ((Op.commit o' t).apply s).log = some st := by
    show intentFrom (s.log ++ t.rows) = _
    rw [intentFrom_append, hst]
    rfl
  obtain ⟨x, hx, hdst, hsrc⟩ := intentFrom_some hst
  obtain ⟨m, hm, rfl⟩ := List.mem_map.mp hx
  have hallowed := movesOk_allowed hvalid m hm
  rw [show m.dst = .remediationCreateIntent from hdst] at hallowed
  rcases allowed_intent m.src m.probeNotConfigured hallowed with hprobed | hbare
  · rw [hlog, ← hsrc]
    exact congrArg some hprobed
  · have hno : (s.core.freeRun && t.moves.any (fun m =>
        decide (m.dst = .remediationCreateIntent) &&
          decide (m.src = .remediationApproved))) = false :=
      (not_hit_apply hstraight).2 .bareWithRun (by decide)
    have hmoves : t.moves.any (fun m => decide (m.dst = .remediationCreateIntent) &&
        decide (m.src = .remediationApproved)) = true :=
      List.any_eq_true.mpr ⟨m, hm, by simp [show m.dst = _ from hdst, hbare]⟩
    rw [hmoves, Bool.and_true, freeRun_commit hsnapshots hruns hfree] at hno
    cases hno

/-! ## The invariant -/

theorem Spending.commit (h : Spending cfg s) (ht : t.Spends cfg o o' s) :
    Spending cfg ((Op.commit o' t).apply s) := by
  refine ⟨fun a ha => Nat.lt_of_lt_of_le (h.known a ha) commit_length, h.once, ?_, ?_, ?_, ?_, ?_,
    fun halone => ?_, fun hstraight hstate => ?_⟩
  · rw [apply_incident, h.own]
    rfl
  · intro o'' a ha
    rw [commit_inserted] at ha
    split at ha
    · next hnew =>
        -- the new row
        cases ha
        obtain ⟨n, hn⟩ := Option.isSome_iff_exists.mp hnew.2
        refine ⟨?_, fun hmem => Nat.lt_irrefl _ (h.known _ hmem)⟩
        rw [commit_attempts, hn, List.length_append, attempts_length]
        exact Nat.lt_succ_self _
    · obtain ⟨hlt, hnot⟩ := h.unsent o'' a ha
      exact ⟨Nat.lt_of_lt_of_le hlt commit_length, hnot⟩
  · intro o₁ o₂ a h₁ h₂
    rw [commit_inserted] at h₁ h₂
    split at h₁ <;> split at h₂
    · next hnew hnew' => exact hnew.1.trans hnew'.1.symm
    · cases h₁
      exact absurd (h.unsent o₂ _ h₂).1 (Nat.lt_irrefl _)
    · cases h₂
      exact absurd (h.unsent o₁ _ h₁).1 (Nat.lt_irrefl _)
    · exact h.single o₁ o₂ a h₁ h₂
  · rw [commit_attempts]
    cases hn : t.insert with
    | none => simpa using attempts_apart h.apart
    | some n =>
        refine List.pairwise_append.mpr ⟨attempts_apart h.apart, List.pairwise_singleton _ _, ?_⟩
        intro a ha b hb
        rw [List.mem_singleton.mp hb]
        exact apart_of_unique hn ht.unique a ha
  · intro a ha
    obtain ⟨i, hi⟩ := List.mem_iff_getElem?.mp ha
    rcases commit_attempt hi with ⟨b, hb, hfixed⟩ | ⟨-, n, hn, rfl⟩
    · have hordinal : b.ordinal = a.ordinal := congrArg (fun k => k.2.1) hfixed
      rw [← hordinal]
      exact h.range b (List.mem_of_getElem? hb)
    · exact ht.range n hn
  · have hbefore := alone_of_apply halone
    exact (h.evidenced hbefore).commit (ht.backed hbefore) ht.runs
  · have hbefore := straight_of_apply hstraight
    -- no probe is run in a case that is dispatched
    have hidle : ¬ (t.snapshots ≠ [] ∨ ∃ x ∈ t.executions, x.target = .base) := by
      intro hprobe
      have hend := ht.probes hbefore.alone hprobe
      rw [show movesEnd t.moves s.case.state =
        ((Op.commit o' t).apply s).case.state from rfl, hstate] at hend
      cases hend
    obtain ⟨hsnapshots, hruns⟩ := not_or.mp hidle
    have hruns : ∀ x ∈ t.executions, x.target ≠ .base :=
      fun x hx hbase => hruns ⟨x, hx, hbase⟩
    by_cases henters : t.enters
    · exact decided_of_enters ht.valid henters (not_not.mp hsnapshots) hruns hstraight
    · refine (h.decided hbefore (dispatched_before ht.valid ?_ hstate)).commit henters
        (not_not.mp hsnapshots) hruns
      exact fun m hm hdst => henters ⟨m, hm, hdst⟩

/-- An operation that neither moves the case nor concerns its probes. -/
theorem Spending.still (h : Spending cfg s) {op : Op}
    (hstate : (op.apply s).case.state = s.case.state) (hlog : (op.apply s).log = s.log)
    (hcore : (op.apply s).core = s.core) :
    (op.apply s).straight → (op.apply s).case.state.dispatched = true → (op.apply s).Decided := by
  intro hstraight hdispatched
  rw [hstate] at hdispatched
  unfold Store.Decided
  rw [hlog, hcore]
  exact h.decided (straight_of_apply hstraight) hdispatched

theorem Spending.post {r : PostResult} {a : Nat} (h : Spending cfg s)
    (hown : s.history.inserted o = some a) : Spending cfg ((Op.post o a r).apply s) := by
  obtain ⟨hlt, hnot⟩ := h.unsent o a hown
  -- what the others have inserted and not sent
  have hothers : ∀ o' b, ((Op.post o a r).apply s).history.inserted o' = some b →
      o' ≠ o ∧ s.history.inserted o' = some b := by
    intro o' b hb
    change (if o' = o then none else s.history.inserted o') = some b at hb
    split at hb
    · cases hb
    · next hne => exact ⟨hne, hb⟩
  refine ⟨fun b hb => ?_, ?_, ?_, fun o' b hb => ?_, fun o₁ o₂ b h₁ h₂ => ?_, h.apart, h.range,
    fun halone => h.evidenced (alone_of_apply halone), h.still rfl rfl rfl⟩
  · rcases List.mem_append.mp hb with hold | hnew
    · exact h.known b hold
    · rw [List.mem_singleton.mp hnew]
      exact hlt
  · exact List.nodup_append.mpr ⟨h.once, List.nodup_singleton a, fun b hb c hc heq => by
      rw [List.mem_singleton.mp hc] at heq
      exact hnot (heq ▸ hb)⟩
  · rw [apply_incident, h.own]
    simp [Op.incident, hown]
  · obtain ⟨hne, hb⟩ := hothers o' b hb
    obtain ⟨hlt, hunsent⟩ := h.unsent o' b hb
    refine ⟨hlt, fun hmem => ?_⟩
    rcases List.mem_append.mp hmem with hold | hnew
    · exact hunsent hold
    · rw [List.mem_singleton.mp hnew] at hb
      exact hne (h.single o' o a hb hown)
  · exact h.single o₁ o₂ b (hothers o₁ b h₁).2 (hothers o₂ b h₂).2

theorem Spending.leave (h : Spending cfg s) : Spending cfg ((Op.leave o).apply s) := by
  have hothers : ∀ o' b, ((Op.leave o).apply s).history.inserted o' = some b →
      s.history.inserted o' = some b := by
    intro o' b hb
    change (if o' = o then none else s.history.inserted o') = some b at hb
    split at hb
    · cases hb
    · exact hb
  refine ⟨h.known, h.once, ?_, fun o' b hb => h.unsent o' b (hothers o' b hb),
    fun o₁ o₂ b h₁ h₂ => h.single o₁ o₂ b (hothers o₁ b h₁) (hothers o₂ b h₂), h.apart, h.range,
    fun halone => h.evidenced (alone_of_apply halone), h.still rfl rfl rfl⟩
  rw [apply_incident, h.own]
  simp [Op.incident]

/-- What the contract allows keeps the invariant; the other operations concern neither attempts
nor calls of `create_session`. -/
theorem Spending.allowed {op : Op} (h : Spending cfg s)
    (hallowed : (spendContract cfg).allowed o s op) : Spending cfg (op.apply s) := by
  have hown : ∀ op : Op, op.incident s .foundPosted = false →
      (op.apply s).history.incident .foundPosted = false := by
    intro op hop
    rw [apply_incident, h.own, hop]
    rfl
  cases op with
  | commit o' t => exact h.commit hallowed
  | post o' a r =>
      obtain ⟨rfl, hinserted⟩ : o' = o ∧ s.history.inserted o = some a := hallowed
      exact h.post hinserted
  | leave o' => exact absurd hallowed not_false
  | heartbeat o' n => exact ⟨h.known, h.once, hown _ rfl, h.unsent, h.single, h.apart, h.range,
      fun halone => h.evidenced (alone_of_apply halone),
      h.still (heartbeat_state o' n s) rfl rfl⟩
  | _ => exact ⟨h.known, h.once, hown _ rfl, h.unsent, h.single, h.apart, h.range,
      fun halone => h.evidenced (alone_of_apply halone), h.still rfl rfl rfl⟩

theorem Evidenced.start : Evidenced {} where
  run := fun i a ha => by cases ha
  single := fun e e' x x' i hx => by cases hx
  known := fun e x i hx => by cases hx

theorem Spending.start (cfg : Settings) : Spending cfg {} where
  known := fun a ha => by cases ha
  once := List.nodup_nil
  own := rfl
  unsent := fun o a h => by cases h
  single := fun o o' a h => by cases h
  apart := .nil
  range := fun a ha => by cases ha
  evidenced := fun _ => .start
  decided := fun _ h => by cases h

end Commit

end Remediator
