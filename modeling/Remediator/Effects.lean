import Remediator.System

set_option autoImplicit false

/-! # What an operation changes

One lemma for each part of the store, so that no proof unfolds `Op.apply`, and the lemmas on
flushed rows.
-/

namespace Remediator

/-! ## Every operation -/

/-- One of the incidents has happened. -/
def Store.hit (s : Store) (ks : List Incident) : Prop := ∃ k ∈ ks, s.history.incident k = true

@[simp] theorem apply_incident (op : Op) (s : Store) (k : Incident) :
    (op.apply s).history.incident k = (s.history.incident k || op.incident s k) := rfl

theorem hit_apply {s : Store} {ks : List Incident} (op : Op) (h : s.hit ks) :
    (op.apply s).hit ks := by
  obtain ⟨k, hk, hi⟩ := h
  exact ⟨k, hk, by simp [hi]⟩

/-- No incident so far means none in the last step and none before it. -/
theorem not_hit_apply {s : Store} {ks : List Incident} {op : Op} (h : ¬ (op.apply s).hit ks) :
    ¬ s.hit ks ∧ ∀ k ∈ ks, op.incident s k = false := by
  refine ⟨fun hs => h (hit_apply op hs), fun k hk => ?_⟩
  by_contra hc
  exact h ⟨k, hk, by simp [Bool.not_eq_false _ ▸ hc]⟩

/-! ## Transactions -/

/-- What is committed is what the body returned, on rows that still admit it. -/
theorem outcome_ok {α : Type} {body : Input → Store → Except Err (Txn × α)} {i : Input}
    {s : Store} {t : Txn} {a : α} (h : Txn.outcome body i s = .ok (t, a)) :
    body i s = .ok (t, a) ∧ movesOk t.moves s.case = true ∧ t.unique s.core = true := by
  unfold Txn.outcome at h
  split at h
  · cases h
  · split at h
    · cases h
    · next t' a' hbody =>
        split at h
        · cases h
        · next hmoves =>
            split at h
            · cases h
            · next hunique =>
                cases h
                exact ⟨hbody, by simpa using hmoves, by simpa using hunique⟩

/-- One transaction: the rule asks about what is committed. -/
theorem each_tx {α : Type} {A : Store → Op → Prop} {Q : α → Prop} {E : Err → Prop} {o : Owner}
    {body : Input → Store → Except Err (Txn × α)} (hskip : ∀ s, A s .skip)
    (hraise : ∀ i s e, Txn.outcome body i s = .error e → E e)
    (h : ∀ i s t a, body i s = .ok (t, a) → movesOk t.moves s.case = true →
      A s (.commit o t) ∧ Q a) : Interleave.Prog.Each A Q E (tx o body) := by
  intro i s
  dsimp only
  cases hout : Txn.outcome body i s with
  | error e => exact ⟨hskip s, hraise i s e hout⟩
  | ok x =>
      obtain ⟨hbody, hmoves, -⟩ := outcome_ok hout
      exact h i s x.1 x.2 hbody hmoves

/-- One transaction of a thread under a contract. -/
theorem safe_tx {cfg : Settings} {K : Interleave.Contract Store Op} {o : Owner} {α : Type}
    {A E : Store → Prop} {Q : α → Store → Prop} {body : Input → Store → Except Err (Txn × α)}
    (hskip : ∀ s, K.allowed o s .skip) (hE : Interleave.Stable (system cfg) K o E)
    (hraise : ∀ s, A s → E (Op.skip.apply s))
    (hQ : ∀ a, Interleave.Stable (system cfg) K o (Q a))
    (h : ∀ i s t a, K.inv s → A s → body i s = .ok (t, a) → movesOk t.moves s.case = true →
      t.unique s.core = true → K.allowed o s (.commit o t) ∧ Q a ((Op.commit o t).apply s)) :
    Interleave.Safe (system cfg) K o (tx o body) A Q (fun _ => E) := by
  intro i s hinv hA
  dsimp only
  cases hout : Txn.outcome body i s with
  | error e => exact ⟨hskip s, _, hE, hraise s hA, fun _ _ h => h⟩
  | ok x =>
      obtain ⟨hbody, hmoves, hunique⟩ := outcome_ok hout
      obtain ⟨hallowed, hpost⟩ := h i s x.1 x.2 hinv hA hbody hmoves hunique
      exact ⟨hallowed, _, hQ x.2, hpost, fun _ _ h => h⟩

section Commit

variable (o : Owner) (t : Txn) (s : Store)

@[simp] theorem commit_now : ((Op.commit o t).apply s).now = s.now + 1 := rfl

@[simp] theorem commit_case : ((Op.commit o t).apply s).case =
    t.applyCase s.now (s.copies o) s.case := rfl

@[simp] theorem commit_core : ((Op.commit o t).apply s).core = t.applyCore s.core := rfl

@[simp] theorem commit_approvals : ((Op.commit o t).apply s).approvals =
    flush ApprovalRequest.merge t.approvalWrites s.approvals ++ t.newApprovals := rfl

@[simp] theorem commit_log : ((Op.commit o t).apply s).log =
    s.log ++ t.moves.map (fun m => ⟨m.src, m.dst, m.actor⟩) := rfl

end Commit

/-! ## The other operations -/

theorem heartbeat_state (o : Owner) (n : Nat) (s : Store) :
    ((Op.heartbeat o n).apply s).case.state = s.case.state := by
  show (if s.case.claimedBy = some o then _ else s.case : Case).state = s.case.state
  split
  · rfl
  · rfl

/-! ## Flushed rows -/

section Flush

variable {α : Type} (merge : α → α → α → α)

@[simp] theorem flush_nil (rows : List α) : flush merge [] rows = rows := rfl

@[simp] theorem flush_cons (w : Write α) (ws : List (Write α)) (rows : List α) :
    flush merge (w :: ws) rows = flush merge ws (rows.modify w.id (merge w.loaded w.changed)) := rfl

theorem flush_append (ws ws' : List (Write α)) (rows : List α) :
    flush merge (ws ++ ws') rows = flush merge ws' (flush merge ws rows) := by
  unfold flush
  rw [List.foldl_append]

@[simp] theorem flush_length (ws : List (Write α)) (rows : List α) :
    (flush merge ws rows).length = rows.length := by
  induction ws generalizing rows with
  | nil => rfl
  | cons w ws ih => rw [flush_cons, ih, List.length_modify]

/-- What no write changes is as before. -/
theorem flush_map {β : Type} {f : α → β} {ws : List (Write α)}
    (h : ∀ w ∈ ws, ∀ x, f (merge w.loaded w.changed x) = f x) (rows : List α) :
    (flush merge ws rows).map f = rows.map f := by
  induction ws generalizing rows with
  | nil => rfl
  | cons w ws ih =>
      rw [flush_cons, ih (fun v hv => h v (List.mem_cons_of_mem _ hv))]
      refine List.ext_getElem? (fun i => ?_)
      rw [List.getElem?_map, List.getElem?_map, List.getElem?_modify]
      cases rows[i]? with
      | none => rfl
      | some x =>
          by_cases hi : w.id = i
          · simp [hi, h w List.mem_cons_self]
          · simp [hi]

/-- Writes of different rows do not meet. -/
theorem flush_get {ws : List (Write α)} (h : (ws.map (·.id)).Nodup) (rows : List α) (i : Nat) :
    (flush merge ws rows)[i]? = rows[i]?.map (fun x =>
      match ws.find? (fun w => decide (w.id = i)) with
      | some w => merge w.loaded w.changed x
      | none => x) := by
  induction ws generalizing rows with
  | nil => simp
  | cons w ws ih =>
      obtain ⟨hnot, hnodup⟩ := List.nodup_cons.mp h
      rw [flush_cons, ih hnodup, List.getElem?_modify]
      cases hx : rows[i]? with
      | none => rfl
      | some x =>
          by_cases hi : w.id = i
          · have hnone : ws.find? (fun w => decide (w.id = i)) = none := by
              refine List.find?_eq_none.mpr (fun v hv hvi => ?_)
              exact hnot (List.mem_map.mpr ⟨v, hv, (of_decide_eq_true hvi).trans hi.symm⟩)
            simp [hi, hnone]
          · simp [hi]

/-- An object that is written as it was read. -/
theorem flush_single {id : Nat} {x y : α} {rows : List α} (hx : rows[id]? = some x) :
    flush merge [⟨id, x, y⟩] rows = rows.set id (merge x y x) := by
  refine List.ext_getElem? (fun i => ?_)
  rw [flush_cons, flush_nil, List.getElem?_modify, List.getElem?_set]
  obtain ⟨hlt, hget⟩ := List.getElem?_eq_some_iff.mp hx
  by_cases hi : id = i
  · subst hi
    simp [hlt, hget]
  · simp [hi]

/-- What a flush keeps: `R` relates a row to itself and to every row a write makes of it. -/
theorem flush_rel {R : α → α → Prop} (hrefl : ∀ x, R x x)
    (htrans : ∀ x y z, R x y → R y z → R x z) {ws : List (Write α)} {i : Nat}
    (hw : ∀ w ∈ ws, w.id = i → ∀ x, R x (merge w.loaded w.changed x)) {rows : List α} {x : α}
    (hx : rows[i]? = some x) : ∃ y, (flush merge ws rows)[i]? = some y ∧ R x y := by
  induction ws generalizing rows x with
  | nil => exact ⟨x, hx, hrefl x⟩
  | cons w ws ih =>
      rw [flush_cons]
      have hws : ∀ v ∈ ws, v.id = i → ∀ x, R x (merge v.loaded v.changed x) :=
        fun v hv => hw v (List.mem_cons_of_mem _ hv)
      by_cases hi : w.id = i
      · have hm : (rows.modify w.id (merge w.loaded w.changed))[i]? =
            some (merge w.loaded w.changed x) := by
          rw [List.getElem?_modify, hx]
          simp [hi]
        obtain ⟨y, hy, hr⟩ := ih hws hm
        exact ⟨y, hy, htrans _ _ _ (hw w (by simp) hi x) hr⟩
      · have hm : (rows.modify w.id (merge w.loaded w.changed))[i]? = some x := by
          rw [List.getElem?_modify, hx]
          simp [hi]
        exact ih hws hm

theorem flush_rel_of_get {R : α → α → Prop} (hrefl : ∀ x, R x x)
    (htrans : ∀ x y z, R x y → R y z → R x z) {ws : List (Write α)} {i : Nat}
    (hw : ∀ w ∈ ws, w.id = i → ∀ x, R x (merge w.loaded w.changed x)) {rows : List α} {y : α}
    (hy : (flush merge ws rows)[i]? = some y) : ∃ x, rows[i]? = some x ∧ R x y := by
  have hlt : i < rows.length := by
    obtain ⟨hlt, _⟩ := List.getElem?_eq_some_iff.mp hy
    rwa [flush_length] at hlt
  obtain ⟨y', hy', hr⟩ := flush_rel merge hrefl htrans hw (List.getElem?_eq_getElem hlt)
  rw [hy'] at hy
  cases hy
  exact ⟨_, List.getElem?_eq_getElem hlt, hr⟩

end Flush

end Remediator
