import Mathlib.Logic.Relation
import Remediator.Capacity.Limits

set_option autoImplicit false

/-! # Waiting for resource keys

`_acquire_resource_keys` takes the keys of a case one by one, in the order of its manifest. A
refusal ends the loop, but the keys taken so far stay leased, and every retry renews them. When one
order agrees with every manifest, no cases wait for each other for ever.
-/

namespace Remediator.Capacity

/-! ## Holding and waiting -/

/-- The keys that the loop of `_acquire_resource_keys` acquires or renews before it ends. -/
def grantedKeys (L : Limits) (owner : String) (c : CaseRow) : List String → Db → List String
  | [], _ => []
  | key :: keys, db =>
      match acquire L owner ⟨.resource, c.id, key, none, some 1, false⟩ db with
      | (_, some _) => []
      | (db, none) => key :: grantedKeys L owner c keys db

/-- A retry of the case by `owner` renews the keys `renewed` and is refused the key `key`. -/
structure Retries (L : Limits) (owner : String) (db : Db) (c : CaseRow) (renewed : List String)
    (key : String) : Prop where
  row : c ∈ db.cases
  asks : ∃ keys, c.sessionKeys = some keys ∧ renewed = grantedKeys L owner c keys.eraseDups db ∧
    ∃ d, (acquireResourceKeys L owner keys c db).2 = some d ∧ d.scope = key

/-- The case holds a live lease on the key. -/
def Db.holdsKey (db : Db) (c : CaseRow) (key : String) : Prop :=
  (⟨.resource, key, c.id⟩ : Slot) ∈ db.slots

/-- `a` is refused a key that `b` holds and renews on each of its own refused retries. -/
def WaitsOn (L : Limits) (owner : Nat → String) (db : Db) (a b : CaseRow) : Prop :=
  ∃ renewed key renewed' key', Retries L (owner a.id) db a renewed key ∧
    Retries L (owner b.id) db b renewed' key' ∧ db.holdsKey b key ∧ key ∈ renewed'

/-- A cycle of cases that hold keys and wait for each other; `owner` are the workers that retry
them. -/
def Deadlock (L : Limits) (db : Db) : Prop :=
  ∃ (owner : Nat → String) (c : CaseRow), Relation.TransGen (WaitsOn L owner db) c c

/-! ## Runs -/

/-- A step of the workers: one claims a case and takes its keys, or a lease operation. -/
inductive KeyStep
  | process (owner : String) (id : Nat)
  | lease (op : Op)

/-- `_run_session` up to the session: `_acquire_resource_keys` on the row of the case. -/
def takeKeys (L : Limits) (owner : String) (id : Nat) (db : Db) : Db :=
  match db.case? id with
  | some c =>
      match c.sessionKeys with
      | some keys => (acquireResourceKeys L owner keys c db).1
      | none => db
  | none => db

def KeyStep.apply (L : Limits) (db : Db) : KeyStep → Db
  | .process owner id => takeKeys L owner id db
  | .lease op => op.apply L db

/-- Keys are taken by `_acquire_resource_keys` only, and released all at once. -/
def KeyStep.Called : KeyStep → Prop
  | .lease (.acquire _ r _) => r.kind ≠ .resource
  | .lease (.release kind _ scope _) => kind = .resource → scope = none
  | _ => True

/-- The databases that steps meeting `ok` reach. -/
inductive KeyReaches (L : Limits) (ok : Db → KeyStep → Prop) (db₀ : Db) : Db → Prop
  | init : KeyReaches L ok db₀ db₀
  | step {db : Db} (x : KeyStep) : KeyReaches L ok db₀ db → x.Called → ok db x →
      KeyReaches L ok db₀ (x.apply L db)

/-- Every manifest declares its keys in the order of `rank`. -/
def KeysOrdered (rank : String → Nat) (cases : List CaseRow) : Prop :=
  ∀ c ∈ cases, ∀ keys, c.sessionKeys = some keys →
    keys.eraseDups.Pairwise (fun a b => rank a < rank b)

/-- The manifests that the step brings in declare their keys in the order of `rank`. -/
def KeyStep.Ordered (rank : String → Nat) : KeyStep → Prop
  | .lease (.rows cases _) => KeysOrdered rank cases
  | _ => True

/-! ## The loop -/

variable {L : Limits} {owner : String} {db : Db} {c : CaseRow}

/-- A resource key is refused in its own name. -/
theorem acquire_key_scope {key : String} {d : Denied}
    (h : (acquire L owner ⟨.resource, c.id, key, none, some 1, false⟩ db).2 = some d) :
    d.scope = key := by
  rw [acquire_answer] at h
  split at h
  · cases h
  · simp only [Db.refusal, Limits.forKind, ne_eq, not_true_eq_false, false_and, if_false,
      if_true] at h
    split at h
    · simp only [Option.some.injEq] at h
      rw [← h]
    · cases h

/-- The refused key stands right behind the granted ones. -/
theorem refused_after_granted {keys : List String} {d : Denied}
    (h : (acquireKeys L owner c keys db).2 = some d) :
    ∃ rest, keys = grantedKeys L owner c keys db ++ d.scope :: rest := by
  induction keys generalizing db with
  | nil => simp [acquireKeys] at h
  | cons key keys ih =>
      simp only [acquireKeys, grantedKeys] at h ⊢
      generalize hacq : acquire L owner ⟨.resource, c.id, key, none, some 1, false⟩ db = p at h ⊢
      obtain ⟨db', answer⟩ := p
      cases answer with
      | some d' =>
          simp only [Option.some.injEq] at h
          subst h
          have hscope : d'.scope = key := acquire_key_scope (by rw [hacq])
          exact ⟨keys, by simp [hscope]⟩
      | none =>
          obtain ⟨rest, hrest⟩ := ih h
          exact ⟨rest, by simpa using hrest⟩

/-- With ordered manifests, what a retry renews comes before what it is refused. -/
theorem Retries.rank_lt {rank : String → Nat} {renewed : List String} {key key' : String}
    (hord : KeysOrdered rank db.cases) (h : Retries L owner db c renewed key')
    (hk : key ∈ renewed) : rank key < rank key' := by
  obtain ⟨hrow, keys, hkeys, rfl, d, hd, rfl⟩ := h
  have hpair := hord c hrow keys hkeys
  obtain ⟨rest, hrest⟩ := refused_after_granted hd
  rw [hrest, List.pairwise_append] at hpair
  exact hpair.2.2 key hk d.scope List.mem_cons_self

theorem Retries.unique {renewed renewed' : List String} {key key' : String}
    (h : Retries L owner db c renewed key) (h' : Retries L owner db c renewed' key') :
    key = key' := by
  obtain ⟨-, keys, hkeys, -, d, hd, rfl⟩ := h
  obtain ⟨-, keys', hkeys', -, d', hd', rfl⟩ := h'
  rw [hkeys] at hkeys'
  cases hkeys'
  rw [hd] at hd'
  cases hd'
  rfl

/-! ## No cycle -/

/-- Along a chain of waiting cases the awaited keys grow. -/
theorem rank_lt_of_waits {rank : String → Nat} {owner : Nat → String} {a b : CaseRow}
    (hord : KeysOrdered rank db.cases) (h : Relation.TransGen (WaitsOn L owner db) a b) :
    ∃ renewed key renewed' key', Retries L (owner a.id) db a renewed key ∧
      Retries L (owner b.id) db b renewed' key' ∧ rank key < rank key' := by
  induction h with
  | single h =>
      obtain ⟨renewed, key, renewed', key', ha, hb, -, hk⟩ := h
      exact ⟨renewed, key, renewed', key', ha, hb, hb.rank_lt hord hk⟩
  | tail _ h ih =>
      obtain ⟨renewed, key, renewed', key', ha, hb, hlt⟩ := ih
      obtain ⟨_, key₁, renewed₂, key₂, hb₁, hc, -, hk⟩ := h
      have hkey : key' = key₁ := hb.unique hb₁
      subst hkey
      exact ⟨renewed, key, renewed₂, key₂, ha, hc, Nat.lt_trans hlt (hc.rank_lt hord hk)⟩

theorem no_deadlock_of_keysOrdered {rank : String → Nat} (hord : KeysOrdered rank db.cases) :
    ¬ Deadlock L db := by
  rintro ⟨owner, c, h⟩
  obtain ⟨_, key, _, key', hc, hc', hlt⟩ := rank_lt_of_waits hord h
  rw [hc.unique hc'] at hlt
  exact Nat.lt_irrefl _ hlt

/-! ## Manifests over a run -/

theorem KeysOrdered.updateCase {rank : String → Nat} (h : KeysOrdered rank db.cases) (id : Nat)
    (f : CaseRow → CaseRow) (hf : ∀ c : CaseRow, { f c with id := c.id }.sessionKeys = c.sessionKeys) :
    KeysOrdered rank (db.updateCase id f).cases := by
  intro x hx keys hkeys
  simp only [Db.updateCase, List.mem_map] at hx
  obtain ⟨y, hy, rfl⟩ := hx
  split at hkeys
  · exact h y hy keys ((hf y).symm.trans hkeys)
  · exact h y hy keys hkeys

theorem KeysOrdered.acquireKeys {rank : String → Nat} (keys : List String)
    (h : KeysOrdered rank db.cases) : KeysOrdered rank (acquireKeys L owner c keys db).1.cases := by
  induction keys generalizing db with
  | nil => exact h.updateCase _ _ (fun _ => rfl)
  | cons key keys ih =>
      simp only [Capacity.acquireKeys]
      generalize hacq : acquire L owner ⟨.resource, c.id, key, none, some 1, false⟩ db = p
      obtain ⟨db', answer⟩ := p
      have hcases : db'.cases = db.cases := by
        have := acquire_cases L owner ⟨.resource, c.id, key, none, some 1, false⟩ db
        rwa [hacq] at this
      rw [← hcases] at h
      cases answer with
      | some d => exact h.updateCase _ _ (fun _ => rfl)
      | none => exact ih h

theorem KeysOrdered.step {rank : String → Nat} {x : KeyStep} (h : KeysOrdered rank db.cases)
    (hx : x.Ordered rank) : KeysOrdered rank (x.apply L db).cases := by
  cases x with
  | process owner id =>
      simp only [KeyStep.apply, takeKeys]
      split
      · split
        · exact h.acquireKeys _
        · exact h
      · exact h
  | lease op =>
      cases op with
      | rows cases finished => exact hx
      | acquire owner r readAt =>
          have hcases : (acquireAt L owner r readAt db).1.cases = db.cases := by
            simp only [acquireAt, Db.competeAt]
            split
            · rfl
            · split <;> rfl
          simpa only [KeyStep.apply, Op.apply, hcases] using h
      | release kind caseId scope readAt => exact h
      | releaseAllForCase caseId readAt => exact h
      | heartbeat owner caseIds readAt => exact h
      | expireStale readAt => exact h
      | reconcileFinished => exact h
      | tick seconds => exact h

/-- **No run deadlocks** in which one order of the keys agrees with every manifest. -/
theorem no_deadlock_of_ordered (rank : String → Nat) {db₀ : Db}
    (h₀ : KeysOrdered rank db₀.cases)
    (h : KeyReaches L (fun _ x => x.Ordered rank) db₀ db) : ¬ Deadlock L db := by
  have hord : KeysOrdered rank db.cases := by
    induction h with
    | init => exact h₀
    | step x _ _ hx ih => exact ih.step hx
  exact no_deadlock_of_keysOrdered hord

end Remediator.Capacity
