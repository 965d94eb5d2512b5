import Remediator.Capacity

set_option autoImplicit false

/-! # The limits over time

Whether a lease counts depends on the clock, so a slot is free again as soon as its holder's
lease lapses, and every operation that moves `expires_at` has to leave a lapsed lease alone.
Two do not: `heartbeat` extends every unreleased lease of its owner, and `acquire` compares
`expires_at` with a clock it read before it waited for the advisory lock. As long as neither of
them extends a lapsed lease, no interleaving exceeds a limit.
-/

namespace Remediator.Capacity

/-! ## The operations of `CapacityManager`

Every operation reads the clock before its statement is executed; `readAt` is that reading. -/

/-- Extend the lease that was live at the reading. -/
def Db.renewAt (db : Db) (L : Limits) (owner : String) (r : Request) (readAt : Nat) : Db :=
  { db with leases := db.leases.map (fun l =>
      if r.matches l && l.live readAt then
        { l with expiresAt := readAt + L.leaseSeconds, owner := owner,
                 attemptId := r.attemptId.or l.attemptId }
      else l) }

/-- Retire the own lease that had lapsed at the reading. -/
def Db.releaseLapsedAt (db : Db) (r : Request) (readAt : Nat) : Db :=
  { db with leases := db.leases.map (fun l =>
      if r.matches l && !l.live readAt then { l with releasedAt := some readAt } else l) }

/-- Compete for a slot: `in_use` reads the clock again, the new lease runs from the reading. -/
def Db.competeAt (db : Db) (L : Limits) (owner : String) (r : Request) (readAt : Nat) :
    Db × Option Denied :=
  match db.refusal L r with
  | some d => (db, some d)
  | none =>
      ({ db with leases := db.leases ++ [⟨r.kind, r.scope, r.caseId, r.attemptId, owner, readAt,
          readAt + L.leaseSeconds, none⟩] }, none)

/-- `acquire`, once it has the advisory lock. -/
def acquireAt (L : Limits) (owner : String) (r : Request) (readAt : Nat) (db : Db) :
    Db × Option Denied :=
  let db := db.reconcileFinished
  if db.leases.any (fun l => r.matches l && l.live readAt) then
    (db.renewAt L owner r readAt, none)
  else (db.releaseLapsedAt r readAt).competeAt L owner r readAt

/-- Without a wait for the lock, this is the `acquire` of the callers. -/
theorem acquireAt_now (L : Limits) (owner : String) (r : Request) (db : Db) :
    acquireAt L owner r db.now db = acquire L owner r db := rfl

/-- `release`; without a scope, in every scope. -/
def Db.release (db : Db) (kind : LeaseKind) (caseId : Nat) (scope : Option String)
    (readAt : Nat) : Db :=
  { db with leases := db.leases.map (fun l =>
      if decide (l.kind = kind) && decide (l.caseId = caseId) && l.releasedAt.isNone &&
          scope.all (fun x => decide (l.scope = x)) then
        { l with releasedAt := some readAt }
      else l) }

/-- `release_all_for_case`. -/
def Db.releaseAllForCase (db : Db) (caseId readAt : Nat) : Db :=
  { db with leases := db.leases.map (fun l =>
      if decide (l.caseId = caseId) && l.releasedAt.isNone then
        { l with releasedAt := some readAt }
      else l) }

/-- The leases `heartbeat` extends. -/
def Lease.heldBy (l : Lease) (owner : String) (caseIds : List Nat) : Bool :=
  caseIds.contains l.caseId && decide (l.owner = owner) && l.releasedAt.isNone

/-- `heartbeat`. -/
def Db.heartbeat (db : Db) (L : Limits) (owner : String) (caseIds : List Nat) (readAt : Nat) : Db :=
  { db with leases := db.leases.map (fun l =>
      if l.heldBy owner caseIds then { l with expiresAt := readAt + L.leaseSeconds } else l) }

/-- `expire_stale`. -/
def Db.expireStale (db : Db) (readAt : Nat) : Db :=
  { db with leases := db.leases.map (fun l =>
      if l.releasedAt.isNone && decide (l.expiresAt ≤ readAt) then
        { l with releasedAt := some readAt }
      else l) }

/-- One step of the table of leases: an operation of some owner, time passing, or a change of
the other tables. -/
inductive Op
  | acquire (owner : String) (r : Request) (readAt : Nat)
  | release (kind : LeaseKind) (caseId : Nat) (scope : Option String) (readAt : Nat)
  | releaseAllForCase (caseId readAt : Nat)
  | heartbeat (owner : String) (caseIds : List Nat) (readAt : Nat)
  | expireStale (readAt : Nat)
  | reconcileFinished
  | tick (seconds : Nat)
  | rows (cases : List CaseRow) (finished : List Nat)

def Op.apply (L : Limits) (db : Db) : Op → Db
  | .acquire owner r readAt => (acquireAt L owner r readAt db).1
  | .release kind caseId scope readAt => db.release kind caseId scope readAt
  | .releaseAllForCase caseId readAt => db.releaseAllForCase caseId readAt
  | .heartbeat owner caseIds readAt => db.heartbeat L owner caseIds readAt
  | .expireStale readAt => db.expireStale readAt
  | .reconcileFinished => db.reconcileFinished
  | .tick seconds => { db with now := db.now + seconds }
  | .rows cases finished => { db with cases := cases, finished := finished }

/-- The per-scope limit `_acquire_capacity` passes; `acquire` itself sets that of a resource
key to one. -/
def Limits.perScope (L : Limits) : LeaseKind → Option Nat
  | .remediation => some L.remediationPerRepository
  | _ => none

/-- The reading is not in the future, and `acquire` is called without `force` and with the
configured per-scope limit. -/
def Op.Admissible (L : Limits) (db : Db) : Op → Prop
  | .acquire _ r readAt => readAt ≤ db.now ∧ r.force = false ∧
      (r.kind = .resource ∨ r.perScopeLimit = L.perScope r.kind)
  | .release _ _ _ readAt | .releaseAllForCase _ readAt | .heartbeat _ _ readAt
  | .expireStale readAt => readAt ≤ db.now
  | _ => True

/-- The operation extends a lease that has lapsed. -/
def Op.revives (db : Db) : Op → Bool
  | .acquire _ r readAt => db.reconcileFinished.leases.any (fun l =>
      r.matches l && l.live readAt && !l.live db.now)
  | .heartbeat owner caseIds _ => db.leases.any (fun l =>
      l.heldBy owner caseIds && !l.live db.now)
  | _ => false

/-- The databases that admissible operations reach, every one of them meeting `ok`. -/
inductive Reaches (L : Limits) (ok : Db → Op → Prop) (db₀ : Db) : Db → Prop
  | init : Reaches L ok db₀ db₀
  | step {db : Db} (op : Op) : Reaches L ok db₀ db → op.Admissible L db → ok db op →
      Reaches L ok db₀ (op.apply L db)

/-- Every configured limit is respected at the present clock. -/
structure Within (L : Limits) (db : Db) : Prop where
  kind : ∀ kind, kind ≠ .resource → db.inUse kind ≤ L.forKind kind
  repository : ∀ scope, scope ≠ "" →
    db.inUseScope .remediation scope ≤ L.remediationPerRepository
  key : ∀ key, key ≠ "" → db.inUseScope .resource key ≤ 1

/-! ## Which slots an operation can add -/

/-- Rewriting leases so that only live ones are live afterwards adds no slot. -/
private theorem slots_map_sublist (db : Db) (f : Lease → Lease) (now : Nat)
    (hlive : ∀ l ∈ db.leases, (f l).live now = true → l.live db.now = true)
    (hid : ∀ l, (⟨(f l).kind, (f l).scope, (f l).caseId⟩ : Slot) = ⟨l.kind, l.scope, l.caseId⟩) :
    (Db.slots { db with leases := db.leases.map f, now := now }).Sublist db.slots := by
  simp only [Db.slots]
  generalize db.leases = leases at hlive
  induction leases with
  | nil => exact List.Sublist.refl _
  | cons l leases ih =>
      have ih := ih (fun x hx => hlive x (List.mem_cons_of_mem _ hx))
      have hl := hlive l List.mem_cons_self
      simp only [List.map_cons, List.filter_cons]
      by_cases hf : (f l).live now = true
      · rw [if_pos hf, if_pos (hl hf), List.map_cons, List.map_cons, hid l]
        exact ih.cons_cons _
      · rw [if_neg hf]
        split
        · exact ih.cons _
        · exact ih

/-- Releasing leases, whichever they are, adds no slot. -/
theorem release_sublist (db : Db) (p : Lease → Bool) (readAt : Nat) :
    (Db.slots { db with leases := db.leases.map (fun l =>
      if p l then { l with releasedAt := some readAt } else l) }).Sublist db.slots := by
  refine slots_map_sublist db _ db.now (fun l _ h => ?_) (fun l => by split <;> rfl)
  split at h
  · simp [Lease.live] at h
  · exact h

theorem reconcileFinished_sublist (db : Db) : db.reconcileFinished.slots.Sublist db.slots :=
  release_sublist db _ db.now

theorem tick_sublist (db : Db) (seconds : Nat) :
    (Db.slots { db with now := db.now + seconds }).Sublist db.slots := by
  have h := slots_map_sublist db id (db.now + seconds) (fun l _ h => ?_) (fun _ => rfl)
  · simpa using h
  · -- a lease that is live later is live now
    simp only [id, Lease.live, Bool.and_eq_true, decide_eq_true_eq] at h ⊢
    exact ⟨h.1, by omega⟩

/-- Leases that are extended while they are live keep their slots at most. -/
private theorem extend_sublist (db : Db) (p : Lease → Bool) (g : Lease → Lease)
    (hp : ∀ l ∈ db.leases, p l = true → l.live db.now = true)
    (hid : ∀ l, (⟨(g l).kind, (g l).scope, (g l).caseId⟩ : Slot) = ⟨l.kind, l.scope, l.caseId⟩) :
    (Db.slots { db with leases := db.leases.map (fun l => if p l then g l else l) }).Sublist
      db.slots := by
  refine slots_map_sublist db _ db.now (fun l hl h => ?_) (fun l => ?_)
  · split at h
    · next hpl => exact hp l hl hpl
    · exact h
  · split
    · exact hid l
    · rfl

theorem heartbeat_sublist {L : Limits} {db : Db} {owner : String} {caseIds : List Nat}
    {readAt : Nat} (h : (Op.heartbeat owner caseIds readAt).revives db = false) :
    (db.heartbeat L owner caseIds readAt).slots.Sublist db.slots := by
  refine extend_sublist db _ _ (fun l hl hheld => ?_) (fun _ => rfl)
  simp only [Op.revives, List.any_eq_false, Bool.and_eq_true, not_and, Bool.not_eq_true',
    Bool.not_eq_false] at h
  exact h l hl hheld

/-- An acquisition adds at most the slot it asks for, and only when no limit refuses it. -/
theorem acquireAt_sublist {L : Limits} {db : Db} {owner : String} {r : Request} {readAt : Nat}
    (h : (Op.acquire owner r readAt).revives db = false) :
    (acquireAt L owner r readAt db).1.slots.Sublist db.slots ∨
      ∃ db' : Db, db'.slots.Sublist db.slots ∧ db'.refusal L r = none ∧
        (acquireAt L owner r readAt db).1.slots.Sublist (db'.slots ++ [r.slot]) := by
  have hrec := reconcileFinished_sublist db
  simp only [Op.revives, List.any_eq_false, Bool.and_eq_true, not_and, Bool.not_eq_true',
    Bool.not_eq_false] at h
  simp only [acquireAt]
  split
  · refine Or.inl (List.Sublist.trans ?_ hrec)
    exact extend_sublist _ _ _ (fun l hl hm => h l hl (by simpa using hm)) (fun _ => rfl)
  · generalize hdb' : db.reconcileFinished.releaseLapsedAt r readAt = db'
    have hsub : db'.slots.Sublist db.slots := by
      rw [← hdb']
      exact (release_sublist db.reconcileFinished _ readAt).trans hrec
    simp only [Db.competeAt]
    split
    · exact Or.inl hsub
    · next hnone =>
        refine Or.inr ⟨db', hsub, hnone, ?_⟩
        simp only [Db.slots, List.filter_append, List.map_append]
        refine List.Sublist.append (List.Sublist.refl _) ?_
        -- the new lease may have lapsed while its owner waited for the lock
        simp only [List.filter_cons, List.filter_nil]
        split
        · exact List.Sublist.refl _
        · exact List.nil_sublist _

/-! ## The limits are kept -/

section

variable {L : Limits} {db db' : Db}

/-- The limits in terms of the live slots. -/
theorem within_iff : Within L db ↔
    (∀ kind, kind ≠ .resource → db.slots.countP (fun x => decide (x.kind = kind)) ≤ L.forKind kind) ∧
    (∀ scope, scope ≠ "" → db.slots.countP (fun x =>
      decide (x.kind = .remediation) && decide (x.scope = scope)) ≤ L.remediationPerRepository) ∧
    (∀ key, key ≠ "" → db.slots.countP (fun x =>
      decide (x.kind = .resource) && decide (x.scope = key)) ≤ 1) := by
  constructor
  · rintro ⟨hk, hr, hx⟩
    exact ⟨fun kind h => inUse_eq db kind ▸ hk kind h,
      fun scope h => inUseScope_eq db _ scope ▸ hr scope h,
      fun key h => inUseScope_eq db _ key ▸ hx key h⟩
  · rintro ⟨hk, hr, hx⟩
    exact ⟨fun kind h => (inUse_eq db kind).symm ▸ hk kind h,
      fun scope h => (inUseScope_eq db _ scope).symm ▸ hr scope h,
      fun key h => (inUseScope_eq db _ key).symm ▸ hx key h⟩

/-- Losing slots keeps the limits. -/
theorem Within.sublist (h : Within L db) (hs : db'.slots.Sublist db.slots) : Within L db' := by
  rw [within_iff] at h ⊢
  obtain ⟨hk, hr, hx⟩ := h
  exact ⟨fun kind hne => Nat.le_trans hs.countP_le (hk kind hne),
    fun scope hne => Nat.le_trans hs.countP_le (hr scope hne),
    fun key hne => Nat.le_trans hs.countP_le (hx key hne)⟩

/-- What a granted request knows: room under the limit of the kind, and in its scope. -/
theorem room_of_refusal_none {r : Request} (hforce : r.force = false)
    (hnone : db.refusal L r = none) :
    (r.kind ≠ .resource → db.inUse r.kind < L.forKind r.kind) ∧
    (∀ n, (if r.kind = .resource then some 1 else r.perScopeLimit) = some n → r.scope ≠ "" →
      db.inUseScope r.kind r.scope < n) := by
  have hpos : r.kind ≠ .resource → L.forKind r.kind ≠ 0 := by
    intro h
    have h₁ := L.triage_pos
    have h₂ := L.remediation_pos
    have h₃ := L.probes_pos
    cases hk : r.kind <;> simp_all [Limits.forKind] <;> omega
  unfold Db.refusal at hnone
  simp only [hforce, true_and] at hnone
  split at hnone
  · cases hnone
  next htotal =>
  split at hnone
  · cases hnone
  refine ⟨fun h => ?_, fun n hn hscope => ?_⟩
  · have := hpos h
    by_contra hle
    exact htotal ⟨this, by omega⟩
  · rw [hn] at hnone
    simp only [hscope, ne_eq, not_false_eq_true, true_and] at hnone
    split at hnone
    · cases hnone
    · omega

/-- A granted request keeps the limits. -/
theorem Within.grant {r : Request} {after : Db} (h : Within L db) (hforce : r.force = false)
    (hscope : r.kind = .resource ∨ r.perScopeLimit = L.perScope r.kind)
    (hnone : db.refusal L r = none) (hs : after.slots.Sublist (db.slots ++ [r.slot])) :
    Within L after := by
  obtain ⟨hroom, hrepo⟩ := room_of_refusal_none hforce hnone
  rw [inUse_eq] at hroom
  rw [within_iff] at h ⊢
  obtain ⟨hk, hr, hx⟩ := h
  -- a count over the new slots is the old count, plus one for the slot that was granted
  have hcount : ∀ p : Slot → Bool, after.slots.countP p ≤
      db.slots.countP p + if p r.slot then 1 else 0 := by
    intro p
    calc after.slots.countP p
        ≤ (db.slots ++ [r.slot]).countP p := hs.countP_le
      _ = db.slots.countP p + if p r.slot then 1 else 0 := by
        rw [List.countP_append, List.countP_singleton]
  refine ⟨fun kind hne => Nat.le_trans (hcount _) ?_, fun scope hne => Nat.le_trans (hcount _) ?_,
    fun key hne => Nat.le_trans (hcount _) ?_⟩
  · split
    · next hslot =>
        have hkind : r.kind = kind := of_decide_eq_true hslot
        subst hkind
        exact hroom hne
    · exact hk kind hne
  · split
    · next hslot =>
        obtain ⟨hkind, hsc⟩ := Bool.and_eq_true_iff.mp hslot
        have hkind : r.kind = .remediation := of_decide_eq_true hkind
        have hsc : r.scope = scope := of_decide_eq_true hsc
        subst hsc
        have hlim := hrepo L.remediationPerRepository
          (by simpa [hkind, Limits.perScope] using hscope) hne
        rw [hkind, inUseScope_eq] at hlim
        exact hlim
    · exact hr scope hne
  · split
    · next hslot =>
        obtain ⟨hkind, hsc⟩ := Bool.and_eq_true_iff.mp hslot
        have hkind : r.kind = .resource := of_decide_eq_true hkind
        have hsc : r.scope = key := of_decide_eq_true hsc
        subst hsc
        have hlim := hrepo 1 (by simp [hkind]) hne
        rw [hkind, inUseScope_eq] at hlim
        exact hlim
    · exact hx key hne

/-- **One admissible operation that revives no lapsed lease keeps the limits.** -/
theorem Within.apply {op : Op} (h : Within L db) (ha : op.Admissible L db)
    (hr : op.revives db = false) : Within L (op.apply L db) := by
  cases op with
  | acquire owner r readAt =>
      obtain ⟨-, hforce, hscope⟩ := ha
      rcases acquireAt_sublist hr with hs | ⟨db', hsub, hnone, hs⟩
      · exact h.sublist hs
      · exact (h.sublist hsub).grant hforce hscope hnone hs
  | release kind caseId scope readAt => exact h.sublist (release_sublist db _ readAt)
  | releaseAllForCase caseId readAt => exact h.sublist (release_sublist db _ readAt)
  | heartbeat owner caseIds readAt => exact h.sublist (heartbeat_sublist hr)
  | expireStale readAt => exact h.sublist (release_sublist db _ readAt)
  | reconcileFinished => exact h.sublist (reconcileFinished_sublist db)
  | tick seconds => exact h.sublist (tick_sublist db seconds)
  | rows cases finished => exact h.sublist (List.Sublist.refl _)

/-- **The limits hold at every instant** of every interleaving in which no operation revives a
lapsed lease. -/
theorem within_of_reaches {db₀ : Db} (h₀ : Within L db₀)
    (h : Reaches L (fun db op => op.revives db = false) db₀ db) : Within L db := by
  induction h with
  | init => exact h₀
  | step op _ ha hr ih => exact ih.apply ha hr

end

/-! ## Runs of two owners -/

theorem tenMinutes_pos : 0 < 600 := by decide

def oneSlot : Limits where
  triage := 1
  remediation := 1
  probes := 1
  remediationPerRepository := 1
  leaseSeconds := 600
  triage_pos := Nat.one_pos
  remediation_pos := Nat.one_pos
  probes_pos := Nat.one_pos
  leaseSeconds_pos := tenMinutes_pos

def emptyDb : Db := ⟨0, [], [], []⟩

def triageRequest (id : Nat) : Request := ⟨.triage, id, "apache/superset", none, none, false⟩

theorem emptyDb_within : Within oneSlot emptyDb :=
  ⟨fun _ _ => Nat.zero_le _, fun _ _ => Nat.zero_le _, fun _ _ => Nat.zero_le _⟩

/-- The holder heartbeats in time; a second case is refused and the limit of one is kept. -/
theorem within_of_reaches_demo : ∃ db, db.leases.length = 1 ∧ Within oneSlot db := by
  have h₀ : Reaches oneSlot (fun db op => op.revives db = false) emptyDb emptyDb := .init
  have h₁ := h₀.step (.acquire "a" (triageRequest 1) 0) ⟨Nat.le_refl _, rfl, Or.inr rfl⟩ rfl
  have h₂ := h₁.step (.tick 500) trivial rfl
  have h₃ := h₂.step (.heartbeat "a" [1] 500) (Nat.le_refl 500) (by decide)
  have h₄ := h₃.step (.tick 500) trivial rfl
  have h₅ := h₄.step (.acquire "b" (triageRequest 2) 1000) ⟨by decide, rfl, Or.inr rfl⟩ (by decide)
  exact ⟨_, by decide, within_of_reaches emptyDb_within h₅⟩

/-- A holder that was paused past its expiry heartbeats after the slot was given away: two
leases of a kind with limit one are live. -/
theorem limit_exceeded : ∃ db, Reaches oneSlot (fun _ _ => True) emptyDb db ∧
    db.inUse .triage = 2 ∧ oneSlot.forKind .triage = 1 := by
  have h₀ : Reaches oneSlot (fun _ _ => True) emptyDb emptyDb := .init
  have h₁ := h₀.step (.acquire "a" (triageRequest 1) 0) ⟨Nat.le_refl _, rfl, Or.inr rfl⟩ trivial
  have h₂ := h₁.step (.tick 600) trivial trivial
  have h₃ := h₂.step (.acquire "b" (triageRequest 2) 600) ⟨by decide, rfl, Or.inr rfl⟩ trivial
  have h₄ := h₃.step (.heartbeat "a" [1] 600) (Nat.le_refl 600) trivial
  exact ⟨_, h₄, by decide, rfl⟩

end Remediator.Capacity
