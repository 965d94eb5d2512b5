import Remediator.Capacity

set_option autoImplicit false

/-! # First come, first served

`older_waiting` ranks the cases parked on a limit by `waiting_since`, so a case keeps its
place in the queue exactly as long as nobody resets that column. `_acquire_resource_keys`
resets it: when every key is granted it clears the waiting columns before `run` asks for the
session slot, and a case that is then refused starts at the end of the queue again.
-/

namespace Remediator.Capacity

variable {L : Limits} {owner : String} {db : Db} {c : CaseRow} {kind : LeaseKind} {since : Nat}

/-! ## The queue -/

/-- The slots of `kind` that `acquire` finds free. -/
def freeSlots (L : Limits) (db : Db) (kind : LeaseKind) : Nat :=
  L.forKind kind - db.reconcileFinished.inUse kind

/-- The scope `_acquire_capacity` and `_acquire_probe_slot` ask for. -/
def slotScope (kind : LeaseKind) (c : CaseRow) : String :=
  if kind = .probe then "" else c.repository.toLower

/-- The per-repository limit has room for the case; only remediation has one. -/
def RepositoryRoom (L : Limits) (db : Db) (kind : LeaseKind) (c : CaseRow) : Prop :=
  kind = .remediation → c.repository.toLower ≠ "" →
    db.reconcileFinished.inUseScope .remediation c.repository.toLower < L.remediationPerRepository

/-- The case is parked on the global limit of `kind` since `since`: its row says so, it holds
no slot, and processing it asks for no other limit. This leaves out a case whose columns are those of
a stage it has left, and which now asks for a slot of another kind. -/
structure Parked (db : Db) (c : CaseRow) (kind : LeaseKind) (since : Nat) : Prop where
  row : db.case? c.id = some c
  parked : c.parkedOn kind = true
  waiting : c.waitingSince = some since
  past : since < db.now
  global : kind ≠ .resource
  idle : (⟨kind, slotScope kind c, c.id⟩ : Slot) ∉ db.reconcileFinished.slots
  asks : ∀ k ∈ c.path.kind, k = kind

/-- The number of live cases parked on the limit that have waited longer. -/
def rank (db : Db) (c : CaseRow) (kind : LeaseKind) (since : Nat) : Nat :=
  db.parkedBefore kind c.id since

def Granted (L : Limits) (owner : String) (db : Db) (c : CaseRow) : Prop :=
  ∃ db', reprocess L owner c db = some (db', none)

/-- First come, first served, for one re-processing of a parked case. -/
structure Fifo (L : Limits) (owner : String) (db : Db) (c : CaseRow) (kind : LeaseKind)
    (since : Nat) : Prop where
  keepsPlace : ∀ db' d c', reprocess L owner c db = some (db', some d) →
    db'.case? c.id = some c' → ∃ w ∈ c'.waitingSince, w ≤ since
  admitsOldest : rank db c kind since < freeSlots L db kind → RepositoryRoom L db kind c →
    Granted L owner db c
  queuesOthers : 0 < freeSlots L db kind → freeSlots L db kind ≤ rank db c kind since →
    ¬ Granted L owner db c

/-! ## The waiting columns -/

theorem case?_updateCase {db : Db} {c : CaseRow} {id : Nat} (f : CaseRow → CaseRow)
    (h : db.case? id = some c) : (db.updateCase id f).case? id = some { f c with id := c.id } := by
  have hid : c.id = id := by simpa using List.find?_some h
  have hcomp : (fun c : CaseRow => c.id == id) ∘
      (fun c => if c.id = id then { f c with id := c.id } else c) = fun c => c.id == id := by
    funext x
    by_cases hx : x.id = id <;> simp [hx]
  have hmap : (db.updateCase id f).case? id = (db.case? id).map
      (fun c => if c.id = id then { f c with id := c.id } else c) := by
    simp only [Db.updateCase, Db.case?, List.find?_map, hcomp]
  rw [hmap, h, Option.map_some, if_pos hid]

theorem othersParked_updateCase (db : Db) (kind : LeaseKind) (id : Nat) (f : CaseRow → CaseRow) :
    (db.updateCase id f).othersParked kind id = db.othersParked kind id := by
  simp only [Db.updateCase, Db.othersParked, List.countP_map]
  refine List.countP_congr fun x _ => ?_
  by_cases hx : x.id = id <;> simp [hx]

theorem rank_le_othersParked (db : Db) (c : CaseRow) (kind : LeaseKind) (since : Nat) :
    rank db c kind since ≤ db.othersParked kind c.id :=
  List.countP_mono_left fun x _ h => by
    simp only [Bool.and_eq_true] at h
    simpa using h.1

theorem case?_cases {db db' : Db} (h : db'.cases = db.cases) (id : Nat) :
    db'.case? id = db.case? id := by
  simp only [Db.case?, h]

/-! ## A session slot -/

/-- The request of a session or probe slot. -/
def slotRequest (L : Limits) (kind : LeaseKind) (c : CaseRow) : Request :=
  ⟨kind, c.id, slotScope kind c, none,
    if kind = .remediation then some L.remediationPerRepository else none, false⟩

theorem forKind_pos (L : Limits) (h : kind ≠ .resource) : 0 < L.forKind kind := by
  cases kind with
  | triage => exact L.triage_pos
  | remediation => exact L.remediation_pos
  | probe => exact L.probes_pos
  | resource => exact absurd rfl h

/-- A slot is granted when fewer cases are ahead than slots are free, and the repository has
room. -/
theorem refusal_slotRequest (h : kind ≠ .resource) (hrec : db.Reconciled) :
    db.refusal L (slotRequest L kind c) = none ↔
      db.olderWaiting kind c.id < freeSlots L db kind ∧ RepositoryRoom L db kind c := by
  have hpos := forKind_pos L h
  simp only [Db.refusal, slotRequest, freeSlots, RepositoryRoom, hrec.eq]
  by_cases htotal : L.forKind kind ≤ db.inUse kind
  · rw [if_pos ⟨by omega, trivial, htotal⟩]
    simp only [reduceCtorEq, false_iff, not_and]
    omega
  rw [if_neg (fun hc => htotal hc.2.2)]
  by_cases hahead : L.forKind kind - db.inUse kind ≤ db.olderWaiting kind c.id
  · rw [if_pos ⟨by omega, trivial, hahead⟩]
    simp only [reduceCtorEq, false_iff, not_and]
    omega
  rw [if_neg (fun hc => hahead hc.2.2)]
  have hlt : db.olderWaiting kind c.id < L.forKind kind - db.inUse kind := by omega
  cases kind with
  | resource => exact absurd rfl h
  | triage => simp [hlt]
  | probe => simp [hlt]
  | remediation =>
      simp only [slotScope, reduceCtorEq, if_true, if_false, hlt, true_and, forall_const]
      by_cases hroom : c.repository.toLower ≠ "" ∧
          L.remediationPerRepository ≤ db.inUseScope .remediation c.repository.toLower
      · rw [if_pos hroom]
        simp only [reduceCtorEq, false_iff]
        intro hc
        have := hc hroom.1
        omega
      · rw [if_neg hroom]
        simp only [true_iff]
        intro hne
        by_contra hle
        exact hroom ⟨hne, by omega⟩

/-- `_acquire_capacity` and `_acquire_probe_slot` are one function of the request. -/
def acquireSlot (L : Limits) (owner : String) (kind : LeaseKind) (c : CaseRow) (db : Db) :
    Db × Option Denied :=
  match acquire L owner (slotRequest L kind c) db with
  | (db, some d) => (markWaiting db c.id d, some d)
  | (db, none) => (clearWaiting db c.id, none)

theorem acquireCapacity_eq (h : kind ≠ .probe) :
    acquireCapacity L owner kind c db = acquireSlot L owner kind c db := by
  have hscope : slotScope kind c = c.repository.toLower := if_neg h
  unfold acquireSlot slotRequest
  rw [hscope]
  exact acquireCapacity.eq_def _ _ _ _ _

theorem acquireProbeSlot_eq :
    acquireProbeSlot L owner c db = acquireSlot L owner .probe c db := rfl

theorem acquireSlot_granted (L : Limits) (owner : String) (hk : kind ≠ .resource)
    (hidle : (⟨kind, slotScope kind c, c.id⟩ : Slot) ∉ db.reconcileFinished.slots) :
    (acquireSlot L owner kind c db).2 = none ↔
      db.olderWaiting kind c.id < freeSlots L db kind ∧ RepositoryRoom L db kind c := by
  have hsame : (acquireSlot L owner kind c db).2 =
      (acquire L owner (slotRequest L kind c) db).2 := by
    simp only [acquireSlot]
    split <;> next h => rw [h]
  have hrec := reconcileFinished_reconciled db
  have hr := refusal_slotRequest (L := L) (c := c) hk hrec
  simp only [freeSlots, RepositoryRoom, hrec.eq] at hr
  have hslot : (slotRequest L kind c).slot ∉ db.reconcileFinished.slots := hidle
  rw [hsame, acquire_answer, if_neg hslot]
  exact hr

/-- A refused case keeps its place, or takes the last one if it had none. -/
theorem acquireSlot_denied {d : Denied} {db' : Db} {c₀ : CaseRow}
    (h : acquireSlot L owner kind c db = (db', some d)) (hrow : db.case? c.id = some c₀) :
    ∃ c', db'.case? c.id = some c' ∧ c'.waitingSince = c₀.waitingSince.or (some db.now) := by
  simp only [acquireSlot] at h
  split at h
  · next db₁ d₁ hacq =>
      obtain ⟨rfl, -⟩ := Prod.mk.inj h
      have hcases : db₁.cases = db.cases := by
        rw [← acquire_cases L owner (slotRequest L kind c) db, hacq]
      have hnow : db₁.now = db.now := by
        rw [← acquire_now L owner (slotRequest L kind c) db, hacq]
      refine ⟨_, case?_updateCase _ ((case?_cases hcases _).trans hrow), ?_⟩
      rw [hnow]
  · cases (Prod.mk.inj h).2

theorem olderWaiting_of_waiting (hrow : db.case? c.id = some c)
    (hw : c.waitingSince = some since) : db.olderWaiting kind c.id = rank db c kind since := by
  simp [Db.olderWaiting, hrow, hw, rank]

/-- A case that asks for its slot directly is served in order. -/
theorem fifo_of_direct (hp : Parked db c kind since)
    (hstep : reprocess L owner c db = some (acquireSlot L owner kind c db)) :
    Fifo L owner db c kind since := by
  have hgrant := acquireSlot_granted L owner hp.global hp.idle
  rw [olderWaiting_of_waiting hp.row hp.waiting] at hgrant
  constructor
  · intro db' d c' hd hc'
    have hd := Option.some.inj (hstep.symm.trans hd)
    obtain ⟨c₁, hc₁, hw⟩ := acquireSlot_denied hd hp.row
    obtain rfl := Option.some.inj (hc₁.symm.trans hc')
    exact ⟨since, by rw [hw, hp.waiting]; rfl, Nat.le_refl _⟩
  · intro hlt hroom
    exact ⟨(acquireSlot L owner kind c db).1,
      hstep.trans (congrArg some (Prod.ext rfl (hgrant.mpr ⟨hlt, hroom⟩)))⟩
  · rintro - hle ⟨db', hg⟩
    have hg := Option.some.inj (hstep.symm.trans hg)
    have := (hgrant.mp (by rw [hg])).1
    omega

/-! ## The resource keys -/

def keyRequest (c : CaseRow) (key : String) : Request := ⟨.resource, c.id, key, none, some 1, false⟩

/-- The case has the key already, or nobody has it. -/
def KeyFree (db : Db) (c : CaseRow) (key : String) : Prop :=
  (keyRequest c key).slot ∈ db.reconcileFinished.slots ∨ key = "" ∨
    db.reconcileFinished.inUseScope .resource key = 0

/-- The slots of the global limits. -/
def sessionSlots (db : Db) : List Slot :=
  db.reconcileFinished.slots.filter (fun x => decide (x.kind ≠ .resource))

theorem acquire_key_granted (L : Limits) (owner : String) (db : Db) (c : CaseRow) (key : String) :
    (acquire L owner (keyRequest c key) db).2 = none ↔ KeyFree db c key := by
  rw [acquire_answer, KeyFree]
  split
  · next h => simp [h]
  · next h =>
      rw [or_iff_right h]
      simp only [Db.refusal, keyRequest, Limits.forKind]
      simp only [ne_eq, not_true_eq_false, false_and, if_false, if_true]
      by_cases hkey : key = ""
      · simp [hkey]
      · by_cases hfree : db.reconcileFinished.inUseScope .resource key = 0
        · simp [hkey, hfree]
        · have : 1 ≤ db.reconcileFinished.inUseScope .resource key := by omega
          simp [hkey, hfree, this]

/-- Taking one key says nothing about the others. -/
theorem acquire_key_keyFree (L : Limits) (owner : String) (db : Db) (c : CaseRow)
    (key : String) (h : (acquire L owner (keyRequest c key) db).2 = none) (key' : String) :
    KeyFree (acquire L owner (keyRequest c key) db).1 c key' ↔ KeyFree db c key' := by
  have hfree := (acquire_key_granted L owner db c key).mp h
  have hrec := acquire_reconciled L owner (keyRequest c key) db rfl
  have hslots := acquire_slots L owner (keyRequest c key) db
  rw [h] at hslots
  by_cases hkey : key' = key
  · subst hkey
    simp only [hfree, iff_true]
    left
    rw [hrec.eq, hslots]
    split
    · next hmem => simpa using hmem
    · simp
  · simp only [KeyFree, hrec.eq, inUseScope_eq, hslots]
    split
    · rfl
    · simp [keyRequest, Request.slot, hkey, Ne.symm hkey]

theorem acquire_key_sessionSlots (L : Limits) (owner : String) (db : Db) (c : CaseRow)
    (key : String) :
    sessionSlots (acquire L owner (keyRequest c key) db).1 = sessionSlots db := by
  have hrec := acquire_reconciled L owner (keyRequest c key) db rfl
  simp only [sessionSlots, hrec.eq, acquire_slots]
  split
  · rfl
  · simp [keyRequest, Request.slot]

/-- The keys are granted when each of them is free. -/
theorem acquireKeys_granted (L : Limits) (owner : String) (c : CaseRow) (keys : List String)
    (db : Db) :
    (acquireKeys L owner c keys db).2 = none ↔ ∀ key ∈ keys, KeyFree db c key := by
  induction keys generalizing db with
  | nil => simp [acquireKeys]
  | cons key keys ih =>
      have hgrant := acquire_key_granted L owner db c key
      have hframe := acquire_key_keyFree L owner db c key
      simp only [keyRequest] at hgrant hframe
      simp only [acquireKeys, List.forall_mem_cons]
      split
      · next db₁ d hacq =>
          rw [hacq] at hgrant
          simp [← hgrant]
      · next db₁ hacq =>
          rw [hacq] at hgrant hframe
          rw [ih db₁, ← hgrant]
          simp [hframe rfl]

/-- The keys granted, the case is parked nowhere and the global limits are as before. -/
theorem acquireKeys_frame (L : Limits) (owner : String) (c : CaseRow) (keys : List String)
    (db : Db) (h : (acquireKeys L owner c keys db).2 = none) :
    sessionSlots (acquireKeys L owner c keys db).1 = sessionSlots db ∧
      (acquireKeys L owner c keys db).1.cases = (clearWaiting db c.id).cases ∧
      (acquireKeys L owner c keys db).1.now = db.now := by
  induction keys generalizing db with
  | nil => exact ⟨rfl, rfl, rfl⟩
  | cons key keys ih =>
      have hslots := acquire_key_sessionSlots L owner db c key
      have hcases := acquire_cases L owner (keyRequest c key) db
      have hnow := acquire_now L owner (keyRequest c key) db
      simp only [keyRequest] at hslots hcases hnow
      simp only [acquireKeys] at h ⊢
      split at h
      · cases h
      · next db₁ hacq =>
          rw [hacq] at hslots hcases hnow
          have hcases : db₁.cases = db.cases := hcases
          obtain ⟨h₁, h₂, h₃⟩ := ih db₁ h
          refine ⟨h₁.trans hslots, h₂.trans ?_, h₃.trans hnow⟩
          simp only [clearWaiting, Db.updateCase, hcases]

/-- A case refused at a key keeps its place. -/
theorem acquireKeys_denied (L : Limits) (owner : String) (keys : List String) {d : Denied}
    {db' : Db} {c' : CaseRow} (hrow : db.case? c.id = some c)
    (h : acquireKeys L owner c keys db = (db', some d)) (hc' : db'.case? c.id = some c') :
    c'.waitingSince = c.waitingSince.or (some db.now) := by
  induction keys generalizing db with
  | nil => cases (Prod.mk.inj h).2
  | cons key keys ih =>
      have hcases := acquire_cases L owner (keyRequest c key) db
      have hnow := acquire_now L owner (keyRequest c key) db
      simp only [keyRequest] at hcases hnow
      simp only [acquireKeys] at h
      split at h
      · next db₁ d₁ hacq =>
          rw [hacq] at hcases hnow
          obtain ⟨rfl, -⟩ := Prod.mk.inj h
          rw [markWaiting, case?_updateCase _ ((case?_cases hcases _).trans hrow)] at hc'
          cases hc'
          rw [hnow]
      · next db₁ hacq =>
          rw [hacq] at hcases hnow
          rw [← hnow]
          exact ih ((case?_cases hcases _).trans hrow) h

/-! ## When the queue is fair -/

theorem inUse_eq_sessionSlots (db : Db) (h : kind ≠ .resource) :
    db.reconcileFinished.inUse kind =
      (sessionSlots db).countP (fun x => decide (x.kind = kind)) := by
  rw [inUse_eq, sessionSlots, List.countP_filter]
  refine List.countP_congr fun x _ => ?_
  by_cases hx : x.kind = kind
  · simp [hx, h]
  · simp [hx]

theorem inUseScope_eq_sessionSlots (db : Db) (h : kind ≠ .resource) (scope : String) :
    db.reconcileFinished.inUseScope kind scope =
      (sessionSlots db).countP (fun x => decide (x.kind = kind) && decide (x.scope = scope)) := by
  rw [inUseScope_eq, sessionSlots, List.countP_filter]
  refine List.countP_congr fun x _ => ?_
  by_cases hx : x.kind = kind
  · simp [hx, h]
  · simp [hx]

/-- The condition under which re-processing a parked case respects the queue. A case that asks
for its slot directly always does. A case that takes its resource keys first loses its place,
so it must be granted at once: fewer cases are parked on the limit than slots are free and its
repository has room. One that is refused a key, or asks for nothing, must not be due. -/
def Admissible (L : Limits) (db : Db) (c : CaseRow) (kind : LeaseKind) (since : Nat) : Prop :=
  match c.path with
  | .session _ | .probeSlot => True
  | .keysThenSession keys =>
      ((∀ key ∈ keys, KeyFree db c key) → db.othersParked kind c.id < freeSlots L db kind ∧
        RepositoryRoom L db kind c) ∧
      ((∃ key ∈ keys, ¬ KeyFree db c key) →
        ¬ (rank db c kind since < freeSlots L db kind ∧ RepositoryRoom L db kind c))
  | .noSlot => ¬ (rank db c kind since < freeSlots L db kind ∧ RepositoryRoom L db kind c)

/-- A case that is never granted respects the queue when it is not due. -/
theorem fifo_iff_of_not_granted (hgrant : ¬ Granted L owner db c)
    (hkeep : ∀ db' d c', reprocess L owner c db = some (db', some d) →
      db'.case? c.id = some c' → ∃ w ∈ c'.waitingSince, w ≤ since) :
    Fifo L owner db c kind since ↔
      ¬ (rank db c kind since < freeSlots L db kind ∧ RepositoryRoom L db kind c) := by
  constructor
  · rintro h ⟨hlt, hroom⟩
    exact hgrant (h.admitsOldest hlt hroom)
  · intro h
    exact ⟨hkeep, fun hlt hroom => absurd ⟨hlt, hroom⟩ h, fun _ _ => hgrant⟩

/-- With the keys taken, the session slot is asked for from the end of the queue. -/
theorem reprocess_after_keys (L : Limits) (owner : String) {keys : List String} (hp : Parked db c .remediation since)
    (hpath : c.path = .keysThenSession keys) (hfree : ∀ key ∈ keys, KeyFree db c key) :
    ∃ db₁, reprocess L owner c db = some (acquireSlot L owner .remediation c db₁) ∧
      ((acquireSlot L owner .remediation c db₁).2 = none ↔
        db.othersParked .remediation c.id < freeSlots L db .remediation ∧
          RepositoryRoom L db .remediation c) ∧
      ∃ c₁, db₁.case? c.id = some c₁ ∧ c₁.waitingSince = none ∧ db₁.now = db.now := by
  have hkeys : (acquireKeys L owner c keys.eraseDups db).2 = none :=
    (acquireKeys_granted L owner c keys.eraseDups db).mpr
      fun key hkey => hfree key (List.mem_eraseDups.mp hkey)
  obtain ⟨hslots, hcases, hnow⟩ := acquireKeys_frame L owner c keys.eraseDups db hkeys
  have hrow := (case?_cases hcases c.id).trans
    (case?_updateCase (fun c => { c with waitingFor := none, waitingSince := none }) hp.row)
  refine ⟨_, ?_, ?_, _, hrow, rfl, hnow⟩
  · have hpair : acquireResourceKeys L owner keys c db =
        ((acquireKeys L owner c keys.eraseDups db).1, none) := Prod.ext rfl hkeys
    simp only [reprocess, hpath, hpair, acquireCapacity_eq (show LeaseKind.remediation ≠ .probe
      from nofun)]
  · have hidle : (⟨.remediation, slotScope .remediation c, c.id⟩ : Slot) ∉
        (acquireKeys L owner c keys.eraseDups db).1.reconcileFinished.slots := by
      intro hmem
      have hmem : (⟨.remediation, slotScope .remediation c, c.id⟩ : Slot) ∈
          sessionSlots (acquireKeys L owner c keys.eraseDups db).1 := by
        simpa [sessionSlots] using hmem
      rw [hslots] at hmem
      exact hp.idle (List.mem_of_mem_filter hmem)
    have hcount : (acquireKeys L owner c keys.eraseDups db).1.othersParked .remediation c.id =
        db.othersParked .remediation c.id := by
      rw [← othersParked_updateCase db .remediation c.id
        (fun c => { c with waitingFor := none, waitingSince := none })]
      simp only [Db.othersParked, hcases, clearWaiting]
    have holder : (acquireKeys L owner c keys.eraseDups db).1.olderWaiting .remediation c.id =
        db.othersParked .remediation c.id := by
      simp [Db.olderWaiting, hrow, hcount]
    rw [acquireSlot_granted L owner hp.global hidle, holder]
    simp only [freeSlots, RepositoryRoom, inUse_eq_sessionSlots _ hp.global,
      inUseScope_eq_sessionSlots _ hp.global, hslots]

theorem fifo_iff_after_keys {keys : List String} (hp : Parked db c .remediation since)
    (hpath : c.path = .keysThenSession keys) (hfree : ∀ key ∈ keys, KeyFree db c key) :
    Fifo L owner db c .remediation since ↔
      db.othersParked .remediation c.id < freeSlots L db .remediation ∧
        RepositoryRoom L db .remediation c := by
  obtain ⟨db₁, hstep, hgrant, c₁, hrow, hnone, hnow⟩ :=
    reprocess_after_keys L owner hp hpath hfree
  constructor
  · intro h
    by_contra hden
    -- a refusal stamps the case with the current time
    obtain ⟨d, hd⟩ := Option.ne_none_iff_exists'.mp (mt hgrant.mp hden)
    have hpair : acquireSlot L owner .remediation c db₁ = (_, some d) := Prod.ext rfl hd
    obtain ⟨c', hc', hw'⟩ := acquireSlot_denied hpair hrow
    obtain ⟨w, hw, hle⟩ := h.keepsPlace _ d c' (hstep.trans (congrArg some hpair)) hc'
    have hpast := hp.past
    rw [hw', hnone, hnow] at hw
    cases hw
    omega
  · intro hadm
    have hg : reprocess L owner c db = some ((acquireSlot L owner .remediation c db₁).1, none) :=
      hstep.trans (congrArg some (Prod.ext rfl (hgrant.mpr hadm)))
    refine ⟨fun db' d c' h => ?_, fun _ _ => ⟨_, hg⟩, fun _ hle => ?_⟩
    · rw [hg] at h
      cases h
    · have := rank_le_othersParked db c .remediation since
      omega

theorem fifo_iff_key_taken {keys : List String} (hp : Parked db c .remediation since)
    (hpath : c.path = .keysThenSession keys) (htaken : ∃ key ∈ keys, ¬ KeyFree db c key) :
    Fifo L owner db c .remediation since ↔
      ¬ (rank db c .remediation since < freeSlots L db .remediation ∧
        RepositoryRoom L db .remediation c) := by
  have hkeys : (acquireKeys L owner c keys.eraseDups db).2 ≠ none := by
    rw [ne_eq, acquireKeys_granted]
    obtain ⟨key, hkey, hn⟩ := htaken
    exact fun h => hn (h key (List.mem_eraseDups.mpr hkey))
  obtain ⟨d, hd⟩ := Option.ne_none_iff_exists'.mp hkeys
  have hpair : acquireKeys L owner c keys.eraseDups db = (_, some d) := Prod.ext rfl hd
  have hstep : reprocess L owner c db =
      some ((acquireKeys L owner c keys.eraseDups db).1, some d) := by
    simp only [reprocess, hpath, acquireResourceKeys]
    rw [hpair]
  refine fifo_iff_of_not_granted ?_ ?_
  · rintro ⟨db', h⟩
    rw [hstep] at h
    cases h
  · intro db' d' c' h hc'
    rw [hstep] at h
    cases h
    refine ⟨since, ?_, Nat.le_refl _⟩
    rw [acquireKeys_denied L owner keys.eraseDups hp.row hpair hc', hp.waiting]
    rfl

theorem path_session_ne_probe {k : LeaseKind} (h : c.path = .session k) : k ≠ .probe := by
  rintro rfl
  simp only [CaseRow.path] at h
  repeat' split at h
  all_goals cases h

/-- **Re-processing a parked case respects the queue if and only if it is admissible.** -/
theorem fifo_iff_admissible (L : Limits) (owner : String) (hp : Parked db c kind since) :
    Fifo L owner db c kind since ↔ Admissible L db c kind since := by
  have hasks := hp.asks
  simp only [Admissible]
  split
  · next k hpath =>
      obtain rfl : k = kind := hasks k (by simp [hpath, Path.kind])
      have hk := path_session_ne_probe hpath
      simp only [iff_true]
      exact fifo_of_direct hp (by simp only [reprocess, hpath, acquireCapacity_eq hk])
  · next hpath =>
      obtain rfl : LeaseKind.probe = kind := hasks .probe (by simp [hpath, Path.kind])
      simp only [iff_true]
      exact fifo_of_direct hp (by simp only [reprocess, hpath, acquireProbeSlot_eq])
  · next keys hpath =>
      obtain rfl : LeaseKind.remediation = kind := hasks .remediation (by simp [hpath, Path.kind])
      by_cases hfree : ∀ key ∈ keys, KeyFree db c key
      · have hno : ¬ ∃ key ∈ keys, ¬ KeyFree db c key := fun ⟨key, hkey, hn⟩ => hn (hfree key hkey)
        rw [fifo_iff_after_keys hp hpath hfree]
        exact ⟨fun h => ⟨fun _ => h, fun h => absurd h hno⟩, fun h => h.1 hfree⟩
      · have htaken : ∃ key ∈ keys, ¬ KeyFree db c key := by
          by_contra hno
          exact hfree fun key hkey => by_contra fun hn => hno ⟨key, hkey, hn⟩
        rw [fifo_iff_key_taken hp hpath htaken]
        exact ⟨fun h => ⟨fun h => absurd h hfree, fun _ => h⟩, fun h => h.2 htaken⟩
  · next hpath =>
      refine fifo_iff_of_not_granted ?_ ?_
      · rintro ⟨db', h⟩
        simp [reprocess, hpath] at h
      · intro db' d c' h
        simp [reprocess, hpath] at h

/-! ## The longest-waiting case loses its place

One remediation slot is free and two cases wait for it; the older one has a probe without
resource keys. -/

def demoLimits : Limits :=
  ⟨2, 1, 1, 1, 600, Nat.two_pos, Nat.one_pos, Nat.one_pos, Nat.succ_pos 599⟩

def demoCase (id since : Nat) (context : Context) : CaseRow :=
  { id := id, repository := "apache/superset", state := .remediationCreateIntent,
    waitingFor := some "REMEDIATION (1/1)", waitingSince := some since, eligible := true,
    active := false, context := context, probeReady := true }

def demoDb : Db :=
  { now := 100, cases := [demoCase 1 10 (.withProbe []), demoCase 2 20 (.withProbe [])],
    leases := [], finished := [] }

theorem demoDb_parked : Parked demoDb (demoCase 1 10 (.withProbe [])) .remediation 10 where
  row := by decide
  parked := by decide +kernel
  waiting := rfl
  past := by decide
  global := by decide
  idle := by decide
  asks := by decide

theorem fifo_not_respected : ¬ ∀ (L : Limits) (owner : String) (db : Db) (c : CaseRow)
    (kind : LeaseKind) (since : Nat), Parked db c kind since → Fifo L owner db c kind since := by
  intro h
  have hf := h demoLimits "worker-a" demoDb _ .remediation 10 demoDb_parked
  obtain ⟨db', hg⟩ := hf.admitsOldest (by decide +kernel) (fun _ _ => by decide +kernel)
  have hno : ((reprocess demoLimits "worker-a" (demoCase 1 10 (.withProbe [])) demoDb).bind
      (·.2)).isSome = true := by decide +kernel
  rw [hg] at hno
  simp at hno

theorem fifo_iff_admissible_demo :
    Fifo demoLimits "worker-a" demoDb (demoCase 1 10 (.withProbe [])) .remediation 10 ↔
      Admissible demoLimits demoDb (demoCase 1 10 (.withProbe [])) .remediation 10 :=
  fifo_iff_admissible demoLimits "worker-a" demoDb_parked

end Remediator.Capacity
