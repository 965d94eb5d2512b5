import Mathlib.Data.List.Basic
import Mathlib.Tactic.Common
import Remediator.Lifecycle

set_option autoImplicit false

/-! # Capacity leases and the waiting queue

`remediator/capacity.py` and the four places that call it. A lease is a row that counts
against the limit of its kind while it is neither released nor expired. A case that finds its
limit saturated is parked: `waiting_for` and `waiting_since` are written to its row and the
next claim asks again.

All cases share the leases, so the database here has many cases; a transaction is a function
on it. The advisory lock of `acquire` makes each acquisition atomic.
-/

namespace Remediator.Capacity

/-! ## Rows -/

/-- `CapacityLeaseKind`. -/
inductive LeaseKind
  | triage
  | remediation
  | probe
  | resource
  deriving DecidableEq, Repr

def LeaseKind.value : LeaseKind → String
  | triage => "TRIAGE"
  | remediation => "REMEDIATION"
  | probe => "PROBE"
  | resource => "RESOURCE"

/-- `CapacityLimits`. The settings refuse a limit that is not positive. -/
structure Limits where
  triage : Nat
  remediation : Nat
  probes : Nat
  remediationPerRepository : Nat
  leaseSeconds : Nat
  triage_pos : 0 < triage
  remediation_pos : 0 < remediation
  probes_pos : 0 < probes
  leaseSeconds_pos : 0 < leaseSeconds

/-- `CapacityLimits.for_kind`: a resource key has no global limit. -/
def Limits.forKind (L : Limits) : LeaseKind → Nat
  | .triage => L.triage
  | .remediation => L.remediation
  | .probe => L.probes
  | .resource => 0

/-- `CapacityLease`. -/
structure Lease where
  kind : LeaseKind
  scope : String
  caseId : Nat
  attemptId : Option Nat
  owner : String
  acquiredAt : Nat
  expiresAt : Nat
  releasedAt : Option Nat
  deriving DecidableEq, Repr

/-- What `_load_context` finds for a case that is about to run its remediation session: the
dispatch is refused, or authorised without a probe, or authorised with a probe snapshot whose
manifest declares these resource keys. -/
inductive Context
  | refused
  | withoutProbe
  | withProbe (resourceKeys : List String)
  deriving DecidableEq, Repr

/-- The part of a case that the capacity decisions read. `eligible`, `active`, `context` and
`probeReady` stand for the case's other rows: the verdict of the rubric on its issue, whether
an active attempt of the phase exists (in `REMEDIATION_TERMINATION_PENDING`, one that is itself
`TERMINATION_PENDING`), the dispatch context, and whether the rows the next probe run needs are
there. -/
structure CaseRow where
  id : Nat
  repository : String
  state : CaseState
  waitingFor : Option String
  waitingSince : Option Nat
  eligible : Bool
  active : Bool
  context : Context
  probeReady : Bool
  deriving DecidableEq, Repr

/-- The database as `capacity.py` sees it; `finished` are the attempts that are no longer
live. -/
structure Db where
  now : Nat
  cases : List CaseRow
  leases : List Lease
  finished : List Nat
  deriving DecidableEq, Repr

/-- `CapacityDenied`. -/
structure Denied where
  kind : LeaseKind
  scope : String
  limit : Nat
  inUse : Nat
  queuedBehind : Nat
  deriving DecidableEq, Repr

/-- `CapacityDenied.label`. -/
def Denied.label (d : Denied) : String :=
  d.kind.value ++ (if d.scope = "" then "" else ":" ++ d.scope) ++ " (" ++ toString d.inUse
    ++ "/" ++ toString d.limit ++ ")"
    ++ (if d.queuedBehind = 0 then "" else " behind " ++ toString d.queuedBehind)

/-! ## Counting -/

/-- `_active_clause`. -/
def Lease.live (l : Lease) (now : Nat) : Bool := l.releasedAt.isNone && decide (now < l.expiresAt)

/-- `in_use` over every scope. -/
def Db.inUse (db : Db) (kind : LeaseKind) : Nat :=
  db.leases.countP (fun l => l.live db.now && decide (l.kind = kind))

/-- `in_use` of one scope. -/
def Db.inUseScope (db : Db) (kind : LeaseKind) (scope : String) : Nat :=
  db.leases.countP (fun l => l.live db.now && decide (l.kind = kind) && decide (l.scope = scope))

def Db.case? (db : Db) (id : Nat) : Option CaseRow := db.cases.find? (fun c => c.id == id)

def Db.updateCase (db : Db) (id : Nat) (f : CaseRow → CaseRow) : Db :=
  { db with cases := db.cases.map (fun c => if c.id = id then { f c with id := c.id } else c) }

/-- A live case parked on the global limit of `kind`: `waiting_for LIKE 'KIND (%'`. -/
def CaseRow.parkedOn (kind : LeaseKind) (c : CaseRow) : Bool :=
  (match c.waitingFor with
    | some text => (kind.value ++ " (").toList.isPrefixOf text.toList
    | none => false) && c.waitingSince.isSome && !c.state.terminal

/-- The other cases parked on the global limit of `kind`. -/
def Db.othersParked (db : Db) (kind : LeaseKind) (id : Nat) : Nat :=
  db.cases.countP (fun c => decide (c.id ≠ id) && c.parkedOn kind)

/-- The other cases parked on the global limit of `kind` since before `since`. -/
def Db.parkedBefore (db : Db) (kind : LeaseKind) (id since : Nat) : Nat :=
  db.cases.countP (fun c => decide (c.id ≠ id) && c.parkedOn kind &&
    decide (∃ w ∈ c.waitingSince, w < since))

/-- `older_waiting`. -/
def Db.olderWaiting (db : Db) (kind : LeaseKind) (id : Nat) : Nat :=
  match (db.case? id).bind (·.waitingSince) with
  | some mine => db.parkedBefore kind id mine
  | none => db.othersParked kind id

/-! ## `acquire` -/

/-- The arguments of `acquire`. -/
structure Request where
  kind : LeaseKind
  caseId : Nat
  scope : String
  attemptId : Option Nat
  perScopeLimit : Option Nat
  force : Bool

/-- `reconcile_finished`. -/
def Db.reconcileFinished (db : Db) : Db :=
  { db with leases := db.leases.map (fun l =>
      if l.releasedAt.isNone && l.attemptId.any (fun a => db.finished.contains a) then
        { l with releasedAt := some db.now }
      else l) }

/-- The lease is the one `acquire` looks for; the partial unique index on unreleased leases
leaves at most one. -/
def Request.matches (r : Request) (l : Lease) : Bool :=
  decide (l.kind = r.kind) && decide (l.scope = r.scope) && decide (l.caseId = r.caseId) &&
    l.releasedAt.isNone

/-- The case already has the lease, and it is live. -/
def Db.holds (db : Db) (r : Request) : Bool :=
  db.leases.any (fun l => r.matches l && l.live db.now)

/-- Retire the own lease that lapsed before it was renewed. -/
def Db.releaseLapsed (db : Db) (r : Request) : Db :=
  { db with leases := db.leases.map (fun l =>
      if r.matches l && !l.live db.now then { l with releasedAt := some db.now } else l) }

/-- The two limits, in the order they are tested. -/
def Db.refusal (db : Db) (L : Limits) (r : Request) : Option Denied :=
  let limit := L.forKind r.kind
  let perScope := if r.kind = .resource then some 1 else r.perScopeLimit
  let total := db.inUse r.kind
  let ahead := db.olderWaiting r.kind r.caseId
  let inScope := db.inUseScope r.kind r.scope
  if limit ≠ 0 ∧ r.force = false ∧ limit ≤ total then
    some ⟨r.kind, "", limit, total, 0⟩
  else if limit ≠ 0 ∧ r.force = false ∧ limit - total ≤ ahead then
    some ⟨r.kind, "", limit, total, ahead⟩
  else
    match perScope with
    | some n =>
        if r.scope ≠ "" ∧ r.force = false ∧ n ≤ inScope then
          some ⟨r.kind, r.scope, n, inScope, 0⟩
        else none
    | none => none

/-- Compete for a slot: be refused, or insert the lease. -/
def Db.compete (db : Db) (L : Limits) (owner : String) (r : Request) : Db × Option Denied :=
  match db.refusal L r with
  | some d => (db, some d)
  | none =>
      ({ db with leases := db.leases ++ [⟨r.kind, r.scope, r.caseId, r.attemptId, owner, db.now,
          db.now + L.leaseSeconds, none⟩] }, none)

/-- Extend the lease that is still live. -/
def Db.renew (db : Db) (L : Limits) (owner : String) (r : Request) : Db :=
  { db with leases := db.leases.map (fun l =>
      if r.matches l && l.live db.now then
        { l with expiresAt := db.now + L.leaseSeconds, owner := owner,
                 attemptId := r.attemptId.or l.attemptId }
      else l) }

/-- `CapacityManager.acquire`: the database after it, and the refusal if there is one. -/
def acquire (L : Limits) (owner : String) (r : Request) (db : Db) : Db × Option Denied :=
  let db := db.reconcileFinished
  if db.holds r then (db.renew L owner r, none) else (db.releaseLapsed r).compete L owner r

/-! ## The callers -/

/-- `mark_waiting`. -/
def markWaiting (db : Db) (id : Nat) (d : Denied) : Db :=
  db.updateCase id (fun c =>
    { c with waitingFor := some d.label, waitingSince := c.waitingSince.or (some db.now) })

/-- `clear_waiting`. -/
def clearWaiting (db : Db) (id : Nat) : Db :=
  db.updateCase id (fun c => { c with waitingFor := none, waitingSince := none })

/-- `DevinRunner._acquire_capacity` before a new session of the case. -/
def acquireCapacity (L : Limits) (owner : String) (kind : LeaseKind) (c : CaseRow) (db : Db) :
    Db × Option Denied :=
  let perScope := if kind = .remediation then some L.remediationPerRepository else none
  match acquire L owner ⟨kind, c.id, c.repository.toLower, none, perScope, false⟩ db with
  | (db, some d) => (markWaiting db c.id d, some d)
  | (db, none) => (clearWaiting db c.id, none)

/-- `RemediationPipeline._acquire_probe_slot`. -/
def acquireProbeSlot (L : Limits) (owner : String) (c : CaseRow) (db : Db) : Db × Option Denied :=
  match acquire L owner ⟨.probe, c.id, "", none, none, false⟩ db with
  | (db, some d) => (markWaiting db c.id d, some d)
  | (db, none) => (clearWaiting db c.id, none)

/-- The loop of `_acquire_resource_keys`; `CapacityWait` ends it at the first refusal. -/
def acquireKeys (L : Limits) (owner : String) (c : CaseRow) :
    List String → Db → Db × Option Denied
  | [], db => (clearWaiting db c.id, none)
  | key :: keys, db =>
      match acquire L owner ⟨.resource, c.id, key, none, some 1, false⟩ db with
      | (db, some d) => (markWaiting db c.id d, some d)
      | (db, none) => acquireKeys L owner c keys db

/-- `RemediationPipeline._acquire_resource_keys`; `manifest_resource_keys` drops repetitions. -/
def acquireResourceKeys (L : Limits) (owner : String) (keys : List String) (c : CaseRow) (db : Db) :
    Db × Option Denied :=
  acquireKeys L owner c keys.eraseDups db

/-- The slot of a global limit that processing a case asks for first, and what it does before
that. -/
inductive Path
  | session (kind : LeaseKind)
  | keysThenSession (keys : List String)
  | probeSlot
  | noSlot
  deriving DecidableEq, Repr

/-- How `process_case` and `RemediationPipeline.process` reach a slot. An active attempt is
resumed without a new slot (but not without its resource keys, `CaseRow.sessionKeys`), and the
remaining states ask for none. -/
def CaseRow.path (c : CaseRow) : Path :=
  match c.state with
  | .received => if c.eligible && !c.active then .session .triage else .noSlot
  | .triageCreateIntent | .triaging => if c.active then .noSlot else .session .triage
  | .probeValidatingBase | .probeValidatingHead => if c.probeReady then .probeSlot else .noSlot
  | .remediationCreateIntent | .remediationReconcilingCreate | .remediating =>
      if c.active then .noSlot
      else
        match c.context with
        | .refused => .noSlot
        | .withoutProbe => .session .remediation
        | .withProbe keys => .keysThenSession keys
  | _ => .noSlot

/-- The keys of a context with a probe. -/
def Context.keys : Context → Option (List String)
  | .withProbe keys => some keys
  | _ => none

/-- The resource keys that `_run_session` takes before it runs or resumes the session; a
termination that has no attempt of its own ends before that. -/
def CaseRow.sessionKeys (c : CaseRow) : Option (List String) :=
  match c.state with
  | .remediationCreateIntent | .remediationReconcilingCreate | .remediating => c.context.keys
  | .remediationTerminationPending => if c.active then c.context.keys else none
  | _ => none

def Path.kind : Path → Option LeaseKind
  | .session kind => some kind
  | .keysThenSession _ => some .remediation
  | .probeSlot => some .probe
  | .noSlot => none

/-- Re-process a case up to its first slot: `_run_session` takes the resource keys before
`run` takes the session slot. `none` when no slot is asked for. -/
def reprocess (L : Limits) (owner : String) (c : CaseRow) (db : Db) :
    Option (Db × Option Denied) :=
  match c.path with
  | .session kind => some (acquireCapacity L owner kind c db)
  | .keysThenSession keys =>
      match acquireResourceKeys L owner keys c db with
      | (db, some d) => some (db, some d)
      | (db, none) => some (acquireCapacity L owner .remediation c db)
  | .probeSlot => some (acquireProbeSlot L owner c db)
  | .noSlot => none

/-! ## What an acquisition changes

Counts are taken after `reconcile_finished`: a lease of an attempt that is no longer live does
not hold a slot. -/

/-- No unreleased lease belongs to a finished attempt. -/
def Db.Reconciled (db : Db) : Prop :=
  ∀ l ∈ db.leases, l.releasedAt = none → ∀ a ∈ l.attemptId, a ∉ db.finished

theorem reconcileFinished_reconciled (db : Db) : db.reconcileFinished.Reconciled := by
  intro l hl hr a ha hf
  obtain ⟨l₀, -, rfl⟩ := List.mem_map.mp hl
  have hf : a ∈ db.finished := hf
  split at hr
  · cases hr
  · next h =>
      rw [if_neg h] at ha
      simp only [Bool.and_eq_true, not_and] at h
      have ha : l₀.attemptId = some a := ha
      simp [hr, ha, hf] at h

theorem Db.Reconciled.eq {db : Db} (h : db.Reconciled) : db.reconcileFinished = db := by
  have hmap : db.reconcileFinished.leases = db.leases := by
    refine (List.map_congr_left fun l hl => ?_).trans (List.map_id _)
    rw [if_neg]
    · rfl
    · intro hc
      simp only [Bool.and_eq_true, Option.isNone_iff_eq_none, Option.any_eq_true,
        List.contains_iff_mem] at hc
      obtain ⟨hr, a, ha, hf⟩ := hc
      exact h l hl hr a ha hf
  cases db
  simp_all [Db.reconcileFinished]

@[simp] theorem reconcileFinished_cases (db : Db) : db.reconcileFinished.cases = db.cases := rfl

@[simp] theorem reconcileFinished_now (db : Db) : db.reconcileFinished.now = db.now := rfl

/-! ### Live slots

Every count is a count over the live leases, reduced to kind, scope and case. -/

structure Slot where
  kind : LeaseKind
  scope : String
  caseId : Nat
  deriving DecidableEq, Repr

def Db.slots (db : Db) : List Slot :=
  (db.leases.filter (fun l => l.live db.now)).map (fun l => ⟨l.kind, l.scope, l.caseId⟩)

def Request.slot (r : Request) : Slot := ⟨r.kind, r.scope, r.caseId⟩

theorem inUse_eq (db : Db) (kind : LeaseKind) :
    db.inUse kind = db.slots.countP (fun x => decide (x.kind = kind)) := by
  simp only [Db.inUse, Db.slots, List.countP_map, List.countP_filter]
  exact List.countP_congr fun l _ => by simp [and_comm]

theorem inUseScope_eq (db : Db) (kind : LeaseKind) (scope : String) :
    db.inUseScope kind scope =
      db.slots.countP (fun x => decide (x.kind = kind) && decide (x.scope = scope)) := by
  simp only [Db.inUseScope, Db.slots, List.countP_map, List.countP_filter]
  exact List.countP_congr fun l _ => by
    simp only [Bool.and_eq_true, decide_eq_true_eq, Function.comp_apply]
    tauto

theorem holds_iff (db : Db) (r : Request) : db.holds r = true ↔ r.slot ∈ db.slots := by
  simp only [Db.holds, Db.slots, Request.slot, Request.matches, List.any_eq_true, List.mem_map,
    List.mem_filter, Bool.and_eq_true, decide_eq_true_eq, Slot.mk.injEq]
  constructor
  · rintro ⟨l, hl, ⟨⟨⟨hk, hs⟩, hc⟩, -⟩, hv⟩
    exact ⟨l, ⟨hl, hv⟩, hk, hs, hc⟩
  · rintro ⟨l, ⟨hl, hv⟩, hk, hs, hc⟩
    refine ⟨l, hl, ⟨⟨⟨hk, hs⟩, hc⟩, ?_⟩, hv⟩
    simp only [Lease.live, Bool.and_eq_true] at hv
    exact hv.1

/-- Rewriting leases without touching liveness or identity keeps the slots. -/
private theorem slots_map {db : Db} {f : Lease → Lease}
    (h : ∀ l, (f l).live db.now = l.live db.now)
    (hid : ∀ l, (⟨(f l).kind, (f l).scope, (f l).caseId⟩ : Slot) = ⟨l.kind, l.scope, l.caseId⟩) :
    Db.slots { db with leases := db.leases.map f } = db.slots := by
  simp only [Db.slots, List.filter_map, List.map_map]
  have hf : (fun l : Lease => l.live db.now) ∘ f = fun l => l.live db.now := funext h
  rw [hf]
  exact List.map_congr_left fun l _ => hid l

@[simp] theorem renew_slots (db : Db) (L : Limits) (owner : String) (r : Request) :
    (db.renew L owner r).slots = db.slots := by
  have hpos := L.leaseSeconds_pos
  refine slots_map (fun l => ?_) (fun l => by split <;> rfl)
  split
  · next h =>
      simp only [Bool.and_eq_true, Lease.live, decide_eq_true_eq] at h
      simp [Lease.live, h.2]
      omega
  · rfl

@[simp] theorem releaseLapsed_slots (db : Db) (r : Request) :
    (db.releaseLapsed r).slots = db.slots := by
  refine slots_map (fun l => ?_) (fun l => by split <;> rfl)
  split
  · next h =>
      simp only [Bool.and_eq_true, Bool.not_eq_true'] at h
      rw [h.2]
      simp [Lease.live]
  · rfl

theorem compete_slots (db : Db) (L : Limits) (owner : String) (r : Request) :
    (db.compete L owner r).1.slots =
      if (db.refusal L r).isSome then db.slots else db.slots ++ [r.slot] := by
  have hpos := L.leaseSeconds_pos
  simp only [Db.compete]
  split
  · next h => simp [h]
  · next h =>
      simp [h, Db.slots, Lease.live, Request.slot, hpos]

/-- The refusal depends on the live slots and the parked cases only. -/
theorem refusal_congr {db db' : Db} (hs : db'.slots = db.slots) (hc : db'.cases = db.cases)
    (L : Limits) (r : Request) : db'.refusal L r = db.refusal L r := by
  simp only [Db.refusal, inUse_eq, inUseScope_eq, hs, Db.olderWaiting, Db.case?,
    Db.parkedBefore, Db.othersParked, hc]

/-- The specification of `acquire`: a live lease of the case is renewed, otherwise the limits
decide on the reconciled database. -/
theorem acquire_answer (L : Limits) (owner : String) (r : Request) (db : Db) :
    (acquire L owner r db).2 =
      if r.slot ∈ db.reconcileFinished.slots then none
      else db.reconcileFinished.refusal L r := by
  by_cases h : db.reconcileFinished.holds r = true
  · rw [if_pos ((holds_iff _ _).mp h)]
    simp [acquire, h]
  · rw [if_neg (fun hs => h ((holds_iff _ _).mpr hs))]
    simp only [acquire, if_neg h, Db.compete]
    rw [refusal_congr (releaseLapsed_slots _ _) rfl]
    split <;> next h => rw [h]

theorem acquire_slots (L : Limits) (owner : String) (r : Request) (db : Db) :
    (acquire L owner r db).1.slots =
      if r.slot ∈ db.reconcileFinished.slots ∨ (acquire L owner r db).2.isSome
      then db.reconcileFinished.slots else db.reconcileFinished.slots ++ [r.slot] := by
  rw [acquire_answer]
  by_cases h : db.reconcileFinished.holds r = true
  · rw [if_pos (Or.inl ((holds_iff _ _).mp h))]
    simp [acquire, h]
  · have hs : r.slot ∉ db.reconcileFinished.slots := fun hs => h ((holds_iff _ _).mpr hs)
    simp only [acquire, if_neg h, compete_slots, releaseLapsed_slots, hs, false_or, if_false]
    rw [refusal_congr (releaseLapsed_slots _ _) rfl]

@[simp] theorem acquire_cases (L : Limits) (owner : String) (r : Request) (db : Db) :
    (acquire L owner r db).1.cases = db.cases := by
  simp only [acquire, Db.compete]
  split
  · rfl
  · split <;> rfl

@[simp] theorem acquire_now (L : Limits) (owner : String) (r : Request) (db : Db) :
    (acquire L owner r db).1.now = db.now := by
  simp only [acquire, Db.compete]
  split
  · rfl
  · split <;> rfl

/-- An acquisition that names no attempt leaves nothing to reconcile. -/
theorem acquire_reconciled (L : Limits) (owner : String) (r : Request) (db : Db)
    (hr : r.attemptId = none) : (acquire L owner r db).1.Reconciled := by
  have hdb := reconcileFinished_reconciled db
  have hmap : ∀ (f : Lease → Lease), (∀ l, (f l).releasedAt = none → l.releasedAt = none) →
      (∀ l, (f l).attemptId = l.attemptId) →
      Db.Reconciled { db.reconcileFinished with
        leases := db.reconcileFinished.leases.map f } := by
    intro f hrel hatt l hl hnone a ha
    obtain ⟨l₀, hl₀, rfl⟩ := List.mem_map.mp hl
    exact hdb l₀ hl₀ (hrel l₀ hnone) a (by rw [← hatt l₀]; exact ha)
  simp only [acquire]
  split
  · refine hmap _ (fun l h => ?_) (fun l => ?_)
    · split at h <;> exact h
    · split <;> simp [hr]
  · have hlapsed : (db.reconcileFinished.releaseLapsed r).Reconciled := by
      refine hmap _ (fun l h => ?_) (fun l => ?_)
      · split at h
        · cases h
        · exact h
      · split <;> rfl
    simp only [Db.compete]
    split
    · exact hlapsed
    · intro l hl hnone a ha
      rcases List.mem_append.mp hl with hl | hl
      · exact hlapsed l hl hnone a ha
      · obtain rfl := List.mem_singleton.mp hl
        simp [hr] at ha

end Remediator.Capacity
