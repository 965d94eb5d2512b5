import Remediator.Rounds.Decisions

set_option autoImplicit false

/-! # What is owed to a labelled round

A round whose label was applied waits for the `labeled` delivery that GitHub emitted for it. The
invariant here says where that delivery is: in flight, stored and not processed, or processed
before the label was recorded, in which case someone still has to replay it. It holds until one
of four things happens, which are recorded as incidents.
-/

namespace Remediator

open Interleave

/-- What can wedge a case with an approved and labelled round. -/
def wedgeIncidents : List Incident := [.labelPresent, .replayLost, .misjudged, .reopened]

/-- What makes a confirmation count that moved nothing. -/
def lossOfConfirmation : List Incident := [.confirmationLost]

/-! ## The invariant -/

/-- The label was requested before it was added last. -/
def RequestedBefore (s : Store) (requestedAt : Option Nat) : Prop :=
  ∀ τ, requestedAt = some τ → τ < s.now ∧ (s.label.present = true → τ ≤ s.label.addedAt)

/-- The columns of a round that record the delivery of its label. -/
structure ApprovalRequest.Columns (s : Store) (r : ApprovalRequest) : Prop where
  applied : r.deliveryStatus = .labelApplied → r.labelAppliedAt.isSome = true
  failed : r.deliveryStatus = .failed → r.labelAppliedAt = none
  requested : s.hit wedgeIncidents ∨ RequestedBefore s r.labelRequestedAt

/-- A delivery of the label that can confirm a round. -/
def WebhookEvent.confirming (cfg : Settings) (e : WebhookEvent) : Bool :=
  e.remediationLabel && e.carriesLabel cfg

/-- The delivery is not processed, or it was not processed before the label was added last. -/
def WebhookEvent.recent (addedAt : Nat) (e : WebhookEvent) : Prop :=
  e.status ≠ .processed ∨ ∃ t, e.processedAt = some t ∧ addedAt ≤ t

/-- The round is the newest one, approved and labelled, and the case waits for its delivery. -/
structure Labelled (s : Store) (id : Nat) (r : ApprovalRequest) : Prop where
  row : s.approvals[id]? = some r
  newest : id + 1 = s.approvals.length
  approved : r.decision = .approved
  applied : r.deliveryStatus = .labelApplied
  present : s.label.present = true
  awaits : s.case.state.awaitsLabel = true

/-- The delivery that confirms the round is still to be processed or replayed. -/
def Owed (cfg : Settings) (s : Store) (id : Nat) : Prop :=
  0 < s.label.inFlight ∨
    (∃ e ∈ s.events, e.confirming cfg = true ∧ e.status ≠ .processed) ∨
    ∃ o, (o, id) ∈ s.history.replaying

structure LabelInv (cfg : Settings) (s : Store) : Prop where
  columns : ∀ (id : Nat) (r : ApprovalRequest), s.approvals[id]? = some r → r.Columns s
  added : s.label.addedAt ≤ s.now
  processed : ∀ e ∈ s.events, ∀ t, e.processedAt = some t → t < s.now
  emitted : s.label.present = true → 0 < s.label.inFlight ∨
    ∃ e ∈ s.events, e.confirming cfg = true ∧ e.recent s.label.addedAt
  replaying : s.hit wedgeIncidents ∨
    ∀ x ∈ s.history.replaying, labelSettled s.outbox x.2 = false
  owed : s.hit wedgeIncidents ∨ ∀ id r, Labelled s id r → Owed cfg s id
  admitted : s.hit lossOfConfirmation ∨ ∀ (id : Nat) (r : ApprovalRequest),
    s.approvals[id]? = some r → r.deliveryStatus = .confirmed → id ∈ s.history.admitted

theorem LabelInv.empty (cfg : Settings) : LabelInv cfg {} where
  columns := fun _ _ h => by cases h
  added := Nat.le_refl _
  processed := List.forall_mem_nil _
  emitted := fun h => by cases h
  replaying := Or.inr (List.forall_mem_nil _)
  owed := Or.inr (fun _ _ h => by cases h.row)
  admitted := Or.inr (fun _ _ h => by cases h)

/-! ## Facts that last -/

theorem now_le_apply (op : Op) (s : Store) : s.now ≤ (op.apply s).now := by
  cases op with
  | tick n => exact Nat.le_add_right _ _
  | _ => exact Nat.le_succ _

/-- A request stays one that was made before the label was added last. -/
theorem RequestedBefore.apply {s : Store} {requestedAt : Option Nat}
    (h : RequestedBefore s requestedAt) (op : Op) : RequestedBefore (op.apply s) requestedAt := by
  intro τ hτ
  obtain ⟨hlt, hadded⟩ := h τ hτ
  refine ⟨Nat.lt_of_lt_of_le hlt (now_le_apply op s), ?_⟩
  cases op with
  | setLabel on =>
      intro hp
      change (s.label.set s.now on).present = true at hp
      show τ ≤ (s.label.set s.now on).addedAt
      unfold IssueLabel.set at hp ⊢
      split at hp
      · next hon =>
          rw [if_pos hon]
          split
          · next hpresent => exact hadded hpresent
          · exact Nat.le_of_lt hlt
      · cases hp
  | _ => exact hadded

theorem ApprovalRequest.Columns.apply {s : Store} {r : ApprovalRequest} (h : r.Columns s)
    (op : Op) : r.Columns (op.apply s) where
  applied := h.applied
  failed := h.failed
  requested := h.requested.imp (hit_apply op) (fun hr => hr.apply op)

/-! ## Operations that are no transactions -/

/-- The label of the issue after it was set. -/
theorem label_set {l : IssueLabel} {now : Nat} {on : Bool} (hadded : l.addedAt ≤ now)
    (hp : (l.set now on).present = true) :
    (l.set now on).addedAt ≤ now ∧
      ((l.present = true ∧ l.set now on = l) ∨ 0 < (l.set now on).inFlight) := by
  unfold IssueLabel.set at hp ⊢
  split
  · split
    · next hpresent => exact ⟨hadded, Or.inl ⟨hpresent, rfl⟩⟩
    · exact ⟨Nat.le_refl _, Or.inr (Nat.succ_pos _)⟩
  · next hon =>
      rw [if_neg hon] at hp
      cases hp

/-- An operation that touches nothing the invariant is about. -/
theorem LabelInv.frame {cfg : Settings} {s : Store} (h : LabelInv cfg s) (op : Op)
    (happrovals : (op.apply s).approvals = s.approvals) (hlabel : (op.apply s).label = s.label)
    (hevents : (op.apply s).events = s.events) (houtbox : (op.apply s).outbox = s.outbox)
    (hstate : (op.apply s).case.state = s.case.state)
    (hreplaying : (op.apply s).history.replaying = s.history.replaying)
    (hadmitted : (op.apply s).history.admitted = s.history.admitted) :
    LabelInv cfg (op.apply s) where
  columns := by
    rw [happrovals]
    exact fun id r hr => (h.columns id r hr).apply op
  added := by
    rw [hlabel]
    exact Nat.le_trans h.added (now_le_apply op s)
  processed := by
    rw [hevents]
    exact fun e he t ht => Nat.lt_of_lt_of_le (h.processed e he t ht) (now_le_apply op s)
  emitted := by
    rw [hevents, hlabel]
    exact h.emitted
  replaying := by
    rw [houtbox, hreplaying]
    exact h.replaying.imp_left (hit_apply op)
  owed := by
    refine h.owed.imp (hit_apply op) (fun howed id r hr => ?_)
    obtain ⟨hrow, hnewest, happroved, happlied, hpresent, hawaits⟩ := hr
    rw [happrovals] at hrow hnewest
    rw [hlabel] at hpresent
    rw [hstate] at hawaits
    unfold Owed
    rw [hlabel, hevents, hreplaying]
    exact howed id r ⟨hrow, hnewest, happroved, happlied, hpresent, hawaits⟩
  admitted := by
    rw [happrovals, hadmitted]
    exact h.admitted.imp_left (hit_apply op)

theorem LabelInv.setLabel {cfg : Settings} {s : Store} (h : LabelInv cfg s) (on : Bool) :
    LabelInv cfg ((Op.setLabel on).apply s) where
  columns := fun id r hr => (h.columns id r hr).apply _
  added := by
    show (s.label.set s.now on).addedAt ≤ s.now + 1
    unfold IssueLabel.set
    have hadded := h.added
    split
    · split
      · omega
      · show s.now ≤ s.now + 1
        omega
    · show s.label.addedAt ≤ s.now + 1
      omega
  processed := fun e he t ht => Nat.lt_succ_of_lt (h.processed e he t ht)
  emitted := by
    intro hp
    obtain ⟨-, ⟨hpresent, hsame⟩ | hflight⟩ := label_set h.added hp
    · show 0 < (s.label.set s.now on).inFlight ∨
        ∃ e ∈ s.events, e.confirming cfg = true ∧ e.recent (s.label.set s.now on).addedAt
      rw [hsame]
      exact h.emitted hpresent
    · exact Or.inl hflight
  replaying := h.replaying.imp_left (hit_apply _)
  owed := by
    refine h.owed.imp (hit_apply _) (fun howed id r hr => ?_)
    obtain ⟨hrow, hnewest, happroved, happlied, hpresent, hawaits⟩ := hr
    obtain ⟨-, ⟨hbefore, hsame⟩ | hflight⟩ := label_set h.added hpresent
    · show 0 < (s.label.set s.now on).inFlight ∨ _
      rw [hsame]
      exact howed id r ⟨hrow, hnewest, happroved, happlied, hbefore, hawaits⟩
    · exact Or.inl hflight
  admitted := h.admitted.imp_left (hit_apply _)

/-- A delivery arrives; `flight` is what is still in flight then. -/
theorem LabelInv.arrive {cfg : Settings} {s : Store} (h : LabelInv cfg s) {op : Op}
    {e : WebhookEvent} (hfresh : e.fresh = true)
    (happly : op.effect s = { s with
      now := s.now + 1
      events := s.events ++ [e]
      label := { s.label with inFlight := (op.effect s).label.inFlight } })
    (hflight : (op.effect s).label.inFlight = s.label.inFlight ∨
      e.confirming cfg = true) : LabelInv cfg (op.apply s) := by
  have hpart : ∀ {α : Type} (f : Store → α), f (op.effect s) = f { s with
      now := s.now + 1
      events := s.events ++ [e]
      label := { s.label with inFlight := (op.effect s).label.inFlight } } :=
    fun f => congrArg f happly
  have happrovals : (op.apply s).approvals = s.approvals := hpart Store.approvals
  have hevents : (op.apply s).events = s.events ++ [e] := hpart Store.events
  have hnow : (op.apply s).now = s.now + 1 := hpart Store.now
  have houtbox : (op.apply s).outbox = s.outbox := hpart Store.outbox
  have hstate : (op.apply s).case.state = s.case.state := hpart (fun s => s.case.state)
  have hpresent : (op.apply s).label.present = s.label.present := hpart (fun s => s.label.present)
  have haddedAt : (op.apply s).label.addedAt = s.label.addedAt := hpart (fun s => s.label.addedAt)
  have hreplaying : (op.apply s).history.replaying = s.history.replaying :=
    hpart (fun s => s.history.replaying)
  have hadmitted : (op.apply s).history.admitted = s.history.admitted :=
    hpart (fun s => s.history.admitted)
  have hinflight : (op.apply s).label.inFlight = (op.effect s).label.inFlight := rfl
  simp only [WebhookEvent.fresh, Bool.and_eq_true, decide_eq_true_eq,
    Option.isNone_iff_eq_none] at hfresh
  obtain ⟨⟨⟨⟨⟨hpending, -⟩, -⟩, -⟩, hprocessed⟩, -⟩ := hfresh
  have hunprocessed : e.status ≠ .processed := by
    rw [hpending]
    exact EventStatus.noConfusion
  constructor
  · rw [happrovals]
    exact fun id r hr => (h.columns id r hr).apply op
  · rw [haddedAt, hnow]
    exact Nat.le_succ_of_le h.added
  · rw [hevents, hnow]
    intro x hx t ht
    rcases List.mem_append.mp hx with hx | hx
    · exact Nat.lt_succ_of_lt (h.processed x hx t ht)
    · rw [List.mem_singleton.mp hx, hprocessed] at ht
      cases ht
  · rw [hpresent, hevents, haddedAt, hinflight]
    intro hp
    rcases hflight with hsame | hconf
    · rw [hsame]
      refine (h.emitted hp).imp_right ?_
      rintro ⟨x, hx, hxc, hxr⟩
      exact ⟨x, List.mem_append_left _ hx, hxc, hxr⟩
    · exact Or.inr ⟨e, List.mem_append_right _ (List.mem_singleton.mpr rfl), hconf,
        Or.inl hunprocessed⟩
  · rw [houtbox, hreplaying]
    exact h.replaying.imp_left (hit_apply op)
  · refine h.owed.imp (hit_apply op) (fun howed id r hr => ?_)
    obtain ⟨hrow, hnewest, happroved, happlied, hlabel, hawaits⟩ := hr
    rw [happrovals] at hrow hnewest
    rw [hpresent] at hlabel
    rw [hstate] at hawaits
    unfold Owed
    rw [hinflight, hevents, hreplaying]
    rcases hflight with hsame | hconf
    · rw [hsame]
      rcases howed id r ⟨hrow, hnewest, happroved, happlied, hlabel, hawaits⟩
        with hf | ⟨x, hx, hxc, hxr⟩ | hr
      · exact Or.inl hf
      · exact Or.inr (Or.inl ⟨x, List.mem_append_left _ hx, hxc, hxr⟩)
      · exact Or.inr (Or.inr hr)
    · exact Or.inr (Or.inl ⟨e, List.mem_append_right _ (List.mem_singleton.mpr rfl), hconf,
        hunprocessed⟩)
  · rw [happrovals, hadmitted]
    exact h.admitted.imp_left (hit_apply op)

/-- A thread is gone; whoever had deliveries to replay is recorded. -/
theorem LabelInv.leave {cfg : Settings} {s : Store} (h : LabelInv cfg s) (o : Owner) :
    LabelInv cfg ((Op.leave o).apply s) where
  columns := fun id r hr => (h.columns id r hr).apply _
  added := Nat.le_succ_of_le h.added
  processed := fun e he t ht => Nat.lt_succ_of_lt (h.processed e he t ht)
  emitted := h.emitted
  replaying := by
    refine h.replaying.imp (hit_apply _) (fun hr x hx => hr x ?_)
    exact (List.mem_filter.mp hx).1
  owed := by
    by_cases hlost : s.history.replaying.any (fun x => decide (x.1 = o)) = true
    · refine Or.inl ⟨.replayLost, by decide, ?_⟩
      rw [apply_incident]
      simp [Op.incident, hlost]
    · refine h.owed.imp (hit_apply _) (fun howed id r hr => ?_)
      rcases howed id r ⟨hr.row, hr.newest, hr.approved, hr.applied, hr.present, hr.awaits⟩
        with hf | he | ⟨o', ho'⟩
      · exact Or.inl hf
      · exact Or.inr (Or.inl he)
      · refine Or.inr (Or.inr ⟨o', List.mem_filter.mpr ⟨ho', decide_eq_true ?_⟩⟩)
        rintro rfl
        exact hlost (List.any_eq_true.mpr ⟨_, ho', decide_eq_true rfl⟩)
  admitted := h.admitted.imp_left (hit_apply _)

theorem LabelInv.heartbeat {cfg : Settings} {s : Store} (h : LabelInv cfg s) (o : Owner) (n : Nat) :
    LabelInv cfg ((Op.heartbeat o n).apply s) := by
  have hback : ∀ e' ∈ ((Op.heartbeat o n).apply s).events, ∃ e ∈ s.events,
      e'.processedAt = e.processedAt := by
    intro e' he'
    obtain ⟨e, he, rfl⟩ := List.mem_map.mp he'
    refine ⟨e, he, ?_⟩
    split
    · rfl
    · rfl
  have hforth : ∀ e ∈ s.events, ∃ e' ∈ ((Op.heartbeat o n).apply s).events,
      e'.confirming cfg = e.confirming cfg ∧ e'.status = e.status ∧
        e'.processedAt = e.processedAt := by
    intro e he
    refine ⟨_, List.mem_map_of_mem he, ?_⟩
    split
    · exact ⟨rfl, rfl, rfl⟩
    · exact ⟨rfl, rfl, rfl⟩
  constructor
  · exact fun id r hr => (h.columns id r hr).apply _
  · exact Nat.le_succ_of_le h.added
  · intro e' he' t ht
    obtain ⟨e, he, heq⟩ := hback e' he'
    exact Nat.lt_succ_of_lt (h.processed e he t (heq ▸ ht))
  · intro hp
    refine (h.emitted hp).imp_right ?_
    rintro ⟨e, he, hconf, hrecent⟩
    obtain ⟨e', he', hc, hst, hpr⟩ := hforth e he
    refine ⟨e', he', hc ▸ hconf, ?_⟩
    unfold WebhookEvent.recent at hrecent ⊢
    rw [hst, hpr]
    exact hrecent
  · exact h.replaying.imp_left (hit_apply _)
  · refine h.owed.imp (hit_apply _) (fun howed id r hr => ?_)
    have hawaits := hr.awaits
    rw [heartbeat_state] at hawaits
    rcases howed id r ⟨hr.row, hr.newest, hr.approved, hr.applied, hr.present, hawaits⟩
      with hf | ⟨e, he, hconf, hst⟩ | hrep
    · exact Or.inl hf
    · obtain ⟨e', he', hc, hst', -⟩ := hforth e he
      exact Or.inr (Or.inl ⟨e', he', hc ▸ hconf, hst' ▸ hst⟩)
    · exact Or.inr (Or.inr hrep)
  · exact h.admitted.imp_left (hit_apply _)

/-- What happens without a transaction keeps the invariant. -/
theorem LabelInv.elsewhere {cfg : Settings} {s : Store} (h : LabelInv cfg s) {op : Op}
    (hop : op.elsewhere = true) (henv : ∀ e, op = .receive e ∨ op = .deliver e →
      environment cfg s op = true) : LabelInv cfg (op.apply s) := by
  cases op with
  | commit o t => cases hop
  | setLabel on => exact h.setLabel on
  | leave o => exact h.leave o
  | heartbeat o n => exact h.heartbeat o n
  | receive e => exact h.arrive (henv e (Or.inl rfl)) rfl (Or.inl rfl)
  | deliver e =>
      have hdeliver := henv e (Or.inr rfl)
      simp only [environment, Bool.and_eq_true] at hdeliver
      obtain ⟨⟨⟨hfresh, hlabel⟩, hcarries⟩, -⟩ := hdeliver
      exact h.arrive hfresh rfl (Or.inr (by simp [WebhookEvent.confirming, hlabel, hcarries]))
  | _ => exact h.frame _ rfl rfl rfl rfl rfl rfl rfl

/-! ## Transactions -/

section Commit

variable {cfg : Settings} {o : Owner} {t : Txn} {s : Store}

@[simp] theorem commit_label : ((Op.commit o t).apply s).label = s.label := rfl

@[simp] theorem commit_events : ((Op.commit o t).apply s).events =
    flush WebhookEvent.merge t.eventWrites s.events := rfl

@[simp] theorem commit_replaying : ((Op.commit o t).apply s).history.replaying =
    t.replaying o s.history.replaying := rfl

@[simp] theorem commit_admitted : ((Op.commit o t).apply s).history.admitted =
    if t.approves then s.history.admitted ++ t.confirmed s else s.history.admitted := rfl

/-- An incident of the transaction has happened afterwards. -/
theorem hit_commit {ks : List Incident} {k : Incident} (hk : k ∈ ks)
    (h : t.incident o s k = true) : ((Op.commit o t).apply s).hit ks := by
  refine ⟨k, hk, ?_⟩
  rw [apply_incident]
  simp [Op.incident, h]

/-- What a transaction may make of a delivery. -/
structure EventStep (s : Store) (e e' : WebhookEvent) : Prop where
  label : e'.remediationLabel = e.remediationLabel
  issueLabels : e'.issueLabels = e.issueLabels
  processedAt : e'.processedAt = e.processedAt ∨ e'.processedAt = some s.now
  recent : e.remediationLabel = true → e.recent s.label.addedAt → e'.recent s.label.addedAt

theorem EventStep.confirming {e e' : WebhookEvent} (h : EventStep s e e') :
    e'.confirming cfg = e.confirming cfg := by
  unfold WebhookEvent.confirming WebhookEvent.carriesLabel
  rw [h.label, h.issueLabels]

/-- What the invariant asks of a transaction. -/
structure LabelTxn (cfg : Settings) (o : Owner) (t : Txn) (s : Store) : Prop where
  fresh : ∀ r ∈ t.newApprovals,
    r.decision = .pending ∧ r.deliveryStatus = .notRequested ∧ r.labelRequestedAt = none
  columns : ∀ (id : Nat) (r' : ApprovalRequest),
    (flush ApprovalRequest.merge t.approvalWrites s.approvals)[id]? = some r' →
    ∃ r, s.approvals[id]? = some r ∧
      (r.Columns ((Op.commit o t).apply s) → r'.Columns ((Op.commit o t).apply s))
  confirmed : t.approves = true ∨ ∀ (id : Nat) (r' : ApprovalRequest),
    (flush ApprovalRequest.merge t.approvalWrites s.approvals)[id]? = some r' →
    r'.deliveryStatus = .confirmed → ((Op.commit o t).apply s).hit lossOfConfirmation ∨
      ∃ r, s.approvals[id]? = some r ∧ r.deliveryStatus = .confirmed
  events : ∀ (i : Nat) (e' : WebhookEvent),
    (flush WebhookEvent.merge t.eventWrites s.events)[i]? = some e' →
    ∃ e, s.events[i]? = some e ∧ EventStep s e e'
  owed : ¬ ((Op.commit o t).apply s).hit wedgeIncidents → ∀ id r,
    Labelled ((Op.commit o t).apply s) id r → Owed cfg ((Op.commit o t).apply s) id

/-- A delivery before the transaction, and what the transaction made of it. -/
theorem LabelTxn.event (h : LabelTxn cfg o t s) {e : WebhookEvent} (he : e ∈ s.events) :
    ∃ e' ∈ ((Op.commit o t).apply s).events, EventStep s e e' := by
  obtain ⟨i, hi, heq⟩ := List.getElem_of_mem he
  have hlt : i < (flush WebhookEvent.merge t.eventWrites s.events).length := by
    rw [flush_length]
    exact hi
  obtain ⟨e₀, he₀, hstep⟩ := h.events i _ (List.getElem?_eq_getElem hlt)
  rw [List.getElem?_eq_getElem hi, heq] at he₀
  cases he₀
  exact ⟨_, List.getElem_mem hlt, hstep⟩

/-- The rounds that a transaction confirms are admitted, if it moves the case. -/
theorem mem_admitted (happroves : t.approves = true) {id : Nat} {r' : ApprovalRequest}
    (hr' : (t.applyApprovals s.approvals)[id]? = some r') (hc : r'.deliveryStatus = .confirmed)
    (hbefore : ∀ r, s.approvals[id]? = some r → r.deliveryStatus = .confirmed →
      id ∈ s.history.admitted) : id ∈ ((Op.commit o t).apply s).history.admitted := by
  rw [commit_admitted, if_pos happroves]
  by_cases hold : (s.approvals[id]?).map (·.deliveryStatus) = some .confirmed
  · obtain ⟨r, hr, hd⟩ := Option.map_eq_some_iff.mp hold
    exact List.mem_append_left _ (hbefore r hr hd)
  · refine List.mem_append_right _ (List.mem_filter.mpr ⟨?_, ?_⟩)
    · exact List.mem_range.mpr (List.getElem?_eq_some_iff.mp hr').1
    · simp [hr', hc, hold]

theorem LabelInv.commit (h : LabelInv cfg s) (ht : LabelTxn cfg o t s) :
    LabelInv cfg ((Op.commit o t).apply s) := by
  have hget : ∀ (id : Nat) (r' : ApprovalRequest),
      ((Op.commit o t).apply s).approvals[id]? = some r' →
      (flush ApprovalRequest.merge t.approvalWrites s.approvals)[id]? = some r' ∨
        r' ∈ t.newApprovals := by
    intro id r' hr'
    rw [commit_approvals, List.getElem?_append] at hr'
    split at hr'
    · exact Or.inl hr'
    · exact Or.inr (List.mem_of_getElem? hr')
  constructor
  · intro id r' hr'
    rcases hget id r' hr' with hrow | hnew
    · obtain ⟨r, hr, hcol⟩ := ht.columns id r' hrow
      exact hcol ((h.columns id r hr).apply _)
    · obtain ⟨-, hst, hreq⟩ := ht.fresh r' hnew
      refine ⟨fun hc => ?_, fun hc => ?_, Or.inr (fun τ hτ => ?_)⟩
      · rw [hst] at hc
        cases hc
      · rw [hst] at hc
        cases hc
      · rw [hreq] at hτ
        cases hτ
  · exact Nat.le_succ_of_le h.added
  · intro e' he' x hx
    obtain ⟨i, hi⟩ := List.getElem?_of_mem he'
    obtain ⟨e, he, hstep⟩ := ht.events i e' hi
    show x < s.now + 1
    rcases hstep.processedAt with hp | hp
    · exact Nat.lt_succ_of_lt (h.processed e (List.mem_of_getElem? he) x (hp ▸ hx))
    · rw [hp] at hx
      cases hx
      exact Nat.lt_succ_self _
  · intro hp
    refine (h.emitted hp).imp_right ?_
    rintro ⟨e, he, hconf, hrecent⟩
    obtain ⟨e', he', hstep⟩ := ht.event he
    have hlabel : e.remediationLabel = true := (Bool.and_eq_true _ _ ▸ hconf).1
    exact ⟨e', he', hstep.confirming.trans hconf, hstep.recent hlabel hrecent⟩
  · -- a row that is settled before its deliveries are replayed is recorded
    by_cases hlost : t.incident o s .replayLost = true
    · exact Or.inl (hit_commit (by decide) hlost)
    · refine h.replaying.imp (hit_apply _) (fun hr x hx => ?_)
      by_contra hsettled
      have hsettled := Bool.not_eq_false _ ▸ hsettled
      refine hlost (List.any_eq_true.mpr ⟨x, hx, ?_⟩)
      have hsettled : labelSettled (t.applyOutbox s.outbox) x.2 = true := hsettled
      rw [hsettled, Bool.true_and, Bool.not_eq_true', Bool.and_eq_false_iff]
      by_cases hmem : x ∈ s.history.replaying
      · exact Or.inr (hr x hmem)
      · exact Or.inl (by simpa using hmem)
  · by_cases hhit : ((Op.commit o t).apply s).hit wedgeIncidents
    · exact Or.inl hhit
    · exact Or.inr (ht.owed hhit)
  · refine h.admitted.elim (fun hhit => Or.inl (hit_apply _ hhit)) (fun hadm => ?_)
    by_cases hhit : ((Op.commit o t).apply s).hit lossOfConfirmation
    · exact Or.inl hhit
    refine Or.inr (fun id r' hr' hc => ?_)
    rcases ht.confirmed with happroves | hrows
    · exact mem_admitted happroves hr' hc (fun r hr hd => hadm id r hr hd)
    · rcases hget id r' hr' with hrow | hnew
      · obtain ⟨r, hr, hd⟩ := (hrows id r' hrow hc).resolve_left hhit
        rw [commit_admitted]
        split
        · exact List.mem_append_left _ (hadm id r hr hd)
        · exact hadm id r hr hd
      · rw [(ht.fresh r' hnew).2.1] at hc
        cases hc

/-! ## Plain transactions -/

/-- What a plain transaction may make of a round; `s'` is the store after it. -/
structure RowStep (s' : Store) (id : Nat) (r r' : ApprovalRequest) : Prop where
  columns : r.Columns s' → r'.Columns s'
  labelled : r'.decision = .approved → r'.deliveryStatus = .labelApplied →
    (r.decision = .approved ∧ r.deliveryStatus = .labelApplied) ∨
      ∃ o, (o, id) ∈ s'.history.replaying
  confirmed : r'.deliveryStatus = .confirmed →
    s'.hit lossOfConfirmation ∨ r.deliveryStatus = .confirmed

theorem RowStep.refl (s' : Store) (id : Nat) (r : ApprovalRequest) : RowStep s' id r r :=
  ⟨fun h => h, fun hd ha => Or.inl ⟨hd, ha⟩, Or.inr⟩

theorem RowStep.trans {s' : Store} {id : Nat} {r r' r'' : ApprovalRequest}
    (h : RowStep s' id r r') (h' : RowStep s' id r' r'') : RowStep s' id r r'' where
  columns := fun hc => h'.columns (h.columns hc)
  labelled := fun hd ha => (h'.labelled hd ha).elim (fun hx => h.labelled hx.1 hx.2) Or.inr
  confirmed := fun hc => (h'.confirmed hc).elim Or.inl h.confirmed

/-- A transaction that neither confirms nor serves a delivery. -/
structure Txn.Plain (o : Owner) (t : Txn) (s : Store) : Prop where
  fresh : ∀ r ∈ t.newApprovals,
    r.decision = .pending ∧ r.deliveryStatus = .notRequested ∧ r.labelRequestedAt = none
  rounds : ∀ (id : Nat) (r' : ApprovalRequest),
    (flush ApprovalRequest.merge t.approvalWrites s.approvals)[id]? = some r' →
    ∃ r, s.approvals[id]? = some r ∧ RowStep ((Op.commit o t).apply s) id r r'
  events : ∀ (i : Nat) (e' : WebhookEvent),
    (flush WebhookEvent.merge t.eventWrites s.events)[i]? = some e' →
    ∃ e, s.events[i]? = some e ∧ EventStep s e e' ∧
      (e.remediationLabel = true → e.status ≠ .processed → e'.status ≠ .processed)
  moves : ∀ m ∈ t.moves, m.dst = .approvalDeliveryFailed → s.case.state.awaitsLabel = true
  replays : t.replays = none

/-- A move makes the case wait for a label again only with a new round, or it is recorded. -/
theorem awaits_before (hmoves : ∀ m ∈ t.moves, m.dst = .approvalDeliveryFailed →
      s.case.state.awaitsLabel = true) (hreopen : t.incident o s .reopened = false)
    (hnew : t.newApprovals = [])
    (h : (movesEnd t.moves s.case.state).awaitsLabel = true) : s.case.state.awaitsLabel = true := by
  rcases List.eq_nil_or_concat' t.moves with hnil | ⟨ms, m, hms⟩
  · rw [hnil] at h
    exact h
  · have hend : movesEnd t.moves s.case.state = m.dst := by
      unfold movesEnd
      rw [hms, List.foldl_append]
      rfl
    have hmem : m ∈ t.moves := by
      rw [hms]
      exact List.mem_append_right _ (List.mem_singleton.mpr rfl)
    rw [hend] at h
    simp only [CaseState.awaitsLabel, Bool.or_eq_true, decide_eq_true_eq] at h
    rcases h with hdst | hdst
    · exfalso
      have hany : t.moves.any (fun m => decide (m.dst = .awaitingRemediationApproval)) = true :=
        List.any_eq_true.mpr ⟨m, hmem, decide_eq_true hdst⟩
      simp [Txn.incident, hnew, hany] at hreopen
    · exact hmoves m hmem hdst

/-- A labelled round after the transaction was labelled before it, or was labelled by it. -/
theorem Txn.Plain.labelled (h : t.Plain o s)
    (hclean : ¬ ((Op.commit o t).apply s).hit wedgeIncidents) {id : Nat} {r' : ApprovalRequest}
    (hr' : Labelled ((Op.commit o t).apply s) id r') :
    (∃ r, Labelled s id r) ∨ ∃ o', (o', id) ∈ ((Op.commit o t).apply s).history.replaying := by
  obtain ⟨-, hno⟩ := not_hit_apply hclean
  have hreopen : t.incident o s .reopened = false := hno .reopened (by decide)
  have hrow := hr'.row
  have hnewest := hr'.newest
  rw [commit_approvals] at hrow hnewest
  rcases List.eq_nil_or_concat' t.newApprovals with hnew | ⟨rs, q, hnew⟩
  · rw [hnew, List.append_nil] at hrow hnewest
    rw [flush_length] at hnewest
    obtain ⟨r, hr, hstep⟩ := h.rounds id r' hrow
    refine (hstep.labelled hr'.approved hr'.applied).imp_left (fun hx => ?_)
    exact ⟨r, hr, hnewest, hx.1, hx.2, hr'.present,
      awaits_before h.moves hreopen hnew hr'.awaits⟩
  · -- the newest round is a new one, and it is not decided
    exfalso
    have hlast : r' = q := by
      rw [hnew, ← List.append_assoc] at hrow hnewest
      rw [List.length_append, List.length_singleton, Nat.add_right_cancel_iff] at hnewest
      rw [hnewest, List.getElem?_append_right (Nat.le_refl _), Nat.sub_self] at hrow
      exact (Option.some.inj hrow).symm
    have hmem : q ∈ t.newApprovals := by
      rw [hnew]
      exact List.mem_append_right _ (List.mem_singleton.mpr rfl)
    have happroved := hr'.approved
    rw [hlast, (h.fresh q hmem).1] at happroved
    cases happroved

theorem Txn.Plain.labelTxn (h : t.Plain o s) (hinv : LabelInv cfg s) : LabelTxn cfg o t s where
  fresh := h.fresh
  columns := by
    intro id r' hr'
    obtain ⟨r, hr, hstep⟩ := h.rounds id r' hr'
    exact ⟨r, hr, hstep.columns⟩
  confirmed := by
    refine Or.inr (fun id r' hr' hc => ?_)
    obtain ⟨r, hr, hstep⟩ := h.rounds id r' hr'
    exact (hstep.confirmed hc).imp_right (fun hd => ⟨r, hr, hd⟩)
  events := by
    intro i e' he'
    obtain ⟨e, he, hstep, -⟩ := h.events i e' he'
    exact ⟨e, he, hstep⟩
  owed := by
    intro hclean id r' hr'
    rcases h.labelled hclean hr' with ⟨r, hr⟩ | hrep
    · have hbefore := hinv.owed.resolve_left (not_hit_apply hclean).1 id r hr
      rcases hbefore with hflight | ⟨e, he, hconf, hst⟩ | ⟨o', ho'⟩
      · exact Or.inl hflight
      · obtain ⟨i, hi, heq⟩ := List.getElem_of_mem he
        have hlt : i < (flush WebhookEvent.merge t.eventWrites s.events).length := by
          rw [flush_length]
          exact hi
        obtain ⟨e₀, he₀, hstep, hkept⟩ := h.events i _ (List.getElem?_eq_getElem hlt)
        rw [List.getElem?_eq_getElem hi, heq] at he₀
        cases he₀
        have hlabel : e.remediationLabel = true := (Bool.and_eq_true _ _ ▸ hconf).1
        exact Or.inr (Or.inl ⟨_, List.getElem_mem hlt, hstep.confirming.trans hconf,
          hkept hlabel hst⟩)
      · refine Or.inr (Or.inr ⟨o', List.mem_append_left _ (List.mem_filter.mpr ⟨ho', ?_⟩)⟩)
        simp [h.replays]
    · exact Or.inr (Or.inr hrep)

end Commit

end Remediator
