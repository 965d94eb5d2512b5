import Remediator.Rounds.Labels

set_option autoImplicit false

/-! # Jobs that serve no delivery

All jobs but two keep what is owed to a labelled round by every single one of their actions. The
two that are left are the dispatcher of the label and the processing of a `labeled` delivery.
-/

namespace Remediator

open Interleave

/-! ## Rounds that are written -/

section Writes

variable {o : Owner} {t : Txn} {s : Store}

/-- The write keeps the label columns and approves nothing; it may carry a confirmation that was
recorded as lost. -/
structure Write.Carried (s : Store) (w : Write ApprovalRequest) : Prop where
  requested : w.changed.labelRequestedAt = w.loaded.labelRequestedAt
  applied : w.changed.labelAppliedAt = w.loaded.labelAppliedAt
  status : w.changed.deliveryStatus = w.loaded.deliveryStatus ∨
    (w.changed.deliveryStatus = .confirmed ∧ s.hit lossOfConfirmation)
  decision : w.changed.decision = w.loaded.decision ∨ w.changed.decision ≠ .approved

theorem Write.Carried.rowStep {w : Write ApprovalRequest} {s' : Store} (h : w.Carried s') (id : Nat)
    (x : ApprovalRequest) : RowStep s' id x (ApprovalRequest.merge w.loaded w.changed x) := by
  have hreq : (ApprovalRequest.merge w.loaded w.changed x).labelRequestedAt = x.labelRequestedAt := by
    show pick w.loaded.labelRequestedAt w.changed.labelRequestedAt x.labelRequestedAt = _
    rw [h.requested, pick_self]
  have happ : (ApprovalRequest.merge w.loaded w.changed x).labelAppliedAt = x.labelAppliedAt := by
    show pick w.loaded.labelAppliedAt w.changed.labelAppliedAt x.labelAppliedAt = _
    rw [h.applied, pick_self]
  have hst : (ApprovalRequest.merge w.loaded w.changed x).deliveryStatus = x.deliveryStatus ∨
      ((ApprovalRequest.merge w.loaded w.changed x).deliveryStatus = .confirmed ∧
        s'.hit lossOfConfirmation) := by
    have hpick : (ApprovalRequest.merge w.loaded w.changed x).deliveryStatus =
        pick w.loaded.deliveryStatus w.changed.deliveryStatus x.deliveryStatus := rfl
    rw [hpick]
    rcases h.status with hsame | ⟨hconf, hhit⟩
    · rw [hsame, pick_self]
      exact Or.inl rfl
    · rcases pick_eq_or w.loaded.deliveryStatus w.changed.deliveryStatus x.deliveryStatus
        with heq | ⟨heq, -⟩
      · exact Or.inl heq
      · exact Or.inr ⟨heq.trans hconf, hhit⟩
  have hdec : (ApprovalRequest.merge w.loaded w.changed x).decision = .approved →
      x.decision = .approved := by
    intro hd
    have hd : pick w.loaded.decision w.changed.decision x.decision = .approved := hd
    rcases pick_eq_or w.loaded.decision w.changed.decision x.decision with heq | ⟨heq, hne⟩
    · rw [← heq, hd]
    · rw [heq] at hd
      rcases h.decision with hsame | hother
      · exact absurd hsame.symm hne
      · exact absurd hd hother
  rcases hst with hsame | ⟨hconf, hhit⟩
  · refine ⟨fun hc => ⟨?_, ?_, ?_⟩, fun hd ha => Or.inl ⟨hdec hd, hsame ▸ ha⟩,
      fun hc => Or.inr (hsame ▸ hc)⟩
    · rw [hsame, happ]
      exact hc.applied
    · rw [hsame, happ]
      exact hc.failed
    · rw [hreq]
      exact hc.requested
  · refine ⟨fun hc => ⟨fun h => ?_, fun h => ?_, ?_⟩, fun _ ha => ?_, fun _ => Or.inl hhit⟩
    · rw [hconf] at h
      cases h
    · rw [hconf] at h
      cases h
    · rw [hreq]
      exact hc.requested
    · rw [hconf] at ha
      cases ha

/-- A write that carries no confirmation. -/
structure Write.Quiet (w : Write ApprovalRequest) : Prop where
  requested : w.changed.labelRequestedAt = w.loaded.labelRequestedAt
  applied : w.changed.labelAppliedAt = w.loaded.labelAppliedAt
  status : w.changed.deliveryStatus = w.loaded.deliveryStatus
  decision : w.changed.decision = w.loaded.decision ∨ w.changed.decision ≠ .approved

theorem Write.Quiet.carried {w : Write ApprovalRequest} (h : w.Quiet) (s : Store) : w.Carried s :=
  ⟨h.requested, h.applied, Or.inl h.status, h.decision⟩

theorem Write.Carried.apply {w : Write ApprovalRequest} (h : w.Carried s) (op : Op) :
    w.Carried (op.apply s) :=
  ⟨h.requested, h.applied, h.status.imp_right (fun hc => ⟨hc.1, hit_apply op hc.2⟩), h.decision⟩

/-- Writes that are good for whatever the row is by then. -/
theorem rounds_of_writes (h : ∀ w ∈ t.approvalWrites, ∀ x : ApprovalRequest,
      RowStep ((Op.commit o t).apply s) w.id x (ApprovalRequest.merge w.loaded w.changed x)) :
    ∀ (id : Nat) (r' : ApprovalRequest),
      (flush ApprovalRequest.merge t.approvalWrites s.approvals)[id]? = some r' →
      ∃ r, s.approvals[id]? = some r ∧ RowStep ((Op.commit o t).apply s) id r r' := by
  intro id r' hr'
  refine flush_rel_of_get ApprovalRequest.merge (R := RowStep ((Op.commit o t).apply s) id)
    (fun _ => .refl _ _ _) (fun _ _ _ h h' => h.trans h') (fun w hw hid x => ?_) hr'
  rw [← hid]
  exact h w hw x

theorem rounds_of_carried (h : ∀ w ∈ t.approvalWrites, w.Carried s) :
    ∀ (id : Nat) (r' : ApprovalRequest),
      (flush ApprovalRequest.merge t.approvalWrites s.approvals)[id]? = some r' →
      ∃ r, s.approvals[id]? = some r ∧ RowStep ((Op.commit o t).apply s) id r r' :=
  rounds_of_writes (fun w hw x => ((h w hw).apply _).rowStep _ x)

/-- A round that is written as it was read. -/
theorem RowStep.merge {s' : Store} {id : Nat} {r r' : ApprovalRequest} (h : RowStep s' id r r') :
    RowStep s' id r (ApprovalRequest.merge r r' r) := by
  have hreq : (ApprovalRequest.merge r r' r).labelRequestedAt = r'.labelRequestedAt := pick_row _ _
  have happ : (ApprovalRequest.merge r r' r).labelAppliedAt = r'.labelAppliedAt := pick_row _ _
  have hst : (ApprovalRequest.merge r r' r).deliveryStatus = r'.deliveryStatus := pick_row _ _
  have hd : (ApprovalRequest.merge r r' r).decision = r'.decision := pick_row _ _
  refine ⟨fun hc => ?_, ?_, ?_⟩
  · obtain ⟨h₁, h₂, h₃⟩ := h.columns hc
    refine ⟨?_, ?_, ?_⟩
    · rw [hst, happ]
      exact h₁
    · rw [hst, happ]
      exact h₂
    · rw [hreq]
      exact h₃
  · rw [hd, hst]
    exact h.labelled
  · rw [hst]
    exact h.confirmed

theorem rounds_of_single {id : Nat} {r r' : ApprovalRequest}
    (hwrites : t.approvalWrites = [⟨id, r, r'⟩]) (hr : s.approvals[id]? = some r)
    (hstep : RowStep ((Op.commit o t).apply s) id r r') :
    ∀ (i : Nat) (q' : ApprovalRequest),
      (flush ApprovalRequest.merge t.approvalWrites s.approvals)[i]? = some q' →
      ∃ q, s.approvals[i]? = some q ∧ RowStep ((Op.commit o t).apply s) i q q' := by
  intro i q' hq'
  rw [hwrites, flush_single _ hr, List.getElem?_set] at hq'
  split at hq'
  · next hi =>
      split at hq'
      · cases hq'
        subst hi
        exact ⟨r, hr, hstep.merge⟩
      · cases hq'
  · exact ⟨q', hq', .refl _ _ _⟩

/-- The delivery starts over. -/
theorem RowStep.reset {s' : Store} {id : Nat} {r r' : ApprovalRequest}
    (hreq : r'.labelRequestedAt = r.labelRequestedAt)
    (hst : r'.deliveryStatus = .pending ∨ r'.deliveryStatus = .notRequested) :
    RowStep s' id r r' := by
  have hne : ∀ st : DeliveryStatus, st ≠ .pending → st ≠ .notRequested → r'.deliveryStatus ≠ st := by
    intro st hp hn heq
    rcases hst with h | h
    · exact hp (heq.symm.trans h)
    · exact hn (heq.symm.trans h)
  refine ⟨fun hc => ⟨fun h => ?_, fun h => ?_, ?_⟩, fun _ h => ?_, fun h => ?_⟩
  · exact absurd h (hne _ DeliveryStatus.noConfusion DeliveryStatus.noConfusion)
  · exact absurd h (hne _ DeliveryStatus.noConfusion DeliveryStatus.noConfusion)
  · rw [hreq]
    exact hc.requested
  · exact absurd h (hne _ DeliveryStatus.noConfusion DeliveryStatus.noConfusion)
  · exact absurd h (hne _ DeliveryStatus.noConfusion DeliveryStatus.noConfusion)

/-- The delivery is given up before the label was applied. -/
theorem RowStep.failed {s' : Store} {id : Nat} {r r' : ApprovalRequest}
    (hreq : r'.labelRequestedAt = r.labelRequestedAt) (happ : r'.labelAppliedAt = none)
    (hst : r'.deliveryStatus = .failed) : RowStep s' id r r' := by
  refine ⟨fun hc => ⟨fun h => ?_, fun _ => happ, ?_⟩, fun _ h => ?_, fun h => ?_⟩
  · rw [hst] at h
    cases h
  · rw [hreq]
    exact hc.requested
  · rw [hst] at h
    cases h
  · rw [hst] at h
    cases h

/-! ## Deliveries that are written -/

/-- A write of a delivery that does not process a `labeled` one. -/
inductive Write.Open (s : Store) (w : Write WebhookEvent) : Prop
  | quiet : w.changed.status = w.loaded.status → w.changed.processedAt = w.loaded.processedAt →
      Write.Open s w
  | left : w.changed.status ≠ .processed →
      (w.changed.status ≠ w.loaded.status ∨ s.events[w.id]? = some w.loaded) →
      (w.changed.processedAt = w.loaded.processedAt ∨ w.changed.processedAt = some s.now) →
      Write.Open s w
  | unlabelled {row : WebhookEvent} : s.events[w.id]? = some row → row.remediationLabel = false →
      (w.changed.processedAt = w.loaded.processedAt ∨ w.changed.processedAt = some s.now) →
      Write.Open s w

theorem pick_processedAt {s : Store} {w : Write WebhookEvent}
    (h : w.changed.processedAt = w.loaded.processedAt ∨ w.changed.processedAt = some s.now)
    (x : Option Nat) : pick w.loaded.processedAt w.changed.processedAt x = x ∨
      pick w.loaded.processedAt w.changed.processedAt x = some s.now := by
  rcases h with h | h
  · rw [h, pick_self]
    exact Or.inl rfl
  · rcases pick_eq_or w.loaded.processedAt w.changed.processedAt x with heq | ⟨heq, -⟩
    · exact Or.inl heq
    · exact Or.inr (heq.trans h)

theorem Write.Open.step {w : Write WebhookEvent} (h : w.Open s) {x : WebhookEvent}
    (hx : s.events[w.id]? = some x) :
    EventStep s x (WebhookEvent.merge w.loaded w.changed x) ∧
      (x.remediationLabel = true → x.status ≠ .processed →
        (WebhookEvent.merge w.loaded w.changed x).status ≠ .processed) := by
  have hst : (WebhookEvent.merge w.loaded w.changed x).status =
      pick w.loaded.status w.changed.status x.status := rfl
  have hpr : (WebhookEvent.merge w.loaded w.changed x).processedAt =
      pick w.loaded.processedAt w.changed.processedAt x.processedAt := rfl
  cases h with
  | quiet hstatus hprocessed =>
      rw [hstatus, pick_self] at hst
      rw [hprocessed, pick_self] at hpr
      refine ⟨⟨rfl, rfl, Or.inl hpr, fun _ hrecent => ?_⟩, fun _ hne => hst ▸ hne⟩
      unfold WebhookEvent.recent at hrecent ⊢
      rw [hst, hpr]
      exact hrecent
  | left hstatus hdiffers hprocessed =>
      have hopen : (WebhookEvent.merge w.loaded w.changed x).status ≠ .processed := by
        rw [hst]
        rcases pick_eq_or w.loaded.status w.changed.status x.status with heq | ⟨heq, -⟩
        · by_cases hsame : w.changed.status = w.loaded.status
          · have hrow := hdiffers.resolve_left (fun h => h hsame)
            rw [hx] at hrow
            cases hrow
            rw [heq, ← hsame]
            exact hstatus
          · have hpick : pick w.loaded.status w.changed.status x.status = w.changed.status := by
              unfold pick
              rw [if_neg (Ne.symm hsame)]
            rw [hpick]
            exact hstatus
        · rw [heq]
          exact hstatus
      exact ⟨⟨rfl, rfl, pick_processedAt hprocessed x.processedAt, fun _ _ => Or.inl hopen⟩,
        fun _ _ => hopen⟩
  | unlabelled hrow hlabel hprocessed =>
      rw [hx] at hrow
      cases hrow
      refine ⟨⟨rfl, rfl, pick_processedAt hprocessed x.processedAt, fun h => ?_⟩, fun h => ?_⟩
      · rw [hlabel] at h
        cases h
      · rw [hlabel] at h
        cases h

theorem EventStep.refl (s : Store) (e : WebhookEvent) : EventStep s e e :=
  ⟨rfl, rfl, Or.inl rfl, fun _ h => h⟩

theorem events_of_open
    (h : t.eventWrites = [] ∨ ∃ w, t.eventWrites = [w] ∧ w.Open s) :
    ∀ (i : Nat) (e' : WebhookEvent),
      (flush WebhookEvent.merge t.eventWrites s.events)[i]? = some e' →
      ∃ e, s.events[i]? = some e ∧ EventStep s e e' ∧
        (e.remediationLabel = true → e.status ≠ .processed → e'.status ≠ .processed) := by
  intro i e' he'
  rcases h with hnil | ⟨w, hw, hopen⟩
  · rw [hnil, flush_nil] at he'
    exact ⟨e', he', .refl s e', fun _ h => h⟩
  · rw [hw, flush_cons, flush_nil, List.getElem?_modify] at he'
    obtain ⟨e, he, heq⟩ := Option.map_eq_some_iff.mp he'
    refine ⟨e, he, ?_⟩
    split at heq
    · next hi =>
        subst hi heq
        exact hopen.step he
    · subst heq
      exact ⟨.refl s e, fun _ h => h⟩

/-! ## Plain transactions, by what they write -/

/-- Rounds are kept in their label columns, and deliveries are not processed. -/
theorem plain_of_carried (hnew : t.newApprovals = [])
    (hwrites : ∀ w ∈ t.approvalWrites, w.Carried s)
    (hevents : t.eventWrites = [] ∨ ∃ w, t.eventWrites = [w] ∧ w.Open s)
    (hmoves : ∀ m ∈ t.moves, m.dst = .approvalDeliveryFailed → s.case.state.awaitsLabel = true)
    (hreplays : t.replays = none) : t.Plain o s where
  fresh := by
    rw [hnew]
    exact List.forall_mem_nil _
  rounds := rounds_of_carried hwrites
  events := events_of_open hevents
  moves := hmoves
  replays := hreplays

theorem Txn.Calm.plain (h : t.Calm) : t.Plain o s := by
  refine plain_of_carried h.newApprovals ?_ (Or.inl h.eventWrites) (fun m hm hdst => ?_) h.replays
  · rw [h.approvalWrites]
    exact List.forall_mem_nil _
  · have hcalm := h.moves m hm
    simp [Move.calm, CaseState.calm, CaseState.awaitsLabel, hdst] at hcalm

end Writes

/-! ## Plain programs -/

/-- No transaction and no arrival of a delivery. -/
def Op.internal : Op → Bool
  | .commit _ _ | .receive _ | .deliver _ => false
  | _ => true

inductive PlainOp (s : Store) : Op → Prop
  | internal {op : Op} : op.internal = true → PlainOp s op
  | commit {o : Owner} {t : Txn} : t.Plain o s → PlainOp s (.commit o t)

theorem PlainOp.apply {cfg : Settings} {s : Store} {op : Op} (h : PlainOp s op)
    (hinv : LabelInv cfg s) : LabelInv cfg (op.apply s) := by
  cases h with
  | internal hop =>
      refine hinv.elsewhere ?_ (fun e he => ?_)
      · cases op with
        | commit o t => cases hop
        | _ => rfl
      · rcases he with rfl | rfl
        · cases hop
        · cases hop
  | commit ht => exact hinv.commit (ht.labelTxn hinv)

/-- Every action of the program is plain. -/
abbrev Plainly {α : Type} (Q : α → Prop) (p : P α) : Prop :=
  p.Each PlainOp Q (fun _ => True)

section Rules

variable {α β : Type} {Q : α → Prop}

theorem Plainly.tx {o : Owner} {body : Input → Store → Except Err (Txn × α)}
    (h : ∀ i s t a, body i s = .ok (t, a) → t.Plain o s ∧ Q a) :
    Plainly Q (Remediator.tx o body) :=
  each_tx (fun _ => .internal rfl) (fun _ _ _ _ => trivial)
    (fun i s t a hbody _ => ⟨.commit (h i s t a hbody).1, (h i s t a hbody).2⟩)

theorem Calmly.plainly {p : P α} (h : Calmly p) : Plainly (fun _ => True) p := by
  refine Prog.Each.permit h (fun s op hop => ?_)
  cases op with
  | commit o t =>
      simp only [Op.calm, Bool.and_eq_true] at hop
      exact .commit (Txn.Calm.of_calm hop.1).plain
  | receive e => cases hop
  | deliver e => cases hop
  | _ => exact .internal rfl

theorem Plainly.bind {p : P α} {k : α → P β} {R : β → Prop} (hp : Plainly Q p)
    (hk : ∀ a, Q a → Plainly R (k a)) : Plainly R (p >>= k) :=
  Prog.Each.bind hp hk

theorem Plainly.rescue {p : P α} {h : Err → P α} (hp : Plainly Q p)
    (hh : ∀ e, Plainly Q (h e)) : Plainly Q (Remediator.rescue p h) := by
  refine Prog.Each.handle hp (fun e _ => ?_)
  split
  · trivial
  · exact hh e

end Rules

/-- The transaction writes no round and moves the case nowhere. -/
theorem plain_of_events {o : Owner} {t : Txn} {s : Store} (hnew : t.newApprovals = [])
    (hwrites : t.approvalWrites = [])
    (hevents : t.eventWrites = [] ∨ ∃ w, t.eventWrites = [w] ∧ w.Open s) (hmoves : t.moves = [])
    (hreplays : t.replays = none) : t.Plain o s := by
  refine plain_of_carried hnew ?_ hevents ?_ hreplays
  · rw [hwrites]
    exact List.forall_mem_nil _
  · rw [hmoves]
    exact List.forall_mem_nil _

/-! ## Triage -/

theorem createApprovalRequest_plain {cfg : Settings} {attempt : Nat} {raw : Doc} {o : Owner}
    {t : Txn} {s : Store} (hnew : t.newApprovals = []) (hwrites : t.approvalWrites = [])
    (hevents : t.eventWrites = [])
    (hmoves : ∀ m ∈ t.moves, m.dst = .approvalDeliveryFailed → s.case.state.awaitsLabel = true)
    (hreplays : t.replays = none) : (createApprovalRequest cfg attempt raw t s).Plain o s := by
  unfold createApprovalRequest
  split
  · refine plain_of_carried hnew ?_ (Or.inl hevents) hmoves hreplays
    rw [hwrites]
    exact List.forall_mem_nil _
  · refine ⟨fun r hr => ?_, rounds_of_carried (fun w hw => ?_), events_of_open (Or.inl hevents),
      hmoves, hreplays⟩
    · dsimp only at hr
      rw [hnew, List.nil_append] at hr
      rw [List.mem_singleton.mp hr]
      exact ⟨rfl, rfl, rfl⟩
    · dsimp only at hw
      rw [hwrites, List.nil_append] at hw
      obtain ⟨x, -, rfl⟩ := List.mem_map.mp hw
      exact ⟨rfl, rfl, Or.inl rfl, Or.inr ApprovalDecision.noConfusion⟩

section Processor

variable (r : Runner)

theorem finishTriage_plainly (st : CaseState) (out : RunOutcome) :
    Plainly (fun _ => True) (r.finishTriage st out) := by
  unfold Runner.finishTriage
  split
  · refine .tx (fun _ s t x hbody => ⟨?_, trivial⟩)
    dsimp only at hbody
    split at hbody
    · cases hbody
      exact (Txn.Calm.of_calm (failCase_calm (rfl : Txn.calm true true _ = true))).plain
    · cases hbody
      refine createApprovalRequest_plain rfl rfl rfl (fun m hm hdst => ?_) rfl
      exfalso
      rcases List.mem_cons.mp hm with rfl | hm
      · cases hdst
      · rw [List.mem_singleton.mp hm] at hdst
        cases hdst
  · trivial

theorem runTriage_plainly (st : CaseState) : Plainly (fun _ => True) (r.runTriage st) :=
  .bind (Calmly.plainly (run_calmly r .triage st)) (fun x _ => finishTriage_plainly r x.1 x.2)

theorem reconcileBlockedTriage_plainly (st : CaseState) :
    Plainly (fun _ => True) (r.reconcileBlockedTriage st) := by
  refine Plainly.bind (Calmly.plainly (reconcileBlocked_calmly r .triage st)) (fun found _ => ?_)
  split
  · trivial
  · exact finishTriage_plainly r _ _

theorem processTermination_plainly (st : CaseState) :
    Plainly (fun _ => True) (r.processTermination st) := by
  refine Plainly.bind (Calmly.plainly (.tx (fun _ _ => rfl))) (fun pending _ => ?_)
  split
  · exact .bind (Calmly.plainly (terminateCase_calmly r st)) (fun _ _ => trivial)
  · refine Plainly.bind (Calmly.plainly (run_calmly r _ st)) (fun x _ => ?_)
    dsimp only
    split
    · exact finishTriage_plainly r x.1 x.2
    · trivial

theorem processTriage_plainly (st : CaseState) :
    Plainly (fun _ => True) (r.processTriage st) := by
  unfold Runner.processTriage
  split
  · refine Plainly.bind (Calmly.plainly (evaluateEligibility_calmly r _)) (fun eligible _ => ?_)
    split
    · exact runTriage_plainly r _
    · trivial
  · exact runTriage_plainly r _
  · exact runTriage_plainly r _
  · refine Plainly.bind (Calmly.plainly (.tx (fun _ _ => rfl))) (fun kind _ => ?_)
    split
    · exact runTriage_plainly r _
    · trivial
  · exact reconcileBlockedTriage_plainly r _
  · exact processTermination_plainly r _
  · trivial

theorem processCase_plainly (st : CaseState) (reason : Option Reason) :
    Plainly (fun _ => True) (r.processCase st reason) := by
  unfold Runner.processCase
  split
  · split
    · exact Calmly.plainly (process_calmly r st reason)
    · trivial
  · exact processTriage_plainly r st

end Processor

/-! ## The dispatcher -/

/-- The object has not changed the label columns. -/
def RequestObj.Quiet (r : RequestObj) : Prop := r.write.Quiet

theorem RequestObj.Quiet.set {r : RequestObj} (h : r.Quiet) {row : ApprovalRequest}
    (hreq : row.labelRequestedAt = r.row.labelRequestedAt)
    (happ : row.labelAppliedAt = r.row.labelAppliedAt)
    (hst : row.deliveryStatus = r.row.deliveryStatus)
    (hd : row.decision = r.row.decision) : (r.set row).Quiet where
  requested := hreq.trans h.requested
  applied := happ.trans h.applied
  status := hst.trans h.status
  decision := by
    show row.decision = r.loaded.decision ∨ row.decision ≠ .approved
    rw [hd]
    exact h.decision

theorem RequestObj.quiet_flushed (r : RequestObj) : r.flushed.Quiet :=
  ⟨rfl, rfl, rfl, Or.inl rfl⟩

theorem loadRequest_quiet {row : OutboxRow} {s : Store} {x : RequestObj × CaseState}
    (h : loadRequest row s = some x) : x.1.Quiet := by
  unfold loadRequest at h
  obtain ⟨id, -, h⟩ := Option.bind_eq_some_iff.mp h
  obtain ⟨r, -, rfl⟩ := Option.map_eq_some_iff.mp h
  exact ⟨rfl, rfl, rfl, Or.inl rfl⟩

/-- Writes of objects, and nothing else that concerns a delivery. -/
theorem plain_of_writes {o : Owner} {t : Txn} {s : Store} (hnew : t.newApprovals = [])
    (hwrites : ∀ w ∈ t.approvalWrites, w.Quiet) (hevents : t.eventWrites = [])
    (hmoves : t.moves = []) (hreplays : t.replays = none) : t.Plain o s := by
  refine plain_of_carried hnew (fun w hw => (hwrites w hw).carried s) (Or.inl hevents) ?_ hreplays
  rw [hmoves]
  exact List.forall_mem_nil _

/-- What a handler has not committed yet. -/
def Handled.Quiet : Handled → Prop
  | .sent pending _ => ∀ w ∈ pending, w.Quiet
  | .failed _ => True

section Dispatcher

variable (d : Dispatcher)

theorem storeToken_plainly {r : RequestObj} (hr : r.Quiet) :
    Plainly RequestObj.Quiet (d.storeToken r) := by
  refine .tx (fun i s t x hbody => ?_)
  cases hbody
  refine ⟨plain_of_writes rfl (fun w hw => ?_) rfl rfl rfl, RequestObj.quiet_flushed _⟩
  rw [List.mem_singleton.mp hw]
  exact hr.set rfl rfl rfl rfl

theorem slackApprovalRequest_plainly (row : OutboxRow) :
    Plainly Handled.Quiet (d.slackApprovalRequest row) := by
  have hsent : ∀ r : RequestObj, r.Quiet → Handled.Quiet
      (.sent [(r.set (Dispatcher.slackApprovalRequest.notified r.row)).write] []) := by
    intro r hr w hw
    rw [List.mem_singleton.mp hw]
    exact hr.set rfl rfl rfl rfl
  refine Plainly.bind (Q := fun found => ∀ x, found = some x → x.1.Quiet) ?_ (fun found hfound => ?_)
  · refine .tx (fun i s t x hbody => ?_)
    cases hbody
    exact ⟨plain_of_events rfl rfl (Or.inl rfl) rfl rfl, fun x hx => loadRequest_quiet hx⟩
  split
  · trivial
  · next r st =>
      have hr : r.Quiet := hfound (r, st) rfl
      split
      · exact List.forall_mem_nil _
      · extract_lets rest
        have hrest : ∀ earlier, Plainly Handled.Quiet (rest earlier) := by
          intro earlier
          cases earlier with
          | inr permanent => trivial
          | inl found =>
              cases found with
              | true => exact hsent r hr
              | false =>
                  refine Plainly.bind (storeToken_plainly d hr) (fun r hr => ?_)
                  refine Plainly.bind (Calmly.plainly (.ask _)) (fun answer _ => ?_)
                  split
                  · exact hsent r hr
                  · trivial
                  · trivial
        split
        · exact .bind (Calmly.plainly (.ask _)) (fun earlier _ => hrest earlier)
        · exact hrest (.inl false)

theorem dispatcherFail_plainly (id : Nat) (permanent : Bool) :
    Plainly (fun _ => True) (d.fail id permanent) := by
  refine .tx (fun i s t x hbody => ⟨?_, trivial⟩)
  dsimp only at hbody
  split at hbody
  · cases hbody
    exact plain_of_events rfl rfl (Or.inl rfl) rfl rfl
  · split at hbody
    · split at hbody
      · cases hbody
        exact plain_of_events rfl rfl (Or.inl rfl) rfl rfl
      · next rid r hfound =>
          obtain ⟨rid', -, hr⟩ := Option.bind_eq_some_iff.mp hfound
          obtain ⟨r', hr', heq⟩ := Option.map_eq_some_iff.mp hr
          cases heq
          split at hbody
          · cases hbody
            refine plain_of_writes rfl (fun w hw => ?_) rfl rfl rfl
            rw [List.mem_singleton.mp hw]
            exact ⟨rfl, rfl, rfl, Or.inl rfl⟩
          · split at hbody
            · cases hbody
              exact plain_of_events rfl rfl (Or.inl rfl) rfl rfl
            · next happlied =>
                -- the delivery of the label is given up
                cases hbody
                refine ⟨List.forall_mem_nil _, rounds_of_single rfl hr' (.failed rfl ?_ rfl),
                  events_of_open (Or.inl rfl), fun m hm _ => ?_, rfl⟩
                · simpa using happlied
                · dsimp only at hm
                  split at hm
                  · next hstate =>
                      rw [hstate]
                      rfl
                  · cases hm
          · cases hbody
            exact plain_of_events rfl rfl (Or.inl rfl) rfl rfl
          · cases hbody
            exact plain_of_events rfl rfl (Or.inl rfl) rfl rfl
    · cases hbody
      exact plain_of_events rfl rfl (Or.inl rfl) rfl rfl

theorem dispatcherClaim_plainly : Plainly (fun _ => True) d.claim := by
  refine .tx (fun i s t x hbody => ⟨?_, trivial⟩)
  dsimp only at hbody
  split at hbody
  · cases hbody
    exact plain_of_events rfl rfl (Or.inl rfl) rfl rfl
  · cases hbody
    exact plain_of_events rfl rfl (Or.inl rfl) rfl rfl

end Dispatcher

/-! ## The worker loop -/

section Worker

variable (w : Worker)

/-- A failing case with the writes of its event. -/
theorem failCase_plain {o : Owner} {claim : Option Owner} {st : CaseState} {t : Txn} {s : Store}
    (hnew : t.newApprovals = []) (hwrites : t.approvalWrites = [])
    (hevents : t.eventWrites = [] ∨ ∃ w, t.eventWrites = [w] ∧ w.Open s) (hmoves : t.moves = [])
    (hreplays : t.replays = none) : (failCase claim st t s).1.Plain o s := by
  have hp := phaseForState_calm st true
  have hmove : ∀ dst : CaseState, dst.calm true = true → dst ≠ .approvalDeliveryFailed := by
    intro dst hdst hr
    subst hr
    cases hdst
  unfold failCase
  dsimp only
  split
  · exact plain_of_events hnew hwrites hevents hmoves hreplays
  · have hsingle : ∀ m : Move, m.dst.calm true = true → ∀ m' ∈ t.moves ++ [m],
        m'.dst = .approvalDeliveryFailed → s.case.state.awaitsLabel = true := by
      intro m hm m' hm' hdst
      rw [hmoves, List.nil_append] at hm'
      rw [List.mem_singleton.mp hm'] at hdst
      exact absurd hdst (hmove _ hm)
    have hquiet : ∀ w ∈ t.approvalWrites, w.Carried s := by
      rw [hwrites]
      exact List.forall_mem_nil _
    split
    · exact plain_of_carried hnew hquiet hevents (hsingle _ hp.2.1) hreplays
    · split
      · exact plain_of_events hnew hwrites hevents hmoves hreplays
      · exact plain_of_carried hnew hquiet hevents (hsingle _ hp.1) hreplays

theorem markFailed_plain {o : Owner} {t : Txn} {s : Store} (hnew : t.newApprovals = [])
    (hwrites : t.approvalWrites = [])
    (hevents : t.eventWrites = [] ∨ ∃ w, t.eventWrites = [w] ∧ w.Open s) (hmoves : t.moves = [])
    (hreplays : t.replays = none) : (w.markFailed t s).Plain o s := by
  unfold Worker.markFailed
  dsimp only
  split
  · exact failCase_plain hnew hwrites hevents hmoves hreplays
  · exact plain_of_events hnew hwrites hevents hmoves hreplays

/-- An event that used up its attempts has not failed yet. -/
def EventClaim.Unfailed : EventClaim → Prop
  | .capped e _ => e.row.status ≠ .failed
  | _ => True

theorem nextEvent_unfailed {s : Store} {e : EventObj} (h : nextEvent s = some e) :
    e.row.status ≠ .failed := by
  unfold nextEvent at h
  obtain ⟨id, hid, h⟩ := Option.bind_eq_some_iff.mp h
  obtain ⟨row, hrow, rfl⟩ := Option.map_eq_some_iff.mp h
  obtain ⟨hlt, hp, -⟩ := List.findIdx?_eq_some_iff_getElem.mp hid
  have hget := (List.getElem?_eq_some_iff.mp hrow).2
  rw [hget] at hp
  intro hfailed
  have hfailed : row.status = .failed := hfailed
  simp [hfailed] at hp

theorem selectEvent_plainly : Plainly EventClaim.Unfailed w.selectEvent := by
  refine .tx (fun i s t x hbody => ?_)
  dsimp only at hbody
  split at hbody
  · cases hbody
    exact ⟨plain_of_events rfl rfl (Or.inl rfl) rfl rfl, trivial⟩
  · next e he =>
      split at hbody
      · cases hbody
        exact ⟨plain_of_events rfl rfl (Or.inl rfl) rfl rfl, nextEvent_unfailed he⟩
      · cases hbody
        refine ⟨plain_of_events rfl rfl (Or.inr ⟨_, rfl, ?_⟩) rfl rfl, trivial⟩
        by_cases hst : e.row.status = .processing
        · exact .quiet hst.symm rfl
        · exact .left EventStatus.noConfusion (Or.inl (Ne.symm hst)) (Or.inl rfl)

theorem capEvent_plainly {e : EventObj} (he : e.row.status ≠ .failed) (st : Option CaseState) :
    Plainly (fun _ => True) (w.capEvent e st) := by
  have hopen : ∀ s : Store, (e.write (Worker.capEvent.gaveUp e s)).Open s :=
    fun s => .left EventStatus.noConfusion (Or.inl (Ne.symm he)) (Or.inr rfl)
  unfold Worker.capEvent
  split
  · refine .tx (fun i s t x hbody => ⟨?_, trivial⟩)
    cases hbody
    exact plain_of_events rfl rfl (Or.inr ⟨_, rfl, hopen s⟩) rfl rfl
  · refine Plainly.bind (Calmly.plainly (terminateRunningAttempts_calmly w.owner))
      (fun x _ => ?_)
    refine .tx (fun i s t y hbody => ⟨?_, trivial⟩)
    cases hbody
    exact failCase_plain rfl rfl (Or.inr ⟨_, rfl, hopen s⟩) rfl rfl

theorem claimEvent_plainly (n : Nat) : Plainly (fun _ => True) (w.claimEvent n) := by
  induction n with
  | zero => trivial
  | succ n ih =>
      refine Plainly.bind (selectEvent_plainly w) (fun claim hclaim => ?_)
      split
      · trivial
      · trivial
      · exact .bind (capEvent_plainly w hclaim _) (fun _ _ => ih)

theorem releaseEvent_plainly (id : Nat) : Plainly (fun _ => True) (w.releaseEvent id) := by
  refine Plainly.bind (Calmly.plainly (.tx (fun _ _ => rfl))) (fun hasCase _ => ?_)
  extract_lets txn rest
  have hrest : ∀ u, Plainly (fun _ => True) (rest u) := by
    intro u
    refine .tx (fun i s t x hbody => ⟨?_, trivial⟩)
    cases hbody
    refine plain_of_events rfl rfl ?_ rfl rfl
    dsimp only
    cases hw : (s.events[id]?).bind (fun row => if row.claimedBy = some w.owner then
        some (⟨id, row, { row with claimedBy := none, leaseExpiresAt := none }⟩ :
          Write WebhookEvent) else none) with
    | none => exact Or.inl rfl
    | some v =>
        refine Or.inr ⟨v, rfl, ?_⟩
        obtain ⟨row, -, hv⟩ := Option.bind_eq_some_iff.mp hw
        split at hv
        · cases hv
          exact .quiet rfl rfl
        · cases hv
  split
  · exact .bind (Calmly.plainly (releaseCase_calmly w)) (fun u _ => hrest u)
  · exact hrest ()

theorem onCaseError_plainly (e : Err) : Plainly (fun _ => True) (w.onCaseError e) := by
  unfold Worker.onCaseError
  split
  · exact .bind (Calmly.plainly (.tx (fun _ _ => rfl)))
      (fun _ _ => Calmly.plainly (releaseCase_calmly w))
  · trivial
  · trivial
  · trivial
  · refine .tx (fun i s t x hbody => ⟨?_, trivial⟩)
    cases hbody
    exact markFailed_plain w rfl rfl (Or.inl rfl) rfl rfl

/-- The handlers of an event that do not take it as processed. -/
theorem onEventError_plainly (id : Nat) {e : Err} (he : e ≠ .invalidTransition) :
    Plainly (fun _ => True) (w.onEventError id e) := by
  unfold Worker.onEventError
  split
  · exact absurd rfl he
  · trivial
  · trivial
  · trivial
  · refine .tx (fun i s t x hbody => ⟨?_, trivial⟩)
    dsimp only at hbody
    split at hbody
    · cases hbody
      exact plain_of_events rfl rfl (Or.inl rfl) rfl rfl
    · next row hrow =>
        have hopen : (⟨id, row, { row with status := .failed, processedAt := some s.now }⟩ :
            Write WebhookEvent).Open s :=
          .left EventStatus.noConfusion (Or.inr hrow) (Or.inr rfl)
        cases hbody
        split
        · exact markFailed_plain w rfl rfl (Or.inr ⟨_, rfl, hopen⟩) rfl rfl
        · exact plain_of_events rfl rfl (Or.inr ⟨_, rfl, hopen⟩) rfl rfl

theorem runCase_plainly : Plainly (fun _ => True) w.runCase :=
  .bind (Calmly.plainly (.tx (fun _ _ => rfl))) (fun x _ => processCase_plainly w.runner x.1 x.2)

end Worker

/-! ## Clicks and operators -/

theorem slackClick_plainly (cfg : Settings) (o : Owner) (action : SlackActionInput) :
    Plainly (fun _ => True) (slackClick cfg o action) := by
  refine .tx (fun i s t x hbody => ⟨?_, trivial⟩)
  cases hbody
  have hidle : ∀ {t : Txn}, t.newApprovals = [] → t.approvalWrites = [] → t.eventWrites = [] →
      t.moves = [] → t.replays = none → t.Plain o s :=
    fun h₁ h₂ h₃ h₄ h₅ => plain_of_events h₁ h₂ (Or.inl h₃) h₄ h₅
  unfold processSlackAction
  dsimp only
  split
  · exact hidle rfl rfl rfl rfl rfl
  split
  · exact hidle rfl rfl rfl rfl rfl
  next id r hfound =>
  have hr := requestByToken_get hfound
  split
  · exact hidle rfl rfl rfl rfl rfl
  split
  · exact hidle rfl rfl rfl rfl rfl
  unfold decideRound
  split
  · refine plain_of_writes rfl (fun w hw => ?_) rfl rfl rfl
    rw [List.mem_singleton.mp hw]
    exact ⟨rfl, rfl, rfl, Or.inr ApprovalDecision.noConfusion⟩
  split
  · exact hidle rfl rfl rfl rfl rfl
  split
  · exact hidle rfl rfl rfl rfl rfl
  split
  · exact hidle rfl rfl rfl rfl rfl
  split
  · exact hidle rfl rfl rfl rfl rfl
  split
  · exact ⟨List.forall_mem_nil _, rounds_of_single rfl hr (.reset rfl (Or.inl rfl)),
      events_of_open (Or.inl rfl), List.forall_mem_nil _, rfl⟩
  · refine ⟨List.forall_mem_nil _, rounds_of_single rfl hr (.reset rfl (Or.inr rfl)),
      events_of_open (Or.inl rfl), fun m hm hdst => ?_, rfl⟩
    rw [List.mem_singleton.mp hm] at hdst
    cases hdst

theorem expireApproval_plainly (cfg : Settings) (o : Owner) (id : Nat) :
    Plainly (fun _ => True) (expireApproval cfg o id) := by
  refine .tx (fun i s t x hbody => ⟨?_, trivial⟩)
  dsimp only at hbody
  split at hbody
  · split at hbody
    · cases hbody
      refine plain_of_writes rfl (fun w hw => ?_) rfl rfl rfl
      rw [List.mem_singleton.mp hw]
      exact ⟨rfl, rfl, rfl, Or.inr ApprovalDecision.noConfusion⟩
    · cases hbody
      exact plain_of_events rfl rfl (Or.inl rfl) rfl rfl
  · cases hbody
    exact plain_of_events rfl rfl (Or.inl rfl) rfl rfl

theorem retryOutbox_plainly (o : Owner) (id : Nat) :
    Plainly (fun _ => True) (retryOutbox o id) := by
  refine .tx (fun i s t x hbody => ⟨?_, trivial⟩)
  split at hbody
  · cases hbody
  · next row _ =>
      split at hbody
      · cases hbody
      · cases hbody
        cases hw : row.approvalRequestId.bind (fun rid => s.approvals[rid]?.map (fun r =>
            (⟨rid, r, retryOutbox.requeued row.kind r⟩ : Write ApprovalRequest))) with
        | none =>
            exact plain_of_writes rfl (List.forall_mem_nil _) rfl rfl rfl
        | some v =>
            obtain ⟨rid, -, hv⟩ := Option.bind_eq_some_iff.mp hw
            obtain ⟨r, hr, rfl⟩ := Option.map_eq_some_iff.mp hv
            refine ⟨List.forall_mem_nil _, rounds_of_single rfl hr ?_,
              events_of_open (Or.inl rfl), List.forall_mem_nil _, rfl⟩
            unfold retryOutbox.requeued
            split
            · split
              · exact .reset rfl (Or.inl rfl)
              · exact .refl _ _ _
            · split
              · exact ⟨fun h => ⟨h.applied, h.failed, h.requested⟩,
                  fun hd ha => Or.inl ⟨hd, ha⟩, Or.inr⟩
              · exact .refl _ _ _
            · exact .refl _ _ _
            · exact .refl _ _ _

theorem reconcileSession_plainly (cfg : Settings) (o : Owner) (rounds : Nat) :
    Plainly (fun _ => True) (reconcileSession cfg o rounds) := by
  refine Plainly.bind (Calmly.plainly (readState_calmly o)) (fun st _ => ?_)
  split
  · trivial
  · exact reconcileBlockedTriage_plainly
      { cfg := cfg, owner := o, claim := none, rounds := rounds } st

end Remediator
