import Remediator.Rounds.Deliveries

set_option autoImplicit false

/-! # What the delivery of a label guarantees

Two promises of the approval flow, each under the condition that it really needs: an approved and
labelled case does not wedge, and a round is `CONFIRMED` only if it moved its case.
-/

namespace Remediator

open Interleave

/-! ## No case is wedged -/

/-- The current round is approved, its label is on the issue and recorded as applied, its row is
settled, every delivery was processed, and the case still waits. -/
structure Wedged (s : Store) (id : Nat) (r : ApprovalRequest) : Prop where
  row : s.approvals[id]? = some r
  current : isCurrentRequest s.approvals s.core.attempts id r = true
  approved : r.decision = .approved
  applied : r.deliveryStatus = .labelApplied
  present : s.label.present = true
  settled : labelSettled s.outbox id = true
  arrived : s.label.inFlight = 0
  processed : ∀ e ∈ s.events, e.remediationLabel = true → e.status = .processed
  awaits : s.case.state.awaitsLabel = true

/-- **An approved and labelled case is not wedged**, in any state of a run in which the label is
not on the issue when it is requested, deliveries are replayed before the dispatcher is gone or
its row is settled, no delivery is judged on an older copy of a case that waits for it, and no
case comes to wait without a new round. -/
theorem not_wedged_of_reachable {cfg : Settings} {c : Pool Store Input Op Err}
    (h : Reachable cfg c) (hclean : ¬ c.store.hit wedgeIncidents) (id : Nat)
    (r : ApprovalRequest) : ¬ Wedged c.store id r := by
  intro hw
  have hinv := labelInv_of_reachable h
  have hcurrent := hw.current
  simp only [isCurrentRequest, Bool.and_eq_true, decide_eq_true_eq] at hcurrent
  have hlabelled : Labelled c.store id r :=
    ⟨hw.row, hcurrent.1, hw.approved, hw.applied, hw.present, hw.awaits⟩
  rcases hinv.owed.resolve_left hclean id r hlabelled with hflight | ⟨e, he, hconf, hst⟩ | ⟨o, ho⟩
  · rw [hw.arrived] at hflight
    exact Nat.lt_irrefl _ hflight
  · have hlabel : e.remediationLabel = true := (Bool.and_eq_true _ _ ▸ hconf).1
    exact hst (hw.processed e he hlabel)
  · have hopen := hinv.replaying.resolve_left hclean (o, id) ho
    rw [hw.settled] at hopen
    cases hopen

/-- A delivery that GitHub emits when the remediation label is added. -/
def labelAdded : WebhookEvent :=
  { remediationLabel := true, issueLabels := some ["devin:remediate"], eligible := true }

/-- The round is approved. -/
def approvedSchedule : List (Choice Input Op Job) := postedSchedule ++ clickSchedule 3 actionApprove

/-- The dispatcher applies the label and posts the comment; the delivery is in flight. -/
def labelledSchedule : List (Choice Input Op Job) :=
  approvedSchedule ++ .spawn 4 (.iterate 0 5) :: actions 4 15 smooth

theorem not_wedged_of_reachable_demo : ∃ c, Reachable demoSettings c ∧
    c.store.approvals.map (·.deliveryStatus) = [.labelApplied] ∧
    c.store.case.state.awaitsLabel = true ∧ labelSettled c.store.outbox 0 = true ∧
    ∀ id r, ¬ Wedged c.store id r := by
  obtain ⟨c, hc, hview⟩ := reachable_of_runSchedule demoSettings labelledSchedule
    (fun s => (s.approvals.map (·.deliveryStatus), s.case.state.awaitsLabel,
      labelSettled s.outbox 0, wedgeIncidents.any s.history.incident))
    ([.labelApplied], true, true, false) (by decide +kernel)
  obtain ⟨hstatus, hview⟩ := Prod.mk.inj hview
  obtain ⟨hawaits, hview⟩ := Prod.mk.inj hview
  obtain ⟨hsettled, hinc⟩ := Prod.mk.inj hview
  refine ⟨c, hc, hstatus, hawaits, hsettled, not_wedged_of_reachable hc ?_⟩
  rintro ⟨k, hk, hi⟩
  exact List.any_eq_false.mp hinc k hk hi

/-- The delivery arrives and is processed between the `POST` of the label and the commit of
`label_applied_at`; the dispatcher dies after that commit, and the next one finds the label
applied. -/
def wedgingSchedule : List (Choice Input Op Job) :=
  approvedSchedule ++ .spawn 4 (.iterate 0 5) :: actions 4 9 smooth ++
  [.env (.deliver labelAdded), .spawn 5 (.iterate 0 5)] ++ actions 5 7 smooth ++
  actions 4 1 smooth ++ [.kill 4, .env (.tick 100), .spawn 6 (.iterate 0 5)] ++
  actions 6 10 smooth

theorem case_wedged : ∃ c, Reachable demoSettings c ∧ ∃ id r, Wedged c.store id r := by
  obtain ⟨c, hc, hview⟩ := reachable_of_runSchedule demoSettings wedgingSchedule
    (fun s => (s.approvals[0]?.map (fun r =>
        isCurrentRequest s.approvals s.core.attempts 0 r && decide (r.decision = .approved) &&
          decide (r.deliveryStatus = .labelApplied)),
      s.label.present, labelSettled s.outbox 0, s.label.inFlight,
      s.events.all (fun e => !e.remediationLabel || decide (e.status = .processed)),
      s.case.state.awaitsLabel))
    (some true, true, true, 0, true, true) (by decide +kernel)
  obtain ⟨hround, hview⟩ := Prod.mk.inj hview
  obtain ⟨hpresent, hview⟩ := Prod.mk.inj hview
  obtain ⟨hsettled, hview⟩ := Prod.mk.inj hview
  obtain ⟨harrived, hview⟩ := Prod.mk.inj hview
  obtain ⟨hprocessed, hawaits⟩ := Prod.mk.inj hview
  obtain ⟨r, hr, heq⟩ := Option.map_eq_some_iff.mp hround
  simp only [Bool.and_eq_true, decide_eq_true_eq] at heq
  obtain ⟨⟨hcurrent, happroved⟩, happlied⟩ := heq
  refine ⟨c, hc, 0, r, hr, hcurrent, happroved, happlied, hpresent, hsettled, harrived, ?_, hawaits⟩
  intro e he hlabel
  have h := List.all_eq_true.mp hprocessed e he
  rw [hlabel] at h
  simpa using h

/-! ## A confirmation is all or nothing -/

/-- The case is moved and the round confirmed, or neither of the two. -/
def AllOrNothing (s s' : Store) (id : Nat) (r : ApprovalRequest) (won : Bool) : Prop :=
  (won = true ∧ s'.case.state = .remediationApproved ∧ ∃ r', s'.approvals[id]? = some r' ∧
    r'.deliveryStatus = .confirmed ∧ r'.labelConfirmedAt.isSome = true) ∨
  (won = false ∧ s'.case.state = s.case.state ∧ ∃ r', s'.approvals[id]? = some r' ∧
    r'.deliveryStatus = r.deliveryStatus ∧ r'.labelConfirmedAt = r.labelConfirmedAt)

theorem allOrNothing_refused {o : Owner} {t : Txn} {s : Store} {id : Nat} {r : ApprovalRequest}
    (hsees : (flush ApprovalRequest.merge t.approvalWrites s.approvals)[id]? = some r)
    (hmoves : t.moves = []) : AllOrNothing s ((Op.commit o t).apply s) id r false := by
  refine Or.inr ⟨rfl, ?_, r, ?_, rfl, rfl⟩
  · show movesEnd t.moves s.case.state = s.case.state
    rw [hmoves]
    rfl
  · have hlt := (List.getElem?_eq_some_iff.mp hsees).1
    rw [commit_approvals, List.getElem?_append_left hlt]
    exact hsees

/-- The round after a confirmation is committed. -/
theorem confirmed_row {o : Owner} {t : Txn} {s : Store} {id : Nat} {r : ApprovalRequest}
    {ws : List (Write ApprovalRequest)}
    (hsees : (flush ApprovalRequest.merge ws s.approvals)[id]? = some r)
    (hwrites : t.approvalWrites = ws ++ [⟨id, r, confirmedRound s.now r⟩]) :
    ∃ r', ((Op.commit o t).apply s).approvals[id]? = some r' ∧ r'.deliveryStatus = .confirmed ∧
      r'.labelConfirmedAt.isSome = true := by
  have hlt := (List.getElem?_eq_some_iff.mp hsees).1
  have hflush : flush ApprovalRequest.merge t.approvalWrites s.approvals =
      (flush ApprovalRequest.merge ws s.approvals).modify id
        (ApprovalRequest.merge r (confirmedRound s.now r)) := by
    rw [hwrites, flush_append, flush_cons, flush_nil]
  refine ⟨ApprovalRequest.merge r (confirmedRound s.now r) r, ?_, pick_row _ _, ?_⟩
  · rw [commit_approvals, hflush, List.getElem?_append_left (by simpa using hlt),
      List.getElem?_modify, hsees]
    exact congrArg some (if_pos rfl)
  · have hat : (ApprovalRequest.merge r (confirmedRound s.now r) r).labelConfirmedAt = some s.now :=
      pick_row _ _
    rw [hat]
    rfl

/-- One confirmation, whatever happened between the load of the case and the conditional
update. -/
theorem allOrNothing_iff (cfg : Settings) (st : CaseState) (labels : Option (List String))
    (o : Owner) (t : Txn) (s : Store) {id : Nat} {r : ApprovalRequest}
    (hsees : (flush ApprovalRequest.merge t.approvalWrites s.approvals)[id]? = some r)
    (hmoves : t.moves = []) :
    AllOrNothing s
      ((Op.commit o (confirmLabelWebhook cfg st id r labels t s).1).apply s) id r
      (confirmLabelWebhook cfg st id r labels t s).2 ↔
    labelAccepts cfg st id r labels s = false ∨ s.case.state = st := by
  by_cases hacc : labelAccepts cfg st id r labels s = true
  swap
  · have hacc := Bool.eq_false_iff.mpr hacc
    rw [confirm_refused hacc]
    exact ⟨fun _ => Or.inl hacc, fun _ => allOrNothing_refused hsees hmoves⟩
  · have hok := confirmMove_ok (labelAccepts_awaits hacc) s.case
    rw [confirm_accepted hacc, hmoves, List.nil_append, hok]
    obtain ⟨r', hr', hst, hat⟩ := confirmed_row (o := o) hsees (t := { t with
      approvalWrites := t.approvalWrites ++ [⟨id, r, confirmedRound s.now r⟩]
      confirmsFrom := some st
      moves := if decide (s.case.state = st) = true then [confirmMove st] else []
      newOutbox := t.newOutbox ++
        if decide (s.case.state = st) = true then statusUpdate id r else [] }) rfl
    constructor
    · rintro (⟨hwon, -⟩ | ⟨-, -, r'', hr'', hsame, -⟩)
      · exact Or.inr (of_decide_eq_true hwon)
      · -- the confirmation is committed although the transition was lost
        rw [hr'] at hr''
        cases hr''
        rw [hst, labelAccepts_status hacc] at hsame
        cases hsame
    · rintro (hno | hstate)
      · rw [hacc] at hno
        cases hno
      · refine Or.inl ⟨decide_eq_true hstate, ?_, r', hr', hst, hat⟩
        show movesEnd (if decide (s.case.state = st) = true then [confirmMove st] else [])
          s.case.state = _
        rw [if_pos (decide_eq_true hstate)]
        rfl

/-- The case entered `REMEDIATION_APPROVED` through the round: the transaction that confirmed it
moved the case. -/
def EnteredThrough (s : Store) (id : Nat) : Prop :=
  id ∈ s.history.admitted ∧ ∃ e ∈ s.log, e.dst = .remediationApproved ∧ e.actor = .github

/-- Rounds are admitted together with a transition. -/
def AdmittedLogged (s : Store) : Prop :=
  s.history.admitted ≠ [] → ∃ e ∈ s.log, e.dst = .remediationApproved ∧ e.actor = .github

theorem AdmittedLogged.apply {s : Store} (h : AdmittedLogged s) (op : Op) :
    AdmittedLogged (op.apply s) := by
  cases op with
  | commit o t =>
      intro hne
      rw [commit_admitted] at hne
      rw [commit_log]
      by_cases happroves : t.approves = true
      · obtain ⟨m, hm, hentered⟩ := List.any_eq_true.mp happroves
        simp only [Bool.and_eq_true, decide_eq_true_eq] at hentered
        exact ⟨⟨m.src, m.dst, m.actor⟩, List.mem_append_right _ (List.mem_map_of_mem hm), hentered⟩
      · rw [if_neg happroves] at hne
        obtain ⟨e, he, hentered⟩ := h hne
        exact ⟨e, List.mem_append_left _ he, hentered⟩
  | _ => exact h

theorem admittedLogged_of_reachable {cfg : Settings} {c : Pool Store Input Op Err}
    (h : Reachable cfg c) : AdmittedLogged c.store :=
  (Pool.Reachable.each (P := AdmittedLogged) (Sanctioned.any _) (fun hne => absurd rfl hne)
    (fun _ op hs _ => hs.apply op) h).2

/-- **A confirmation is all or nothing** exactly if the delivery is refused or the caller's copy
of the case is up to date; and in a run in which no delivery is accepted on a copy that is out
of date, a round is `CONFIRMED` only if its case entered `REMEDIATION_APPROVED` through it. -/
theorem confirmation_all_or_nothing (cfg : Settings) :
    (∀ (st : CaseState) (labels : Option (List String)) (o : Owner) (t : Txn)
      (s : Store) (id : Nat) (r : ApprovalRequest),
      (flush ApprovalRequest.merge t.approvalWrites s.approvals)[id]? = some r → t.moves = [] →
      (AllOrNothing s ((Op.commit o (confirmLabelWebhook cfg st id r labels t s).1).apply s) id r
        (confirmLabelWebhook cfg st id r labels t s).2 ↔
      labelAccepts cfg st id r labels s = false ∨ s.case.state = st)) ∧
    ∀ (c : Pool Store Input Op Err), Reachable cfg c →
      ¬ c.store.hit lossOfConfirmation → ∀ (id : Nat) (r : ApprovalRequest),
      c.store.approvals[id]? = some r → r.deliveryStatus = .confirmed →
      EnteredThrough c.store id := by
  refine ⟨fun st labels o t s id r hsees hmoves =>
    allOrNothing_iff cfg st labels o t s hsees hmoves, ?_⟩
  intro c hc hclean id r hr hconfirmed
  have hadm := (labelInv_of_reachable hc).admitted.resolve_left hclean id r hr hconfirmed
  refine ⟨hadm, admittedLogged_of_reachable hc (fun hnil => ?_)⟩
  rw [hnil] at hadm
  cases hadm

/-- A round whose label was applied. -/
def deliveredRound : ApprovalRequest :=
  { attemptId := 0
    triageResultHash := "5feceb66ffc86f38d952786c6d696c79c2dbc239dd4e91b46729d73a27fb57e9"
    tokenExpiresAt := 100
    createdAt := 0
    decision := .approved
    deliveryStatus := .labelApplied
    labelRequestedAt := some 1
    labelAppliedAt := some 2 }

/-- A case with one round, in the given state. -/
def deliveredStore (st : CaseState) : Store :=
  { now := 5
    case := { state := st }
    approvals := [deliveredRound]
    core := { attempts := [{
      kind := .triage, ordinal := 1, operationKey := .triage 1, startedAt := 0
      status := .succeeded }] } }

/-- The delivery arrives after the label was applied, and the worker processes it. -/
def confirmedSchedule : List (Choice Input Op Job) :=
  labelledSchedule ++ [.env (.deliver labelAdded), .spawn 5 (.iterate 0 5)] ++ actions 5 3 smooth

theorem confirmation_all_or_nothing_demo :
    AllOrNothing (deliveredStore .awaitingRemediationApproval)
      ((Op.commit 5 (confirmLabelWebhook demoSettings .awaitingRemediationApproval 0 deliveredRound
        (some ["devin:remediate"]) {} (deliveredStore .awaitingRemediationApproval)).1).apply
          (deliveredStore .awaitingRemediationApproval)) 0 deliveredRound
      (confirmLabelWebhook demoSettings .awaitingRemediationApproval 0 deliveredRound
        (some ["devin:remediate"]) {} (deliveredStore .awaitingRemediationApproval)).2 ∧
    (confirmLabelWebhook demoSettings .awaitingRemediationApproval 0 deliveredRound
        (some ["devin:remediate"]) {} (deliveredStore .awaitingRemediationApproval)).2 = true ∧
    ∃ c, Reachable demoSettings c ∧ c.store.case.state = .remediationApproved ∧
      (∃ r, c.store.approvals[0]? = some r ∧ r.deliveryStatus = .confirmed) ∧
      EnteredThrough c.store 0 := by
  refine ⟨((confirmation_all_or_nothing demoSettings).1 _ _ _ _ _ _ _ rfl rfl).mpr (Or.inr rfl),
    by decide +kernel, ?_⟩
  obtain ⟨c, hc, hview⟩ := reachable_of_runSchedule demoSettings confirmedSchedule
    (fun s => (s.case.state, s.approvals[0]?.map (·.deliveryStatus),
      lossOfConfirmation.any s.history.incident))
    (.remediationApproved, some .confirmed, false) (by decide +kernel)
  obtain ⟨hstate, hview⟩ := Prod.mk.inj hview
  obtain ⟨hround, hinc⟩ := Prod.mk.inj hview
  obtain ⟨r, hr, hconfirmed⟩ := Option.map_eq_some_iff.mp hround
  have hclean : ¬ c.store.hit lossOfConfirmation := by
    rintro ⟨k, hk, hi⟩
    exact List.any_eq_false.mp hinc k hk hi
  exact ⟨c, hc, hstate, ⟨r, hr, hconfirmed⟩,
    (confirmation_all_or_nothing demoSettings).2 c hc hclean 0 r hr hconfirmed⟩

/-- The operator cancels the case between the load of the case and the conditional update. -/
def lostSchedule : List (Choice Input Op Job) :=
  labelledSchedule ++ [.env (.deliver labelAdded), .spawn 5 (.iterate 0 5)] ++ actions 5 2 smooth ++
  .spawn 6 .cancel :: actions 6 4 {} ++ actions 5 1 smooth

theorem confirmation_lost :
    ¬ AllOrNothing (deliveredStore .cancelled)
      ((Op.commit 5 (confirmLabelWebhook demoSettings .awaitingRemediationApproval 0 deliveredRound
        (some ["devin:remediate"]) {} (deliveredStore .cancelled)).1).apply
          (deliveredStore .cancelled)) 0 deliveredRound
      (confirmLabelWebhook demoSettings .awaitingRemediationApproval 0 deliveredRound
        (some ["devin:remediate"]) {} (deliveredStore .cancelled)).2 ∧
    ∃ c, Reachable demoSettings c ∧ c.store.case.state = .cancelled ∧
      (∃ r, c.store.approvals[0]? = some r ∧ r.deliveryStatus = .confirmed) ∧
      ¬ EnteredThrough c.store 0 := by
  constructor
  · rw [allOrNothing_iff _ _ _ _ _ _ rfl rfl]
    decide +kernel
  · obtain ⟨c, hc, hview⟩ := reachable_of_runSchedule demoSettings lostSchedule
      (fun s => (s.case.state, s.approvals[0]?.map (·.deliveryStatus), s.history.admitted))
      (.cancelled, some .confirmed, []) (by decide +kernel)
    obtain ⟨hstate, hview⟩ := Prod.mk.inj hview
    obtain ⟨hround, hadm⟩ := Prod.mk.inj hview
    obtain ⟨r, hr, hconfirmed⟩ := Option.map_eq_some_iff.mp hround
    refine ⟨c, hc, hstate, ⟨r, hr, hconfirmed⟩, fun hent => ?_⟩
    have hmem := hent.1
    rw [hadm] at hmem
    cases hmem

end Remediator
