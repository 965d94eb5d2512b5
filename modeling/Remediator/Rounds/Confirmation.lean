import Remediator.Rounds.Plain

set_option autoImplicit false

/-! # Confirming a delivery

`confirm_label_webhook` either refuses a delivery or marks the newest round `CONFIRMED` and moves
the case, if the caller's copy of the case is still up to date. Both of its callers, the
processing of a delivery and the replay after the label was applied, commit what it leaves.
-/

namespace Remediator

open Interleave

/-! ## One confirmation -/

/-- The checks of `confirm_label_webhook`. -/
def labelAccepts (cfg : Settings) (st : CaseState) (id : Nat) (r : ApprovalRequest)
    (labels : Option (List String)) (s : Store) : Bool :=
  decide (r.decision = .approved) && isCurrentRequest s.approvals s.core.attempts id r &&
    st.awaitsLabel && (r.labelAppliedAt.isSome && decide (r.deliveryStatus = .labelApplied)) &&
    labels.all (fun ls => decide (cfg.remediationLabel ∈ ls))

/-- The transition of a confirmation. -/
def confirmMove (st : CaseState) : Move := ⟨st, .remediationApproved, .github, none, false⟩

/-- The round after a confirmation. -/
def confirmedRound (now : Nat) (r : ApprovalRequest) : ApprovalRequest :=
  { r with deliveryStatus := .confirmed, labelConfirmedAt := some now }

section Confirm

variable {cfg : Settings} {st : CaseState} {id : Nat} {r : ApprovalRequest}
  {labels : Option (List String)} {t : Txn} {s : Store}

theorem confirm_refused (h : labelAccepts cfg st id r labels s = false) :
    confirmLabelWebhook cfg st id r labels t s = (t, false) := by
  unfold confirmLabelWebhook
  split
  · rfl
  next h₁ =>
  split
  · rfl
  next h₂ =>
  split
  · rfl
  next h₃ =>
  split
  · rfl
  next h₄ =>
  split
  · rfl
  next h₅ =>
  exfalso
  have hawaits : st.awaitsLabel = true := by
    by_contra hc
    refine h₃ ⟨fun hst => hc ?_, fun hst => hc ?_⟩
    · rw [hst]
      rfl
    · rw [hst]
      rfl
  have happlied : r.labelAppliedAt.isSome = true ∧ r.deliveryStatus = .labelApplied := by
    rw [not_or, not_not] at h₄
    exact ⟨by simpa [Option.isSome_iff_ne_none] using h₄.1, h₄.2⟩
  have hlabels : labels.all (fun ls => decide (cfg.remediationLabel ∈ ls)) = true := by
    cases labels with
    | none => rfl
    | some ls => simpa using h₅
  have hacc : labelAccepts cfg st id r labels s = true := by
    unfold labelAccepts
    rw [hawaits, hlabels, happlied.1]
    simp [not_not.mp h₁, happlied.2, Bool.not_eq_false _ ▸ h₂]
  rw [hacc] at h
  cases h

theorem confirm_accepted (h : labelAccepts cfg st id r labels s = true) :
    confirmLabelWebhook cfg st id r labels t s =
      ({ t with
        approvalWrites := t.approvalWrites ++ [⟨id, r, confirmedRound s.now r⟩]
        confirmsFrom := some st
        moves := t.moves ++ (if (confirmMove st).ok s.case then [confirmMove st] else [])
        newOutbox := t.newOutbox ++ (if (confirmMove st).ok s.case then statusUpdate id r else []) },
        (confirmMove st).ok s.case) := by
  simp only [labelAccepts, Bool.and_eq_true, decide_eq_true_eq] at h
  obtain ⟨⟨⟨⟨hdec, hcur⟩, hawaits⟩, happ, hst⟩, hlabels⟩ := h
  unfold confirmLabelWebhook
  rw [if_neg (not_not.mpr hdec), if_neg (by rw [hcur]; exact Bool.noConfusion), if_neg, if_neg,
    if_neg]
  · rfl
  · cases labels with
    | none => exact Bool.noConfusion
    | some ls => simpa using hlabels
  · rw [not_or, not_not]
    refine ⟨fun hnone => ?_, hst⟩
    rw [Option.isNone_iff_eq_none.mp hnone] at happ
    cases happ
  · rintro ⟨h₁, h₂⟩
    simp [CaseState.awaitsLabel, h₁, h₂] at hawaits

/-- The transition is possible as long as the case is as it was loaded. -/
theorem confirmMove_ok (hawaits : st.awaitsLabel = true) (c : Case) :
    (confirmMove st).ok c = decide (c.state = st) := by
  have hallowed : CaseState.remediationApproved ∈ st.allowed false := by
    simp only [CaseState.awaitsLabel, Bool.or_eq_true, decide_eq_true_eq] at hawaits
    rcases hawaits with rfl | rfl
    · decide
    · decide
  rw [Bool.eq_iff_iff]
  simp only [Move.ok, confirmMove, Bool.and_eq_true, decide_eq_true_iff, Option.isNone_none,
    Bool.true_or, and_true]
  exact ⟨fun h => of_decide_eq_true h.1, fun h => ⟨decide_eq_true h, decide_eq_true hallowed⟩⟩

theorem labelAccepts_awaits (h : labelAccepts cfg st id r labels s = true) :
    st.awaitsLabel = true := by
  simp only [labelAccepts, Bool.and_eq_true] at h
  exact h.1.1.2

theorem labelAccepts_status (h : labelAccepts cfg st id r labels s = true) :
    r.deliveryStatus = .labelApplied := by
  simp only [labelAccepts, Bool.and_eq_true, decide_eq_true_eq] at h
  exact h.1.2.2

/-- A confirmation on a copy of the case that is out of date is recorded. -/
theorem lost_of_stale {o : Owner} {t : Txn} (hfrom : t.confirmsFrom = some st)
    (hstale : s.case.state ≠ st) : t.incident o s .confirmationLost = true := by
  show t.confirmsFrom.any (fun st => decide (st ≠ s.case.state)) = true
  rw [hfrom]
  exact decide_eq_true (Ne.symm hstale)

end Confirm

/-! ## The newest round -/

theorem openRequest_some {s : Store} {id : Nat} {r : ApprovalRequest}
    (h : openRequest s = some (id, r)) : s.approvals[id]? = some r ∧ id + 1 = s.approvals.length := by
  unfold openRequest at h
  obtain ⟨r', hr', heq⟩ := Option.map_eq_some_iff.mp h
  cases heq
  have hne : s.approvals ≠ [] := by
    intro hnil
    rw [hnil] at hr'
    cases hr'
  have hpos := List.length_pos_iff.mpr hne
  rw [List.getLast?_eq_getElem?] at hr'
  exact ⟨hr', by omega⟩

theorem openRequest_of_newest {s : Store} {id : Nat} {r : ApprovalRequest}
    (hr : s.approvals[id]? = some r) (hnewest : id + 1 = s.approvals.length) :
    openRequest s = some (id, r) := by
  have hid : id = s.approvals.length - 1 := by omega
  unfold openRequest
  rw [List.getLast?_eq_getElem?, ← hid, hr]
  rfl

/-! ## Processing a delivery -/

/-- An object of a delivery as it was read: its content is that of the row, and what it says
about its processing is past. -/
def EventRead (s : Store) (e : EventObj) : Prop :=
  ∃ row, s.events[e.id]? = some row ∧ row.remediationLabel = e.row.remediationLabel ∧
    row.issueLabels = e.row.issueLabels ∧ ∀ t, e.row.processedAt = some t → t < s.now

section Judged

variable {cfg : Settings} {o : Owner} {t : Txn} {s : Store} {e : EventObj}

/-- The delivery is processed now. -/
theorem eventStep_processed {changed x : WebhookEvent} (hinv : LabelInv cfg s)
    (hpast : ∀ t, e.row.processedAt = some t → t < s.now)
    (hprocessed : changed.processedAt = some s.now) :
    EventStep s x (WebhookEvent.merge e.row changed x) := by
  have hnow : (WebhookEvent.merge e.row changed x).processedAt = some s.now := by
    show pick e.row.processedAt changed.processedAt x.processedAt = some s.now
    rcases pick_eq_or e.row.processedAt changed.processedAt x.processedAt with heq | ⟨heq, -⟩
    · unfold pick at heq ⊢
      split
      · next hsame =>
          rw [hprocessed] at hsame
          exact absurd (hpast _ hsame) (Nat.lt_irrefl _)
      · exact hprocessed
    · exact heq.trans hprocessed
  exact ⟨rfl, rfl, Or.inr hnow, fun _ _ => Or.inr ⟨s.now, hnow, hinv.added⟩⟩

/-- What processing the delivery makes of the deliveries. -/
theorem events_of_processed {changed : WebhookEvent} (hinv : LabelInv cfg s) (hread : EventRead s e)
    (hevents : t.eventWrites = [e.write changed]) (hprocessed : changed.processedAt = some s.now) :
    ∀ (i : Nat) (e' : WebhookEvent),
      (flush WebhookEvent.merge t.eventWrites s.events)[i]? = some e' →
      ∃ x, s.events[i]? = some x ∧ EventStep s x e' ∧ (i ≠ e.id → e' = x) := by
  intro i e' he'
  obtain ⟨-, -, -, -, hpast⟩ := hread
  rw [hevents, flush_cons, flush_nil, List.getElem?_modify] at he'
  obtain ⟨x, hx, heq⟩ := Option.map_eq_some_iff.mp he'
  refine ⟨x, hx, ?_⟩
  split at heq
  · next hi =>
      rw [← heq]
      exact ⟨eventStep_processed hinv hpast hprocessed, fun hne => absurd hi.symm hne⟩
  · subst heq
    exact ⟨.refl s x, fun _ => rfl⟩

/-- The round a transaction confirms keeps its columns. -/
theorem columns_confirmed {s' : Store} {x loaded : ApprovalRequest} {now : Nat}
    (h : x.Columns s') :
    (ApprovalRequest.merge loaded (confirmedRound now loaded) x).Columns s' := by
  have hreq : (ApprovalRequest.merge loaded (confirmedRound now loaded) x).labelRequestedAt =
      x.labelRequestedAt := pick_self _ _
  have happ : (ApprovalRequest.merge loaded (confirmedRound now loaded) x).labelAppliedAt =
      x.labelAppliedAt := pick_self _ _
  rcases pick_eq_or loaded.deliveryStatus (confirmedRound now loaded).deliveryStatus
    x.deliveryStatus with heq | ⟨heq, -⟩
  · have hst : (ApprovalRequest.merge loaded (confirmedRound now loaded) x).deliveryStatus =
        x.deliveryStatus := heq
    refine ⟨?_, ?_, ?_⟩
    · rw [hst, happ]
      exact h.applied
    · rw [hst, happ]
      exact h.failed
    · rw [hreq]
      exact h.requested
  · have hst : (ApprovalRequest.merge loaded (confirmedRound now loaded) x).deliveryStatus =
        .confirmed := heq
    refine ⟨fun hc => ?_, fun hc => ?_, ?_⟩
    · rw [hst] at hc
      cases hc
    · rw [hst] at hc
      cases hc
    · rw [hreq]
      exact h.requested

/-- What is owed stays owed, if no round is written and the delivery was judged wrongly at no
time. -/
theorem owed_of_events {changed : WebhookEvent} (hinv : LabelInv cfg s) (hread : EventRead s e)
    (hevents : t.eventWrites = [e.write changed]) (hprocessed : changed.processedAt = some s.now)
    (hwrites : t.approvalWrites = []) (hnew : t.newApprovals = []) (hmoves : t.moves = [])
    (hreplays : t.replays = none)
    (hclean : ¬ ((Op.commit o t).apply s).hit wedgeIncidents)
    (hother : ∀ id r, Labelled s id r → e.row.confirming cfg = false) {id : Nat}
    {r : ApprovalRequest} (hr : Labelled ((Op.commit o t).apply s) id r) :
    Owed cfg ((Op.commit o t).apply s) id := by
  have happrovals : ((Op.commit o t).apply s).approvals = s.approvals := by
    rw [commit_approvals, hwrites, hnew, flush_nil, List.append_nil]
  have hbefore : Labelled s id r := by
    obtain ⟨hrow, hnewest, happroved, happlied, hpresent, hawaits⟩ := hr
    rw [happrovals] at hrow hnewest
    refine ⟨hrow, hnewest, happroved, happlied, hpresent, ?_⟩
    change (movesEnd t.moves s.case.state).awaitsLabel = true at hawaits
    rw [hmoves] at hawaits
    exact hawaits
  rcases hinv.owed.resolve_left (not_hit_apply hclean).1 id r hbefore
    with hflight | ⟨x, hx, hconf, hst⟩ | ⟨o', ho'⟩
  · exact Or.inl hflight
  · obtain ⟨i, hi, heq⟩ := List.getElem_of_mem hx
    have hlt : i < (flush WebhookEvent.merge t.eventWrites s.events).length := by
      rw [flush_length]
      exact hi
    obtain ⟨x₀, hx₀, hstep, hsame⟩ :=
      events_of_processed hinv hread hevents hprocessed i _ (List.getElem?_eq_getElem hlt)
    rw [List.getElem?_eq_getElem hi, heq] at hx₀
    cases hx₀
    refine Or.inr (Or.inl ⟨_, List.getElem_mem hlt, hstep.confirming.trans hconf, ?_⟩)
    by_cases hid : i = e.id
    · -- the delivery itself would have confirmed the round
      exfalso
      obtain ⟨row, hrow, hlabel, hlabels, -⟩ := hread
      rw [← hid, List.getElem?_eq_getElem hi, heq] at hrow
      cases hrow
      have hno := hother id r hbefore
      unfold WebhookEvent.confirming WebhookEvent.carriesLabel at hno hconf
      rw [← hlabel, ← hlabels, hconf] at hno
      cases hno
    · rw [hsame hid]
      exact hst
  · refine Or.inr (Or.inr ⟨o', List.mem_append_left _ (List.mem_filter.mpr ⟨ho', ?_⟩)⟩)
    simp [hreplays]

/-- A labelled round, judged on an up-to-date copy of the case, accepts every delivery that
carries the label. -/
theorem accepts_of_labelled {st : CaseState} {id : Nat} {r : ApprovalRequest} (hinv : LabelInv cfg s)
    (hr : Labelled s id r) (hst : st = s.case.state)
    (hcurrent : isCurrentRequest s.approvals s.core.attempts id r = true)
    {labels : Option (List String)}
    (hlabels : labels.all (fun ls => decide (cfg.remediationLabel ∈ ls)) = true) :
    labelAccepts cfg st id r labels s = true := by
  have happ := (hinv.columns id r hr.row).applied hr.applied
  unfold labelAccepts
  rw [hcurrent, hst, hr.awaits, happ, hlabels, hr.approved, hr.applied]
  rfl

/-- The verdict on a delivery is wrong only with an incident. -/
theorem judged_right {st : Option CaseState} {current : Bool}
    (hjudges : t.judges = some (st, current))
    (hclean : ¬ ((Op.commit o t).apply s).hit wedgeIncidents)
    (hawaits : s.case.state.awaitsLabel = true) : st = some s.case.state ∧ current = true := by
  have hno : t.incident o s .misjudged = false := (not_hit_apply hclean).2 .misjudged (by decide)
  have hno : (t.judges.any (fun x => s.case.state.awaitsLabel &&
    (decide (x.1 ≠ some s.case.state) || !x.2))) = false := hno
  rw [hjudges] at hno
  simp only [Option.any_some, hawaits, Bool.true_and, Bool.or_eq_false_iff, decide_eq_false_iff_not,
    not_not, Bool.not_eq_false'] at hno
  exact hno

theorem confirmed_labelTxn {st : CaseState} {id : Nat} {r : ApprovalRequest}
    {changed : WebhookEvent} (hinv : LabelInv cfg s) (hread : EventRead s e)
    (hround : openRequest s = some (id, r))
    (hacc : labelAccepts cfg st id r e.row.issueLabels s = true)
    (hevents : t.eventWrites = [e.write changed]) (hprocessed : changed.processedAt = some s.now)
    (hwrites : t.approvalWrites = [⟨id, r, confirmedRound s.now r⟩]) (hnew : t.newApprovals = [])
    (hfrom : t.confirmsFrom = some st)
    (hmoves : t.moves = if (confirmMove st).ok s.case then [confirmMove st] else []) :
    LabelTxn cfg o t s := by
  obtain ⟨hrow, hnewest⟩ := openRequest_some hround
  have hokiff := confirmMove_ok (labelAccepts_awaits hacc) s.case
  refine ⟨?_, fun i q' hq' => ?_, ?_, fun i e' he' => ?_, fun hclean i q hq => ?_⟩
  · rw [hnew]
    exact List.forall_mem_nil _
  · rw [hwrites, flush_cons, flush_nil, List.getElem?_modify] at hq'
    obtain ⟨q, hq, heq⟩ := Option.map_eq_some_iff.mp hq'
    refine ⟨q, hq, fun hc => ?_⟩
    rw [← heq]
    split
    · exact columns_confirmed hc
    · exact hc
  · by_cases hwon : (confirmMove st).ok s.case = true
    · refine Or.inl ?_
      show t.moves.any _ = true
      rw [hmoves, if_pos hwon]
      rfl
    · refine Or.inr (fun _ _ _ _ => Or.inl (hit_commit (by decide) (lost_of_stale hfrom ?_)))
      rw [hokiff, decide_eq_true_iff] at hwon
      exact hwon
  · obtain ⟨x, hx, hstep, -⟩ := events_of_processed hinv hread hevents hprocessed i e' he'
    exact ⟨x, hx, hstep⟩
  · -- the newest round is confirmed, so it waits for nothing
    exfalso
    have hnewest' := hq.newest
    have hq' := hq.row
    rw [commit_approvals, hnew, List.append_nil, hwrites, flush_single _ hrow] at hnewest' hq'
    rw [List.length_set] at hnewest'
    have hid : id = i := by omega
    have hlt := (List.getElem?_eq_some_iff.mp hrow).1
    rw [← hid, List.getElem?_set, if_pos rfl, if_pos hlt] at hq'
    have happlied := hq.applied
    rw [← Option.some.inj hq'] at happlied
    have hst : (ApprovalRequest.merge r (confirmedRound s.now r) r).deliveryStatus = .confirmed :=
      pick_row _ _
    rw [hst] at happlied
    cases happlied

theorem refused_labelTxn {st : Option CaseState} {current : Bool} {changed : WebhookEvent}
    (hinv : LabelInv cfg s) (hread : EventRead s e)
    (hjudges : t.judges = some (st, current))
    (hround : ∀ id r, Labelled s id r → current = true →
      isCurrentRequest s.approvals s.core.attempts id r = true)
    (hrefused : ∀ id r, Labelled s id r → ∀ st', st = some st' →
      labelAccepts cfg st' id r e.row.issueLabels s = false)
    (hevents : t.eventWrites = [e.write changed]) (hprocessed : changed.processedAt = some s.now)
    (hwrites : t.approvalWrites = []) (hnew : t.newApprovals = []) (hmoves : t.moves = [])
    (hreplays : t.replays = none) : LabelTxn cfg o t s := by
  refine ⟨?_, fun i q' hq' => ?_, Or.inr (fun i q' hq' hc => ?_), fun i e' he' => ?_,
    fun hclean i q hq => ?_⟩
  · rw [hnew]
    exact List.forall_mem_nil _
  · rw [hwrites, flush_nil] at hq'
    exact ⟨q', hq', fun hc => hc⟩
  · rw [hwrites, flush_nil] at hq'
    exact Or.inr ⟨q', hq', hc⟩
  · obtain ⟨x, hx, hstep, -⟩ := events_of_processed hinv hread hevents hprocessed i e' he'
    exact ⟨x, hx, hstep⟩
  · refine owed_of_events hinv hread hevents hprocessed hwrites hnew hmoves hreplays hclean
      (fun id r hr => ?_) hq
    obtain ⟨hst, hcurrent⟩ := judged_right hjudges hclean hr.awaits
    by_contra hconf
    have hlabels : e.row.issueLabels.all (fun ls => decide (cfg.remediationLabel ∈ ls)) = true := by
      have hconf := Bool.not_eq_false _ ▸ hconf
      unfold WebhookEvent.confirming at hconf
      exact (Bool.and_eq_true _ _ ▸ hconf).2
    have hacc := accepts_of_labelled hinv hr rfl (hround id r hr hcurrent) hlabels
    rw [hrefused id r hr _ hst] at hacc
    cases hacc

end Judged

/-! ## The replay -/

/-- The object after a confirmation. -/
def RequestObj.confirm (now : Nat) (x : RequestObj) : RequestObj := x.set (confirmedRound now x.row)

section Replay

variable {cfg : Settings} {st : CaseState} {s : Store}

/-- A round that is confirmed already accepts nothing. -/
theorem replayLoop_refused (es : List WebhookEvent) {x : RequestObj}
    (h : ∀ e ∈ es, labelAccepts cfg st x.id x.row e.issueLabels s = false) :
    replayLoop cfg st s es x = (none, x) := by
  induction es with
  | nil => rfl
  | cons e es ih =>
      unfold replayLoop
      rw [confirm_refused (h e List.mem_cons_self)]
      exact ih (fun e' he' => h e' (List.mem_cons_of_mem _ he'))

/-- The first delivery that is accepted confirms the round; when its transition is lost, the
object keeps the confirmation and the loop goes on for nothing. -/
theorem replayLoop_accepted (es : List WebhookEvent) {x : RequestObj}
    (h : ∃ e ∈ es, labelAccepts cfg st x.id x.row e.issueLabels s = true) :
    if (confirmMove st).ok s.case then
      replayLoop cfg st s es x = (some { approvalWrites := [⟨x.id, x.row, confirmedRound s.now x.row⟩]
                                         confirmsFrom := some st
                                         moves := [confirmMove st]
                                         newOutbox := statusUpdate x.id x.row }, x.confirm s.now)
    else replayLoop cfg st s es x = (none, x.confirm s.now) := by
  induction es with
  | nil =>
      obtain ⟨e, he, -⟩ := h
      cases he
  | cons e es ih =>
      unfold replayLoop
      by_cases hacc : labelAccepts cfg st x.id x.row e.issueLabels s = true
      · rw [confirm_accepted hacc]
        split
        · next hok =>
            rw [hok]
            rfl
        · next hok =>
            rw [Bool.eq_false_iff.mpr hok]
            refine replayLoop_refused es (fun e' _ => ?_)
            simp [labelAccepts, RequestObj.set, confirmedRound]
      · have hacc := Bool.eq_false_iff.mpr hacc
        obtain ⟨e', he', hacc'⟩ := h
        rw [confirm_refused hacc]
        refine ih ⟨e', ?_, hacc'⟩
        rcases List.mem_cons.mp he' with rfl | he'
        · rw [hacc] at hacc'
          cases hacc'
        · exact he'

end Replay

end Remediator
