import Remediator.Rounds.Confirmation

set_option autoImplicit false

/-! # Delivering the label

The two jobs that are not plain, followed with what they know: an object of a round remembers
when the label was requested, and an object of a delivery what the delivery says. Such facts
last, whatever the others do. Together with the plain jobs this is the whole system.
-/

namespace Remediator

open Interleave

/-! ## Proof rules -/

/-- No operation ends the fact. -/
def Lasting (F : Store → Prop) : Prop := ∀ (s : Store) (op : Op), F s → F (op.apply s)

/-- Every operation keeps the invariant. -/
def labelContract (cfg : Settings) : Contract Store Op where
  inv := LabelInv cfg
  allowed := fun _ s op => LabelInv cfg (op.apply s)

abbrev Serves (cfg : Settings) (o : Owner) {α : Type} (p : P α) (A : Store → Prop)
    (Q : α → Store → Prop) (E : Err → Store → Prop) : Prop :=
  Safe (system cfg) (labelContract cfg) o p A Q E

section Rules

variable {cfg : Settings} {o : Owner} {α β : Type} {A : Store → Prop} {Q : α → Store → Prop}
  {E : Err → Store → Prop}

theorem Lasting.stable {F : Store → Prop} (h : Lasting F) :
    Stable (system cfg) (labelContract cfg) o F :=
  fun s op _ hF _ => h s op hF

theorem Lasting.true : Lasting (fun _ => True) := fun _ _ _ => trivial

theorem Lasting.and {F G : Store → Prop} (hF : Lasting F) (hG : Lasting G) :
    Lasting (fun s => F s ∧ G s) :=
  fun s op h => ⟨hF s op h.1, hG s op h.2⟩

theorem Lasting.imp {p : Prop} {F : Store → Prop} (hF : p → Lasting F) :
    Lasting (fun s => p → F s) :=
  fun s op h hp => hF hp s op (h hp)

theorem Serves.tx {body : Input → Store → Except Err (Txn × α)} (hQ : ∀ a, Lasting (Q a))
    (hE : ∀ e, Lasting (E e))
    (hraise : ∀ i s e, A s → Txn.outcome body i s = .error e → E e (Op.skip.apply s))
    (h : ∀ i s t a, LabelInv cfg s → A s → body i s = .ok (t, a) →
      LabelTxn cfg o t s ∧ Q a ((Op.commit o t).apply s)) :
    Serves cfg o (Remediator.tx o body) A Q E := by
  intro i s hinv hA
  have hinv : LabelInv cfg s := hinv
  dsimp only
  cases hout : Txn.outcome body i s with
  | error e =>
      refine ⟨?_, E e, (hE e).stable, hraise i s e hA hout, fun _ _ h => h⟩
      exact (.internal rfl : PlainOp s .skip).apply hinv
  | ok x =>
      obtain ⟨htxn, hpost⟩ := h i s x.1 x.2 hinv hA (outcome_ok hout).1
      exact ⟨hinv.commit htxn, Q x.2, (hQ x.2).stable, hpost, fun _ _ h => h⟩

/-- When exceptions say nothing. -/
theorem Serves.txn {body : Input → Store → Except Err (Txn × α)} (hQ : ∀ a, Lasting (Q a))
    (h : ∀ i s t a, LabelInv cfg s → A s → body i s = .ok (t, a) →
      LabelTxn cfg o t s ∧ Q a ((Op.commit o t).apply s)) :
    Serves cfg o (Remediator.tx o body) A Q (fun _ _ => True) :=
  .tx hQ (fun _ => Lasting.true) (fun _ _ _ _ _ => trivial) h

theorem Serves.bind {p : P α} {k : α → P β} {R : β → Store → Prop} (hp : Serves cfg o p A Q E)
    (hk : ∀ a, Serves cfg o (k a) (Q a) R E) : Serves cfg o (p >>= k) A R E :=
  Safe.bind hp hk

theorem Serves.ret {a : α} (h : ∀ s, LabelInv cfg s → A s → Q a s) :
    Serves cfg o (.ret a) A Q E := h

/-- A plain program, with a fact that lasts. -/
theorem Plainly.serves {p : P α} {Q : α → Prop} (h : Plainly Q p) (hA : Lasting A) :
    Serves cfg o p A (fun a s => Q a ∧ A s) (fun _ s => A s) := by
  have hsafe : Safe (system cfg) (labelContract cfg) o p (fun _ => True) (fun a _ => Q a)
      (fun _ _ => True) :=
    Safe.of_each (fun s op hinv hop => hop.apply hinv) h
  refine (hsafe.keep hA.stable (fun s op _ hs _ => hA s op hs)).conseq (fun _ _ hs => ⟨trivial, hs⟩)
    (fun _ _ _ hs => hs) (fun _ _ _ hs => hs.2)

/-- A plain program where nothing has to be remembered. -/
theorem Plainly.served {p : P α} {Q : α → Prop} (h : Plainly Q p) :
    Serves cfg o p A (fun a _ => Q a) (fun _ _ => True) :=
  (Safe.of_each (fun _ _ hinv hop => PlainOp.apply hop hinv) h).pre (fun _ _ _ => trivial)

end Rules

/-! ## Facts about objects -/

theorem event_lasts {s : Store} (op : Op) {i : Nat} {e : WebhookEvent} (h : s.events[i]? = some e) :
    ∃ e', (op.apply s).events[i]? = some e' ∧ e'.remediationLabel = e.remediationLabel ∧
      e'.issueLabels = e.issueLabels := by
  cases op with
  | commit o t =>
      exact flush_rel WebhookEvent.merge
        (R := fun e e' : WebhookEvent => e'.remediationLabel = e.remediationLabel ∧
          e'.issueLabels = e.issueLabels)
        (fun _ => ⟨rfl, rfl⟩) (fun _ _ _ h h' => ⟨h'.1.trans h.1, h'.2.trans h.2⟩)
        (fun _ _ _ _ => ⟨rfl, rfl⟩) h
  | receive e' =>
      refine ⟨e, ?_, rfl, rfl⟩
      show (s.events ++ [e'])[i]? = some e
      rw [List.getElem?_append_left (List.getElem?_eq_some_iff.mp h).1, h]
  | deliver e' =>
      refine ⟨e, ?_, rfl, rfl⟩
      show (s.events ++ [e'])[i]? = some e
      rw [List.getElem?_append_left (List.getElem?_eq_some_iff.mp h).1, h]
  | heartbeat o n =>
      refine ⟨if e.claimedBy = some o then { e with leaseExpiresAt := some (s.now + n) } else e,
        ?_, ?_, ?_⟩
      · show (s.events.map _)[i]? = _
        rw [List.getElem?_map, h]
        rfl
      · split
        · rfl
        · rfl
      · split
        · rfl
        · rfl
  | _ => exact ⟨e, h, rfl, rfl⟩

theorem eventRead_lasting (e : EventObj) : Lasting (fun s => EventRead s e) := by
  rintro s op ⟨row, hrow, hlabel, hlabels, hpast⟩
  obtain ⟨row', hrow', hl, hls⟩ := event_lasts op hrow
  exact ⟨row', hrow', hl.trans hlabel, hls.trans hlabels,
    fun t ht => Nat.lt_of_lt_of_le (hpast t ht) (now_le_apply op s)⟩

/-- The delivery is not one of the remediation label. -/
def Unlabelled (s : Store) (id : Nat) : Prop :=
  ∃ row, s.events[id]? = some row ∧ row.remediationLabel = false

theorem unlabelled_lasting (id : Nat) : Lasting (fun s => Unlabelled s id) := by
  rintro s op ⟨row, hrow, hlabel⟩
  obtain ⟨row', hrow', hl, -⟩ := event_lasts op hrow
  exact ⟨row', hrow', hl.trans hlabel⟩

/-- The round of the session, as it was loaded. -/
structure Loaded (s : Store) (r : RequestObj) : Prop where
  same : r.loaded = r.row
  decision : r.row.decision = .approved
  columns : r.row.Columns s

theorem loaded_lasting (r : RequestObj) : Lasting (fun s => Loaded s r) :=
  fun _ op h => ⟨h.same, h.decision, h.columns.apply op⟩

/-- The label of the round is to be applied. -/
structure ToLabel (s : Store) (r : RequestObj) : Prop where
  same : r.loaded = r.row
  decision : r.row.decision = .approved
  applied : r.row.labelAppliedAt = none
  status : r.row.deliveryStatus ≠ .labelApplied
  requested : s.hit wedgeIncidents ∨ RequestedBefore s r.row.labelRequestedAt

theorem toLabel_lasting (r : RequestObj) : Lasting (fun s => ToLabel s r) :=
  fun _ op h => ⟨h.same, h.decision, h.applied, h.status,
    h.requested.imp (hit_apply op) (fun hr => hr.apply op)⟩

/-- The label of the round was applied, and deliveries are to be replayed. -/
structure ToReplay (s : Store) (r : RequestObj) : Prop where
  same : r.loaded = r.row
  decision : r.row.decision = .approved
  applied : r.row.labelAppliedAt.isSome = true
  status : r.row.deliveryStatus = .labelApplied
  requested : s.hit wedgeIncidents ∨ RequestedBefore s r.row.labelRequestedAt

theorem toReplay_lasting (r : RequestObj) : Lasting (fun s => ToReplay s r) :=
  fun _ op h => ⟨h.same, h.decision, h.applied, h.status,
    h.requested.imp (hit_apply op) (fun hr => hr.apply op)⟩

/-- What the session has changed since its last commit. -/
structure HeldBack (s : Store) (x : RequestObj × List (Write ApprovalRequest)) : Prop where
  round : x.1.write.Carried s
  also : ∀ w ∈ x.2, w.Carried s

theorem heldBack_lasting (x : RequestObj × List (Write ApprovalRequest)) :
    Lasting (fun s => HeldBack s x) :=
  fun _ op h => ⟨h.round.apply op, fun w hw => (h.also w hw).apply op⟩

theorem heldBack_of_same {s : Store} {r : RequestObj} (h : r.loaded = r.row) :
    HeldBack s (r, []) := by
  refine ⟨⟨?_, ?_, Or.inl ?_, Or.inl ?_⟩, List.forall_mem_nil _⟩
  · exact congrArg ApprovalRequest.labelRequestedAt h.symm
  · exact congrArg ApprovalRequest.labelAppliedAt h.symm
  · exact congrArg ApprovalRequest.deliveryStatus h.symm
  · exact congrArg ApprovalRequest.decision h.symm

/-! ## The dispatcher -/

section Dispatcher

variable (d : Dispatcher)

/-- The time of the request is committed before the label is added. -/
theorem rowStep_requested {o : Owner} {t : Txn} {s : Store} {r : RequestObj} (h : r.loaded = r.row)
    (hwrites : t.approvalWrites =
      [(r.set { r.row with labelRequestedAt := some s.now }).write]) (x : ApprovalRequest) :
    RowStep ((Op.commit o t).apply s) r.id x (ApprovalRequest.merge r.loaded
      { r.row with labelRequestedAt := some s.now } x) := by
  rw [h]
  have happ : (ApprovalRequest.merge r.row { r.row with labelRequestedAt := some s.now }
      x).labelAppliedAt = x.labelAppliedAt := pick_self _ _
  have hst : (ApprovalRequest.merge r.row { r.row with labelRequestedAt := some s.now }
      x).deliveryStatus = x.deliveryStatus := pick_self _ _
  have hdec : (ApprovalRequest.merge r.row { r.row with labelRequestedAt := some s.now }
      x).decision = x.decision := pick_self _ _
  refine ⟨fun hc => ⟨?_, ?_, ?_⟩, fun hd ha => Or.inl ⟨hdec ▸ hd, hst ▸ ha⟩,
    fun hc => Or.inr (hst ▸ hc)⟩
  · rw [hst, happ]
    exact hc.applied
  · rw [hst, happ]
    exact hc.failed
  · rcases pick_eq_or r.row.labelRequestedAt (some s.now) x.labelRequestedAt with heq | ⟨heq, hne⟩
    · have heq : (ApprovalRequest.merge r.row { r.row with labelRequestedAt := some s.now }
          x).labelRequestedAt = x.labelRequestedAt := heq
      rw [heq]
      exact hc.requested
    · have heq : (ApprovalRequest.merge r.row { r.row with labelRequestedAt := some s.now }
          x).labelRequestedAt = some s.now := heq
      rw [heq]
      by_cases hpresent : s.label.present = true
      · -- a label that is on the issue already gives no new delivery
        refine Or.inl (hit_commit (k := .labelPresent) (by decide) ?_)
        show (s.label.present && t.approvalWrites.any _) = true
        rw [hpresent, hwrites, Bool.true_and, List.any_cons, List.any_nil, Bool.or_false]
        refine decide_eq_true ?_
        show r.loaded.labelRequestedAt ≠ some s.now
        rw [h]
        exact hne
      · refine Or.inr (fun τ hτ => ?_)
        cases hτ
        exact ⟨Nat.lt_succ_self _, fun hp => absurd hp hpresent⟩

theorem commitRequested_serves (cfg : Settings) (r : RequestObj) :
    Serves cfg d.owner (d.commit r [] (fun _ s => { r.row with labelRequestedAt := some s.now }))
      (fun s => ToLabel s r) (fun r' s => ToLabel s r') (fun _ _ => True) := by
  refine .txn toLabel_lasting (fun i s t r' hinv hr hbody => ?_)
  cases hbody
  refine ⟨Txn.Plain.labelTxn ⟨List.forall_mem_nil _, rounds_of_writes (fun w hw x => ?_),
    events_of_open (Or.inl rfl), List.forall_mem_nil _, rfl⟩ hinv, ?_⟩
  · rw [List.mem_singleton.mp hw]
    exact rowStep_requested hr.same rfl x
  · refine ⟨rfl, hr.decision, hr.applied, hr.status, ?_⟩
    by_cases hpresent : s.label.present = true
    · by_cases hsame : r.row.labelRequestedAt = some s.now
      · refine hr.requested.imp (hit_apply _) (fun hb => ?_)
        exact absurd (hb s.now hsame).1 (Nat.lt_irrefl _)
      · refine Or.inl (hit_commit (k := .labelPresent) (by decide) ?_)
        show (s.label.present && List.any [_] _) = true
        rw [hpresent, Bool.true_and, List.any_cons, List.any_nil, Bool.or_false]
        refine decide_eq_true ?_
        show r.loaded.labelRequestedAt ≠ some s.now
        rw [hr.same]
        exact hsame
    · refine Or.inr (fun τ hτ => ?_)
      cases hτ
      exact ⟨Nat.lt_succ_self _, fun hp => absurd hp hpresent⟩

theorem addLabel_plainly (cfg : Settings) : Plainly (fun _ => True) (addLabel cfg) := by
  refine Plainly.bind (Calmly.plainly (.getIssue cfg)) (fun issue _ => ?_)
  split
  · trivial
  · split
    · trivial
    · split
      · trivial
      · intro i s
        refine ⟨.internal ?_, ?_⟩
        · dsimp only
          split
          · rfl
          · split
            · rfl
            · rfl
        · dsimp only
          unfold unlessFault
          split
          · trivial
          · trivial

theorem requestLabel_serves (cfg : Settings) (r : RequestObj) (labels : List String) :
    Serves cfg d.owner (d.requestLabel r labels) (fun s => ToLabel s r)
      (fun x s => ∀ r', x = .inl r' → ToLabel s r') (fun _ _ => True) := by
  unfold Dispatcher.requestLabel
  split
  · refine .ret (fun s _ hr r' hr' => ?_)
    cases hr'
    exact hr
  · refine Serves.bind (commitRequested_serves d cfg r) (fun r => ?_)
    refine Serves.bind (Safe.conseq ((addLabel_plainly d.cfg).serves (toLabel_lasting r))
      (fun _ _ h => h) (fun _ _ _ h => h) (fun _ _ _ _ => trivial)) (fun answer => ?_)
    refine .ret (fun s _ hr => taken_kept hr.2 answer)

/-- The label is on the issue: the round has to be served from now on. -/
theorem rowStep_applied {o : Owner} {t : Txn} {s : Store} {r : RequestObj} (h : r.loaded = r.row)
    (happ : r.row.labelAppliedAt = none) (hstatus : r.row.deliveryStatus ≠ .labelApplied)
    (hwrites : t.approvalWrites = [(r.set { r.row with
      labelAppliedAt := some s.now, deliveryStatus := .labelApplied }).write])
    (x : ApprovalRequest) :
    RowStep ((Op.commit o t).apply s) r.id x (ApprovalRequest.merge r.loaded
      { r.row with labelAppliedAt := some s.now, deliveryStatus := .labelApplied } x) := by
  rw [h]
  have hreq : (ApprovalRequest.merge r.row { r.row with
      labelAppliedAt := some s.now, deliveryStatus := .labelApplied } x).labelRequestedAt =
      x.labelRequestedAt := pick_self _ _
  have happ' : (ApprovalRequest.merge r.row { r.row with
      labelAppliedAt := some s.now, deliveryStatus := .labelApplied } x).labelAppliedAt =
      some s.now := by
    show pick r.row.labelAppliedAt (some s.now) x.labelAppliedAt = some s.now
    rw [happ]
    rfl
  have hst : (ApprovalRequest.merge r.row { r.row with
      labelAppliedAt := some s.now, deliveryStatus := .labelApplied } x).deliveryStatus =
      .labelApplied := by
    show pick r.row.deliveryStatus .labelApplied x.deliveryStatus = .labelApplied
    unfold pick
    rw [if_neg hstatus]
  refine ⟨fun hc => ⟨fun _ => ?_, fun hf => ?_, ?_⟩, fun _ _ => Or.inr ⟨o, ?_⟩, fun hc => ?_⟩
  · rw [happ']
    rfl
  · rw [hst] at hf
    cases hf
  · rw [hreq]
    exact hc.requested
  · rw [commit_replaying]
    refine List.mem_append_right _ (List.mem_map.mpr ⟨(r.set { r.row with
      labelAppliedAt := some s.now, deliveryStatus := .labelApplied }).write,
      List.mem_filter.mpr ⟨?_, ?_⟩, rfl⟩)
    · rw [hwrites]
      exact List.mem_singleton.mpr rfl
    · show (r.loaded.labelAppliedAt.isNone && _) = true
      rw [h, happ]
      rfl
  · rw [hst] at hc
    cases hc

theorem commitApplied_serves (cfg : Settings) (r : RequestObj) :
    Serves cfg d.owner (d.commit r [] (fun _ s => { r.row with
        labelAppliedAt := some s.now, deliveryStatus := .labelApplied }))
      (fun s => ToLabel s r) (fun r' s => ToReplay s r') (fun _ _ => True) := by
  refine .txn toReplay_lasting (fun i s t r' hinv hr hbody => ?_)
  cases hbody
  refine ⟨Txn.Plain.labelTxn ⟨List.forall_mem_nil _, rounds_of_writes (fun w hw x => ?_),
    events_of_open (Or.inl rfl), List.forall_mem_nil _, rfl⟩ hinv, ?_⟩
  · rw [List.mem_singleton.mp hw]
    exact rowStep_applied hr.same hr.applied hr.status rfl x
  · exact ⟨rfl, hr.decision, rfl, rfl, hr.requested.imp (hit_apply _) (fun hb => hb.apply _)⟩

/-! ## The replay -/

/-- The target of a replay is an object without changes. -/
theorem replayTarget_same {r : RequestObj} (h : r.loaded = r.row) (s : Store) :
    (replayTarget r s).loaded = (replayTarget r s).row := by
  unfold replayTarget
  split
  · split
    · exact h
    · rfl
  · exact h

/-- A replay that confirms the round. -/
theorem replayWon_labelTxn {cfg : Settings} {o : Owner} {t : Txn} {s : Store} {x : RequestObj}
    {st : CaseState} (hsame : x.loaded = x.row)
    (hwrites : t.approvalWrites = [(x.confirm s.now).write]) (hnew : t.newApprovals = [])
    (hevents : t.eventWrites = []) (hmoves : t.moves = [confirmMove st]) : LabelTxn cfg o t s := by
  refine ⟨?_, fun i q' hq' => ?_, Or.inl ?_, fun i e' he' => ?_, fun _ i q hq => ?_⟩
  · rw [hnew]
    exact List.forall_mem_nil _
  · rw [hwrites, flush_cons, flush_nil, List.getElem?_modify] at hq'
    obtain ⟨q, hq, heq⟩ := Option.map_eq_some_iff.mp hq'
    refine ⟨q, hq, fun hc => ?_⟩
    rw [← heq]
    split
    · show (ApprovalRequest.merge x.loaded (confirmedRound s.now x.row) q).Columns _
      rw [hsame]
      exact columns_confirmed hc
    · exact hc
  · show t.moves.any _ = true
    rw [hmoves]
    rfl
  · rw [hevents, flush_nil] at he'
    exact ⟨e', he', .refl s e'⟩
  · -- the case does not wait any more
    have hawaits := hq.awaits
    change (movesEnd t.moves s.case.state).awaitsLabel = true at hawaits
    rw [hmoves] at hawaits
    cases hawaits

/-- A replay that confirms nothing: had there been a delivery to confirm the round, it would
have been found. -/
theorem replayIdle_labelTxn {cfg : Settings} {o : Owner} {t : Txn} {s : Store} {r : RequestObj}
    {st : CaseState} (hinv : LabelInv cfg s) (hr : ToReplay s r)
    (hwrites : t.approvalWrites = []) (hnew : t.newApprovals = []) (hevents : t.eventWrites = [])
    (hmoves : t.moves = []) (hreplays : t.replays = some r.id)
    (hjudges : s.events.filter (replayable (r.row.labelRequestedAt.getD 0)) ≠ [] →
      t.judges = some (some st, isCurrentRequest s.approvals s.core.attempts
        (replayTarget r s).id (replayTarget r s).row))
    (hidle : (∃ e ∈ s.events.filter (replayable (r.row.labelRequestedAt.getD 0)),
      labelAccepts cfg st (replayTarget r s).id (replayTarget r s).row e.issueLabels s = true) →
      (confirmMove st).ok s.case = false) : LabelTxn cfg o t s := by
  have happrovals : ((Op.commit o t).apply s).approvals = s.approvals := by
    rw [commit_approvals, hwrites, hnew, flush_nil, List.append_nil]
  refine ⟨?_, fun i q' hq' => ?_, Or.inr (fun i q' hq' hc => ?_), fun i e' he' => ?_,
    fun hclean id q hq => ?_⟩
  · rw [hnew]
    exact List.forall_mem_nil _
  · rw [hwrites, flush_nil] at hq'
    exact ⟨q', hq', fun hc => hc⟩
  · rw [hwrites, flush_nil] at hq'
    exact Or.inr ⟨q', hq', hc⟩
  · rw [hevents, flush_nil] at he'
    exact ⟨e', he', .refl s e'⟩
  · have hbefore : Labelled s id q := by
      obtain ⟨hrow, hnewest, happroved, happlied, hpresent, hawaits⟩ := hq
      rw [happrovals] at hrow hnewest
      refine ⟨hrow, hnewest, happroved, happlied, hpresent, ?_⟩
      change (movesEnd t.moves s.case.state).awaitsLabel = true at hawaits
      rw [hmoves] at hawaits
      exact hawaits
    have hclean' := (not_hit_apply hclean).1
    have hev : ((Op.commit o t).apply s).events = s.events := by
      rw [commit_events, hevents, flush_nil]
    unfold Owed
    rw [hev, commit_replaying, commit_label]
    rcases hinv.owed.resolve_left hclean' id q hbefore with hflight | hevent | ⟨o', ho'⟩
    · exact Or.inl hflight
    · exact Or.inr (Or.inl hevent)
    · by_cases hown : o' = o ∧ r.id = id
      · -- this thread was to serve the round
        obtain ⟨rfl, hid⟩ := hown
        rcases hinv.emitted hbefore.present with hflight | ⟨e, he, hconf, hopen | ⟨τ, hτ, hadded⟩⟩
        · exact Or.inl hflight
        · exact Or.inr (Or.inl ⟨e, he, hconf, hopen⟩)
        · by_cases hst : e.status = .processed
          swap
          · exact Or.inr (Or.inl ⟨e, he, hconf, hst⟩)
          exfalso
          obtain ⟨hlabel, hlabels⟩ := Bool.and_eq_true _ _ ▸ hconf
          have hsince : r.row.labelRequestedAt.getD 0 ≤ τ := by
            cases hreq : r.row.labelRequestedAt with
            | none => exact Nat.zero_le _
            | some since =>
                have hb := hr.requested.resolve_left hclean' since hreq
                exact Nat.le_trans (hb.2 hbefore.present) hadded
          have hmem : e ∈ s.events.filter (replayable (r.row.labelRequestedAt.getD 0)) := by
            refine List.mem_filter.mpr ⟨he, ?_⟩
            simp only [replayable, hlabel, hst, hτ, decide_true, Bool.true_and, Option.any_some,
              decide_eq_true_eq]
            exact hsince
          have htarget : replayTarget r s = r := by
            unfold replayTarget
            rw [openRequest_of_newest hbefore.row hbefore.newest]
            exact if_pos hid.symm
          have hj := hjudges (List.ne_nil_of_mem hmem)
          obtain ⟨hstate, hcurrent⟩ := judged_right hj hclean hbefore.awaits
          rw [htarget] at hcurrent hidle
          have hacc : labelAccepts cfg st r.id r.row e.issueLabels s = true := by
            unfold labelAccepts
            rw [hcurrent, Option.some.inj hstate, hbefore.awaits, hr.applied, hr.decision, hr.status]
            exact hlabels
          have hlost := hidle ⟨e, hmem, hacc⟩
          rw [confirmMove_ok (labelAccepts_awaits hacc), decide_eq_false_iff_not] at hlost
          exact hlost (Option.some.inj hstate).symm
      · refine Or.inr (Or.inr ⟨o', List.mem_append_left _ (List.mem_filter.mpr ⟨ho', ?_⟩)⟩)
        rw [hreplays]
        simpa [imp_iff_not_or] using hown

/-- The object that is left when the confirmation lost its transition. -/
theorem carried_lost {s : Store} {x : RequestObj} (hsame : x.loaded = x.row)
    (hlost : s.hit lossOfConfirmation) (now : Nat) : (x.confirm now).write.Carried s where
  requested := by
    show x.row.labelRequestedAt = x.loaded.labelRequestedAt
    rw [hsame]
  applied := by
    show x.row.labelAppliedAt = x.loaded.labelAppliedAt
    rw [hsame]
  status := Or.inr ⟨rfl, hlost⟩
  decision := by
    refine Or.inl ?_
    show x.row.decision = x.loaded.decision
    rw [hsame]

/-- What a replay leaves. -/
def Replayed (s : Store) (x : RequestObj × List (Write ApprovalRequest)) : Prop :=
  HeldBack s x ∧ x.1.row.deliveryStatus ≠ .failed

theorem replayed_lasting (x : RequestObj × List (Write ApprovalRequest)) :
    Lasting (fun s => Replayed s x) :=
  fun s op h => ⟨heldBack_lasting x s op h.1, h.2⟩

/-- The object of another round is committed along with the round that is delivered. -/
theorem replayed_of {s : Store} {r x : RequestObj} (hr : ToReplay s r) (hx : x.write.Carried s)
    (hfailed : x.id = r.id → x.row.deliveryStatus ≠ .failed) :
    Replayed s (if x.id = r.id then (x, []) else (r, [x.write])) := by
  split
  · next hid => exact ⟨⟨hx, List.forall_mem_nil _⟩, hfailed hid⟩
  · refine ⟨⟨(heldBack_of_same hr.same).round, fun w hw => ?_⟩, ?_⟩
    · rw [List.mem_singleton.mp hw]
      exact hx
    · rw [hr.status]
      exact DeliveryStatus.noConfusion

theorem replayTarget_failed {s : Store} {r : RequestObj} (hr : ToReplay s r)
    (hid : (replayTarget r s).id = r.id) : (replayTarget r s).row.deliveryStatus ≠ .failed := by
  have hfailed : r.row.deliveryStatus ≠ .failed := by
    rw [hr.status]
    exact DeliveryStatus.noConfusion
  unfold replayTarget at hid ⊢
  split
  · next id row hopen =>
      rw [hopen] at hid
      dsimp only at hid
      split
      · exact hfailed
      · next hne =>
          rw [if_neg hne] at hid
          exact absurd hid hne
  · exact hfailed

theorem replay_serves (r : RequestObj) (st : CaseState) :
    Serves d.cfg d.owner (d.replay r st) (fun s => ToReplay s r) (fun x s => Replayed s x)
      (fun _ _ => True) := by
  refine .txn replayed_lasting (fun i s t x hinv hr hbody => ?_)
  extract_lets events target judges at hbody
  have hsame : target.loaded = target.row := replayTarget_same hr.same s
  have hjudges : events ≠ [] → judges = some (some st,
      isCurrentRequest s.approvals s.core.attempts target.id target.row) :=
    fun hne => if_neg hne
  by_cases hacc : ∃ e ∈ events, labelAccepts d.cfg st target.id target.row e.issueLabels s = true
  · have hloop := replayLoop_accepted events hacc
    obtain ⟨e, -, haccept⟩ := hacc
    split at hloop
    · -- the round is confirmed, and the case moves on
      rw [hloop] at hbody
      cases hbody
      refine ⟨replayWon_labelTxn hsame rfl rfl rfl rfl, ?_⟩
      dsimp only
      split
      · exact ⟨heldBack_of_same rfl, DeliveryStatus.noConfusion⟩
      · refine ⟨heldBack_of_same hr.same, ?_⟩
        rw [hr.status]
        exact DeliveryStatus.noConfusion
    · -- the transition is lost; the object keeps the confirmation
      next hok =>
      have hok := Bool.eq_false_iff.mpr hok
      have hstale : s.case.state ≠ st := by
        rw [confirmMove_ok (labelAccepts_awaits haccept), decide_eq_false_iff_not] at hok
        exact hok
      have hdiffers : (target.confirm s.now).row.deliveryStatus ≠ target.row.deliveryStatus := by
        rw [labelAccepts_status haccept]
        exact DeliveryStatus.noConfusion
      rw [hloop] at hbody
      cases hbody
      refine ⟨replayIdle_labelTxn hinv hr rfl rfl rfl rfl rfl hjudges (fun _ => hok), ?_⟩
      refine replayed_of (toReplay_lasting r s _ hr) (carried_lost hsame ?_ s.now)
        (fun _ => DeliveryStatus.noConfusion)
      exact hit_commit (List.mem_singleton.mpr rfl) (lost_of_stale (if_neg hdiffers) hstale)
  · -- there is nothing to replay
    have hnone : ∀ e ∈ events,
        labelAccepts d.cfg st target.id target.row e.issueLabels s = false :=
      fun e he => Bool.eq_false_iff.mpr (fun h => hacc ⟨e, he, h⟩)
    rw [replayLoop_refused events hnone] at hbody
    cases hbody
    refine ⟨replayIdle_labelTxn hinv hr rfl rfl rfl rfl rfl hjudges (fun h => absurd h hacc), ?_⟩
    exact replayed_of (toReplay_lasting r s _ hr) (heldBack_of_same hsame).round
      (replayTarget_failed hr)

theorem applyLabel_serves (r : RequestObj) (st : CaseState) (labels : List String) :
    Serves d.cfg d.owner (d.applyLabel r st labels) (fun s => Loaded s r)
      (fun x s => ∀ y, x = .inl y → Replayed s y) (fun _ _ => True) := by
  unfold Dispatcher.applyLabel
  split
  · next happlied =>
      refine .ret (fun s _ hr y hy => ?_)
      cases hy
      refine ⟨heldBack_of_same hr.same, fun hfailed => ?_⟩
      rw [hr.columns.failed hfailed] at happlied
      cases happlied
  · next happlied =>
      have hpre : ∀ s, Loaded s r → ToLabel s r := by
        intro s hr
        refine ⟨hr.same, hr.decision, by simpa using happlied, fun hst => ?_, hr.columns.requested⟩
        exact happlied (hr.columns.applied hst)
      refine Serves.bind ((requestLabel_serves d d.cfg r labels).pre (fun s _ => hpre s)) (fun x => ?_)
      split
      · exact .ret (fun s _ _ y hy => by cases hy)
      · next r =>
          refine Serves.bind ((commitApplied_serves d d.cfg r).pre (fun s _ hx => hx r rfl))
            (fun r => ?_)
          refine Serves.bind (replay_serves d r st) (fun x => .ret (fun s _ hx y hy => ?_))
          cases hy
          exact hx

/-- The comment is posted with whatever the session has not committed. -/
theorem ensureComment_serves (r : RequestObj) (also : List (Write ApprovalRequest)) :
    Serves d.cfg d.owner (d.ensureComment r also) (fun s => HeldBack s (r, also))
      (fun x s => ∀ y, x = .inl y → HeldBack s y ∧ y.1.row.deliveryStatus = r.row.deliveryStatus)
      (fun _ _ => True) := by
  unfold Dispatcher.ensureComment
  split
  · refine .ret (fun s _ hr y hy => ?_)
    cases hy
    exact ⟨hr, rfl⟩
  · extract_lets rest
    have hrest : ∀ x : RequestObj × List (Write ApprovalRequest), Serves d.cfg d.owner (rest x)
        (fun s => HeldBack s x ∧ x.1.row.deliveryStatus = r.row.deliveryStatus)
        (fun y s => ∀ z, y = .inl z →
          HeldBack s z ∧ z.1.row.deliveryStatus = r.row.deliveryStatus) (fun _ _ => True) := by
      intro x
      have hlast : Lasting (fun s => HeldBack s x ∧ x.1.row.deliveryStatus = r.row.deliveryStatus) :=
        (heldBack_lasting x).and (fun _ _ h => h)
      refine Serves.bind (Safe.conseq ((Calmly.plainly (.ask (fun i => i.call))).serves hlast)
        (fun _ _ h => h) (fun _ _ _ h => h) (fun _ _ _ _ => trivial)) (fun answer => ?_)
      refine .ret (fun s _ hx => ?_)
      exact taken_kept (Q := fun z => HeldBack s z ∧ z.1.row.deliveryStatus = r.row.deliveryStatus)
        hx.2 answer
    split
    · exact (hrest (r, also)).pre (fun s _ hr => ⟨hr, rfl⟩)
    · refine Serves.bind (Q := fun r' s => HeldBack s (r', []) ∧
        r'.row.deliveryStatus = r.row.deliveryStatus) ?_ (fun r' => hrest (r', []))
      refine .txn (fun r' => (heldBack_lasting (r', [])).and (fun _ _ h => h))
        (fun i s t r' hinv hr hbody => ?_)
      cases hbody
      refine ⟨(plain_of_carried rfl (fun w hw => ?_) (Or.inl rfl) (List.forall_mem_nil _)
        rfl).labelTxn hinv, heldBack_of_same rfl, rfl⟩
      rcases List.mem_append.mp hw with hw | hw
      · exact hr.also w hw
      · rw [List.mem_singleton.mp hw]
        exact ⟨hr.round.requested, hr.round.applied, hr.round.status, hr.round.decision⟩

/-- What a handler leaves to be committed with its row. -/
def Handled.HeldBack (s : Store) : Handled → Prop
  | .sent pending _ => ∀ w ∈ pending, w.Carried s
  | .failed _ => True

theorem carried_append {s : Store} {r : RequestObj} {also : List (Write ApprovalRequest)}
    (h : HeldBack s (r, also)) {row : ApprovalRequest}
    (hreq : row.labelRequestedAt = r.row.labelRequestedAt)
    (happ : row.labelAppliedAt = r.row.labelAppliedAt)
    (hst : row.deliveryStatus = r.row.deliveryStatus) (hd : row.decision = r.row.decision) :
    ∀ w ∈ also ++ [(r.set row).write], w.Carried s := by
  intro w hw
  rcases List.mem_append.mp hw with hw | hw
  · exact h.also w hw
  · rw [List.mem_singleton.mp hw]
    refine ⟨hreq.trans h.round.requested, happ.trans h.round.applied, ?_, ?_⟩
    · show row.deliveryStatus = r.loaded.deliveryStatus ∨ row.deliveryStatus = .confirmed ∧ _
      rw [hst]
      exact h.round.status
    · show row.decision = r.loaded.decision ∨ row.decision ≠ .approved
      rw [hd]
      exact h.round.decision

theorem githubApplyLabel_serves (row : OutboxRow) :
    Serves d.cfg d.owner (d.githubApplyLabel row) (fun _ => True) (fun h s => h.HeldBack s)
      (fun _ _ => True) := by
  refine Serves.bind (Q := fun found s => ∀ x, found = some x → Loaded s x.1) ?_ (fun found => ?_)
  · refine .txn (fun found s op h x hx => loaded_lasting x.1 s op (h x hx))
      (fun i s t found hinv _ hbody => ?_)
    cases hbody
    refine ⟨(plain_of_events rfl rfl (Or.inl rfl) rfl rfl).labelTxn hinv, fun x hx => ?_⟩
    obtain ⟨hload, hmay⟩ := Option.filter_eq_some_iff.mp hx
    unfold loadRequest at hload
    obtain ⟨id, -, hload⟩ := Option.bind_eq_some_iff.mp hload
    obtain ⟨r, hr, rfl⟩ := Option.map_eq_some_iff.mp hload
    simp only [mayLabel, Bool.and_eq_true, decide_eq_true_eq] at hmay
    exact ⟨rfl, hmay.1.1.1.1, (hinv.columns id r hr).apply _⟩
  split
  · exact .ret (fun _ _ _ => trivial)
  · next r st =>
      refine Serves.bind (Q := fun _ s => Loaded s r) ?_ (fun issue => ?_)
      · refine Safe.conseq ((Calmly.plainly (.getIssue d.cfg)).serves (loaded_lasting r))
          (fun _ _ h => h (r, st) rfl) (fun _ _ _ h => h.2) (fun _ _ _ _ => trivial)
      split
      · exact .ret (fun _ _ _ => trivial)
      · split
        · exact .ret (fun _ _ _ => trivial)
        · refine Serves.bind (applyLabel_serves d r st issue.labels) (fun x => ?_)
          split
          · exact .ret (fun _ _ _ => trivial)
          · next r also =>
              by_cases hfailed : r.row.deliveryStatus = .failed
              · -- a round whose label is on the issue has not failed
                exact Safe.unreached (fun s _ hx => (hx (r, also) rfl).2 hfailed)
              refine Serves.bind ((ensureComment_serves d r also).pre
                (fun s _ hx => (hx (r, also) rfl).1)) (fun y => ?_)
              split
              · exact .ret (fun _ _ _ => trivial)
              · next r' also' =>
                  refine .ret (fun s _ hy => ?_)
                  obtain ⟨hheld, hst⟩ := hy (r', also') rfl
                  refine carried_append hheld rfl rfl ?_ rfl
                  refine if_neg (fun hf => hfailed ?_)
                  rw [← hst, hf]

theorem githubRejectionComment_serves (row : OutboxRow) :
    Serves d.cfg d.owner (d.githubRejectionComment row) (fun _ => True)
      (fun h s => h.HeldBack s) (fun _ _ => True) := by
  refine Serves.bind (Q := fun found _ => ∀ x, found = some x → x.1.loaded = x.1.row) ?_
    (fun found => ?_)
  · refine .txn (fun _ _ _ h => h) (fun i s t found hinv _ hbody => ?_)
    cases hbody
    refine ⟨(plain_of_events rfl rfl (Or.inl rfl) rfl rfl).labelTxn hinv, fun x hx => ?_⟩
    unfold loadRequest at hx
    obtain ⟨id, -, hx⟩ := Option.bind_eq_some_iff.mp hx
    obtain ⟨r, -, rfl⟩ := Option.map_eq_some_iff.mp hx
    rfl
  split
  · exact .ret (fun _ _ _ => trivial)
  · next r st =>
      split
      · exact .ret (fun _ _ _ => trivial)
      · split
        · exact .ret (fun _ _ _ => List.forall_mem_nil _)
        · split
          · exact .ret (fun _ _ _ => trivial)
          · refine Serves.bind ((ensureComment_serves d r []).pre
              (fun s _ hx => heldBack_of_same (hx (r, st) rfl))) (fun y => ?_)
            split
            · exact .ret (fun _ _ _ => trivial)
            · next r' also' =>
                refine .ret (fun s _ hy => ?_)
                exact carried_append (hy (r', also') rfl).1 rfl rfl rfl rfl

theorem handle_serves (row : OutboxRow) :
    Serves d.cfg d.owner (d.handle row) (fun _ => True) (fun h s => h.HeldBack s)
      (fun _ _ => True) := by
  unfold Dispatcher.handle
  split
  · refine Safe.conseq (slackApprovalRequest_plainly d row).served (fun _ _ h => h)
      (fun h s _ hh => ?_) (fun _ _ _ h => h)
    cases h with
    | sent pending outbox => exact fun w hw => (hh w hw).carried s
    | failed permanent => trivial
  · exact githubApplyLabel_serves d row
  · exact githubRejectionComment_serves d row
  · refine Serves.bind (Calmly.plainly (.ask (fun i => i.call))).served (fun answer => ?_)
    split
    · exact .ret (fun _ _ _ => List.forall_mem_nil _)
    · exact .ret (fun _ _ _ => trivial)
    · exact .ret (fun _ _ _ => trivial)

theorem dispatch_serves (id : Nat) :
    Serves d.cfg d.owner (d.dispatch id) (fun _ => True) (fun _ _ => True) (fun _ _ => True) := by
  refine Serves.bind (Plainly.served (Calmly.plainly (.tx (fun _ _ => rfl)))) (fun found => ?_)
  split
  · exact .ret (fun _ _ _ => trivial)
  · next row =>
      split
      · exact .ret (fun _ _ _ => trivial)
      · refine Serves.bind (Q := fun h s => h.HeldBack s) ?_ (fun handled => ?_)
        · refine Safe.handle ((handle_serves d row).pre (fun _ _ _ => trivial)) (fun e => ?_)
          split
          · exact fun _ _ _ => trivial
          · exact fun _ _ _ => trivial
        split
        · next pending outbox =>
            refine .txn (fun _ => Lasting.true) (fun i s t x hinv hheld hbody => ⟨?_, trivial⟩)
            cases hbody
            have hheld : ∀ w ∈ pending, w.Carried s := hheld
            exact (plain_of_carried rfl hheld (Or.inl rfl) (List.forall_mem_nil _) rfl).labelTxn hinv
        · exact (dispatcherFail_plainly d id _).served

end Dispatcher

/-! ## Events -/

section Events

variable (r : Runner)

theorem outcome_error {α : Type} {body : Input → Store → Except Err (Txn × α)} {i : Input}
    {s : Store} (h : Txn.outcome body i s = .error .invalidTransition) :
    body i s = .error .invalidTransition ∨
      ∃ t a, body i s = .ok (t, a) ∧ movesOk t.moves s.case = false := by
  unfold Txn.outcome at h
  split at h
  · next f _ => cases f <;> cases h
  · split at h
    · next e hbody =>
        rw [hbody, Except.error.inj h]
        exact Or.inl rfl
    · next t a hbody =>
        split at h
        · next hmoves => exact Or.inr ⟨t, a, hbody, hmoves⟩
        · split at h
          · cases h
          · cases h

/-- What `process_event` knows about the delivery it has opened. -/
def EventWork.Known (id : Nat) (s : Store) : EventWork → Prop
  | .done => True
  | .label e _ => EventRead s e
  | .case e => e.id = id ∧ Unlabelled s id

theorem known_lasting (id : Nat) (work : EventWork) : Lasting (fun s => work.Known id s) := by
  intro s op h
  cases work with
  | done => trivial
  | label e st => exact eventRead_lasting e s op h
  | case e => exact ⟨h.1, unlabelled_lasting id s op h.2⟩

/-- Only the job of a case raises `InvalidTransition`. -/
def EventRaise (id : Nat) (e : Err) (s : Store) : Prop := e = .invalidTransition → Unlabelled s id

theorem eventRaise_lasting (id : Nat) (e : Err) : Lasting (EventRaise id e) :=
  Lasting.imp (fun _ => unlabelled_lasting id)

theorem openEvent_serves (id : Nat) :
    Serves r.cfg r.owner (r.openEvent id) (fun _ => True) (fun work s => work.Known id s)
      (EventRaise id) := by
  refine .tx (known_lasting id) (eventRaise_lasting id) (fun i s e _ hout he => ?_)
    (fun i s t work hinv _ hbody => ?_)
  · -- opening an event moves nothing
    exfalso
    subst he
    rcases outcome_error hout with hbody | ⟨t, a, hbody, hmoves⟩
    · dsimp only at hbody
      split at hbody
      · cases hbody
      · split at hbody
        · cases hbody
        · split at hbody
          · cases hbody
          · cases hbody
    · dsimp only at hbody
      split at hbody
      · cases hbody
        cases hmoves
      · split at hbody
        · cases hbody
          cases hmoves
        · split at hbody
          · cases hbody
            cases hmoves
          · cases hbody
            cases hmoves
  · dsimp only at hbody
    split at hbody
    · cases hbody
      exact ⟨(plain_of_events rfl rfl (Or.inl rfl) rfl rfl).labelTxn hinv, trivial⟩
    · next row hrow =>
        split at hbody
        · cases hbody
          refine ⟨(plain_of_events rfl rfl (Or.inl rfl) rfl rfl).labelTxn hinv, ?_⟩
          refine eventRead_lasting ⟨id, row⟩ s _ ⟨row, hrow, rfl, rfl, fun t ht => ?_⟩
          exact hinv.processed row (List.mem_of_getElem? hrow) t ht
        · next hlabel =>
            have hlabel : row.remediationLabel = false := Bool.eq_false_iff.mpr hlabel
            split at hbody
            · cases hbody
              exact ⟨(plain_of_events rfl rfl (Or.inr ⟨_, rfl, .unlabelled hrow hlabel
                (Or.inr rfl)⟩) rfl rfl).labelTxn hinv, trivial⟩
            · cases hbody
              exact ⟨(plain_of_events rfl rfl (Or.inr ⟨_, rfl, .quiet rfl rfl⟩) rfl
                rfl).labelTxn hinv, rfl, unlabelled_lasting id s _ ⟨row, hrow, hlabel⟩⟩

theorem processLabelEvent_serves (e : EventObj) (st : Option CaseState) (id : Nat) :
    Serves r.cfg r.owner (r.processLabelEvent e st) (fun s => EventRead s e) (fun _ _ => True)
      (EventRaise id) := by
  refine .tx (fun _ => Lasting.true) (eventRaise_lasting id) (fun i s x _ hout hx => ?_)
    (fun i s t u hinv hread hbody => ⟨?_, trivial⟩)
  · -- a lost transition is swallowed
    exfalso
    subst hx
    rcases outcome_error hout with hbody | ⟨t, a, hbody, hmoves⟩
    · dsimp only at hbody
      split at hbody
      · cases hbody
      · cases hbody
    · dsimp only at hbody
      split at hbody
      · next st id req _ =>
          cases hbody
          by_cases hacc : labelAccepts r.cfg st id req e.row.issueLabels s = true
          · rw [confirm_accepted hacc] at hmoves
            dsimp only at hmoves
            split at hmoves
            · next hok => simp [Runner.txn, movesOk, hok] at hmoves
            · cases hmoves
          · rw [confirm_refused (Bool.eq_false_iff.mpr hacc)] at hmoves
            cases hmoves
      · cases hbody
        cases hmoves
  · dsimp only at hbody
    have hcurrent : ∀ id q, Labelled s id q → (openRequest s).any (fun x =>
        isCurrentRequest s.approvals s.core.attempts x.1 x.2) = true →
        isCurrentRequest s.approvals s.core.attempts id q = true := by
      intro id q hq hany
      rw [openRequest_of_newest hq.row hq.newest] at hany
      exact hany
    split at hbody
    · next st id req hopen =>
        cases hbody
        by_cases hacc : labelAccepts r.cfg st id req e.row.issueLabels s = true
        · rw [confirm_accepted hacc]
          exact confirmed_labelTxn hinv hread hopen hacc rfl rfl rfl rfl rfl rfl
        · have hacc := Bool.eq_false_iff.mpr hacc
          rw [confirm_refused hacc]
          refine refused_labelTxn hinv hread rfl hcurrent (fun i q hq st' hst' => ?_) rfl rfl rfl rfl
            rfl rfl
          rw [openRequest_of_newest hq.row hq.newest] at hopen
          cases hopen
          cases hst'
          exact hacc
    · next hnone =>
        cases hbody
        refine refused_labelTxn hinv hread rfl hcurrent (fun i q hq st' hst' => ?_) rfl rfl rfl rfl
          rfl rfl
        exact absurd (openRequest_of_newest hq.row hq.newest) (hnone st' i q hst')

theorem processEvent_serves (id : Nat) :
    Serves r.cfg r.owner (r.processEvent id) (fun _ => True) (fun _ _ => True)
      (EventRaise id) := by
  refine Serves.bind (openEvent_serves r id) (fun work => ?_)
  split
  · exact .ret (fun _ _ _ => trivial)
  · exact processLabelEvent_serves r _ _ id
  · next e =>
      refine Serves.bind (Q := fun _ s => e.id = id ∧ Unlabelled s id) ?_ (fun _ => ?_)
      · have hlast : Lasting (fun s => e.id = id ∧ Unlabelled s id) :=
          Lasting.and (fun _ _ h => h) (unlabelled_lasting id)
        exact Safe.conseq ((processCase_plainly r .received none).serves hlast) (fun _ _ h => h)
          (fun _ _ _ h => h.2) (fun _ _ _ h _ => h.2)
      · refine .tx (fun _ => Lasting.true) (eventRaise_lasting id) (fun i s x hx _ _ => ?_)
          (fun i s t u hinv hx hbody => ⟨?_, trivial⟩)
        · exact unlabelled_lasting id s _ hx.2
        · cases hbody
          obtain ⟨heq, row, hrow, hlabel⟩ := hx
          rw [← heq] at hrow
          exact (plain_of_events rfl rfl (Or.inr ⟨_, rfl, .unlabelled hrow hlabel
            (Or.inr rfl)⟩) rfl rfl).labelTxn hinv

end Events

/-! ## The worker loop -/

section Worker

variable (w : Worker)

theorem onEventError_serves (id : Nat) (e : Err) :
    Serves w.cfg w.owner (w.onEventError id e) (EventRaise id e) (fun _ _ => True)
      (fun _ _ => True) := by
  by_cases he : e = .invalidTransition
  · subst he
    refine .txn (fun _ => Lasting.true) (fun i s t u hinv hraise hbody => ⟨?_, trivial⟩)
    obtain ⟨row, hrow, hlabel⟩ := hraise rfl
    dsimp only at hbody
    rw [hrow] at hbody
    cases hbody
    exact (plain_of_events rfl rfl (Or.inr ⟨_, rfl, .unlabelled hrow hlabel (Or.inr rfl)⟩) rfl
      rfl).labelTxn hinv
  · exact (onEventError_plainly w id he).served

theorem withFinally_serves {p fin : P Unit}
    (hp : Serves w.cfg w.owner p (fun _ => True) (fun _ _ => True) (fun _ _ => True))
    (hfin : Plainly (fun _ => True) fin) :
    Serves w.cfg w.owner (withFinally p fin) (fun _ => True) (fun _ _ => True)
      (fun _ _ => True) := by
  refine Serves.bind (Safe.handle hp (fun e => ?_)) (fun _ => hfin.served)
  split
  · exact fun _ _ _ => trivial
  · exact Serves.bind hfin.served (fun _ => fun _ _ _ => trivial)

theorem iterate_serves :
    Serves w.cfg w.owner w.iterate (fun _ => True) (fun _ _ => True) (fun _ _ => True) := by
  refine Serves.bind (claimEvent_plainly w w.rounds).served (fun event => ?_)
  split
  · next id =>
      refine (withFinally_serves w (Safe.handle (processEvent_serves w.runner id) (fun e => ?_))
        (releaseEvent_plainly w id)).pre (fun _ _ _ => trivial)
      split
      · exact fun _ _ _ => trivial
      · exact onEventError_serves w id e
  · refine Serves.bind (Calmly.plainly (claimCase_calmly w)).served (fun claimed => ?_)
    split
    · refine (withFinally_serves w (Plainly.served (Plainly.rescue (runCase_plainly w)
        (fun e => onCaseError_plainly w e))) (Calmly.plainly (releaseCase_calmly w))).pre
        (fun _ _ _ => trivial)
    · refine Serves.bind (dispatcherClaim_plainly w.dispatcher).served (fun row => ?_)
      split
      · exact (dispatch_serves w.dispatcher _).pre (fun _ _ _ => trivial)
      · exact .ret (fun _ _ _ => trivial)

end Worker

/-- **Every job keeps what is owed.** -/
theorem labels_sound (cfg : Settings) : Sound (system cfg) (labelContract cfg) where
  act := fun _ _ _ _ h => h
  leave := fun o _ h => LabelInv.leave h o
  env := by
    intro s op hinv henv
    refine LabelInv.elsewhere hinv ?_ (fun _ _ => henv)
    cases op with
    | commit o t => cases henv
    | _ => rfl
  job := by
    intro o j
    cases j with
    | iterate process rounds => exact iterate_serves ⟨cfg, o, process, rounds⟩
    | slack action => exact (slackClick_plainly cfg o action).served
    | cancel => exact (Calmly.plainly (cancelCase_calmly o)).served
    | retry => exact (Calmly.plainly (retryCase_calmly cfg o)).served
    | reconcileSession rounds => exact (reconcileSession_plainly cfg o rounds).served
    | retryCi => exact (Calmly.plainly (retryCi_calmly o)).served
    | retryProbe => exact (Calmly.plainly (retryProbe_calmly o)).served
    | retryOutbox id => exact (retryOutbox_plainly o id).served
    | expireApproval id => exact (expireApproval_plainly cfg o id).served

theorem labelInv_of_reachable {cfg : Settings} {c : Pool Store Input Op Err}
    (h : Reachable cfg c) : LabelInv cfg c.store :=
  (Pool.Reachable.safe (labels_sound cfg) (LabelInv.empty cfg) h).1

end Remediator
