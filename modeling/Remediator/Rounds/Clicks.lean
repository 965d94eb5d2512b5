import Mathlib.Data.Set.Function
import Remediator.Rounds.Decisions

set_option autoImplicit false

/-! # Clicks

What a click of a Slack button can do, in any store: it decides a round that it is entitled to
decide, or it decides nothing. That the token it presents has not been retired is a matter of
the runs: an undecided round carries the hash of a token that was generated for it, so a token
whose round is closed opens no other one.
-/

namespace Remediator

open Interleave

/-! ## One click -/

/-- The click may decide the round. -/
structure Entitled (cfg : Settings) (action : SlackActionInput) (s : Store) (id : Nat)
    (r : ApprovalRequest) : Prop where
  approver : action.slackUserId ∈ cfg.approverUserIds
  /-- the stored hash is that of the token, or its retired form -/
  token : r.actionTokenHash = some (hashActionToken cfg action.token) ∨
    r.actionTokenHash = some (retiredTokenHash cfg (hashActionToken cfg action.token))
  pending : r.decision = .pending
  live : s.now < r.tokenExpiresAt
  newest : id + 1 = s.approvals.length
  bound : latestTriageAttemptId s.core.attempts = some r.attemptId
  awaiting : s.case.state = .awaitingRemediationApproval

/-- The round is approved or rejected by what happens between the two stores. -/
def Decides (s s' : Store) (id : Nat) (r : ApprovalRequest) : Prop :=
  s.approvals[id]? = some r ∧ ∃ r', s'.approvals[id]? = some r' ∧
    (r'.decision = .approved ∨ r'.decision = .rejected) ∧ r'.decision ≠ r.decision

/-- The fields of the delivery are as before, and the decision at most lapsed. -/
structure ApprovalRequest.Lapsed (now : Nat) (r r' : ApprovalRequest) : Prop where
  deliveryStatus : r'.deliveryStatus = r.deliveryStatus
  labelRequestedAt : r'.labelRequestedAt = r.labelRequestedAt
  labelAppliedAt : r'.labelAppliedAt = r.labelAppliedAt
  labelConfirmedAt : r'.labelConfirmedAt = r.labelConfirmedAt
  commentRequestedAt : r'.commentRequestedAt = r.commentRequestedAt
  githubCommentId : r'.githubCommentId = r.githubCommentId
  decision : r'.decision = r.decision ∨
    (r.decision = .pending ∧ r'.decision = .expired ∧ r.tokenExpiresAt ≤ now)

/-- The rows that deliver a decision to GitHub. -/
def effectRows (outbox : List OutboxRow) : List OutboxRow :=
  outbox.filter (fun row =>
    decide (row.kind = .githubApplyLabel) || decide (row.kind = .githubRejectionComment))

/-- Nothing is decided between the two stores. -/
structure Undecided (s s' : Store) : Prop where
  state : s'.case.state = s.case.state
  rows : effectRows s'.outbox = effectRows s.outbox
  rounds : s'.approvals.length = s.approvals.length
  lapsed : ∀ (id : Nat) (r : ApprovalRequest), s.approvals[id]? = some r →
    ∃ r', s'.approvals[id]? = some r' ∧ r.Lapsed s.now r'

theorem ApprovalRequest.Lapsed.refl (now : Nat) (r : ApprovalRequest) : r.Lapsed now r :=
  ⟨rfl, rfl, rfl, rfl, rfl, rfl, Or.inl rfl⟩

theorem effectRows_append {rows rows' : List OutboxRow}
    (h : ∀ row ∈ rows', row.kind = .notification) : effectRows (rows ++ rows') = effectRows rows := by
  unfold effectRows
  rw [List.filter_append, List.append_right_eq_self]
  refine List.filter_eq_nil_iff.mpr (fun row hrow => ?_)
  simp [h row hrow]

section Click

variable {cfg : Settings} {action : SlackActionInput} {o : Owner} {s : Store}

/-- A transaction that writes neither rounds nor the case. -/
theorem undecided_of_idle {t : Txn} (hmoves : t.moves = []) (hwrites : t.approvalWrites = [])
    (hnew : t.newApprovals = []) (hout : t.outboxWrites = [])
    (hrows : ∀ row ∈ t.newOutbox, row.kind = .notification) :
    Undecided s ((Op.commit o t).apply s) := by
  have happrovals : ((Op.commit o t).apply s).approvals = s.approvals := by
    rw [commit_approvals, hwrites, hnew, flush_nil, List.append_nil]
  refine ⟨?_, ?_, by rw [happrovals], fun id r hr => ⟨r, by rw [happrovals, hr], .refl _ _⟩⟩
  · show movesEnd t.moves s.case.state = s.case.state
    rw [hmoves]
    rfl
  · show effectRows (flush OutboxRow.merge t.outboxWrites s.outbox ++ t.newOutbox) = _
    rw [hout, flush_nil, effectRows_append hrows]

theorem undecided_of_refused {id : Nat} {outcome : ActionOutcome} :
    Undecided s ((Op.commit o (refusedClick cfg action id outcome)).apply s) :=
  undecided_of_idle rfl rfl rfl rfl (ephemeralResponse_notification action id outcome)

/-- The transaction writes one round, as it was read. -/
theorem approvals_set {t : Txn} {id : Nat} {r r' : ApprovalRequest}
    (hwrites : t.approvalWrites = [⟨id, r, r'⟩]) (hnew : t.newApprovals = [])
    (hr : s.approvals[id]? = some r) :
    ((Op.commit o t).apply s).approvals = s.approvals.set id (ApprovalRequest.merge r r' r) := by
  rw [commit_approvals, hwrites, hnew, flush_single _ hr, List.append_nil]

/-- The time of a round that ran out is noticed at the click. -/
theorem undecided_of_expired {t : Txn} {id : Nat} {r : ApprovalRequest} (hmoves : t.moves = [])
    (hwrites : t.approvalWrites = [⟨id, r, expiredRound cfg r⟩]) (hnew : t.newApprovals = [])
    (hout : t.outboxWrites = []) (hrows : ∀ row ∈ t.newOutbox, row.kind = .notification)
    (hr : s.approvals[id]? = some r) (hpending : r.decision = .pending)
    (hlate : r.tokenExpiresAt ≤ s.now) : Undecided s ((Op.commit o t).apply s) := by
  have happrovals := approvals_set (o := o) hwrites hnew hr
  refine ⟨?_, ?_, by rw [happrovals, List.length_set], fun i q hq => ?_⟩
  · show movesEnd t.moves s.case.state = s.case.state
    rw [hmoves]
    rfl
  · show effectRows (flush OutboxRow.merge t.outboxWrites s.outbox ++ t.newOutbox) = _
    rw [hout, flush_nil, effectRows_append hrows]
  · rw [happrovals, List.getElem?_set]
    have hlt := (List.getElem?_eq_some_iff.mp hr).1
    by_cases hi : id = i
    · subst hi
      rw [hr] at hq
      cases hq
      refine ⟨ApprovalRequest.merge r (expiredRound cfg r) r, by simp [hlt], ?_⟩
      constructor
      all_goals simp [ApprovalRequest.merge, expiredRound, hpending, hlate]
    · exact ⟨q, by simp [hi, hq], .refl _ _⟩

theorem Undecided.not_decides {s' : Store} (h : Undecided s s') {id : Nat} {r : ApprovalRequest} :
    ¬ Decides s s' id r := by
  rintro ⟨hr, r', hr', hd, hne⟩
  obtain ⟨r'', hr'', hl⟩ := h.lapsed id r hr
  rw [hr'] at hr''
  cases hr''
  rcases hl.decision with heq | ⟨-, hexp, -⟩
  · exact hne heq
  · rw [hexp] at hd
    rcases hd with hd | hd
    · cases hd
    · cases hd

/-- Only the round that is written can be decided. -/
theorem decides_of_set {t : Txn} {id i : Nat} {r r' q : ApprovalRequest}
    (hwrites : t.approvalWrites = [⟨id, r, r'⟩]) (hnew : t.newApprovals = [])
    (hr : s.approvals[id]? = some r) (h : Decides s ((Op.commit o t).apply s) i q) :
    i = id ∧ q = r := by
  obtain ⟨hq, q', hq', -, hne⟩ := h
  rw [approvals_set hwrites hnew hr, List.getElem?_set] at hq'
  by_cases hi : id = i
  · subst hi
    rw [hr] at hq
    exact ⟨rfl, (Option.some.inj hq).symm⟩
  · rw [if_neg hi, hq] at hq'
    cases hq'
    exact absurd rfl hne

/-- A click decides rounds it is entitled to, or it decides nothing. -/
def Rightful (cfg : Settings) (action : SlackActionInput) (s s' : Store) : Prop :=
  (∀ (id : Nat) (r : ApprovalRequest), Decides s s' id r → Entitled cfg action s id r) ∧
    ((∃ id r, Decides s s' id r) ∨ Undecided s s')

theorem Undecided.rightful {s' : Store} (h : Undecided s s') : Rightful cfg action s s' :=
  ⟨fun _ _ hd => absurd hd h.not_decides, Or.inr h⟩

/-- A decision of the round, by a click that is entitled to it. -/
theorem rightful_of_decided {t : Txn} {id : Nat} {r r' : ApprovalRequest}
    (hwrites : t.approvalWrites = [⟨id, r, r'⟩]) (hnew : t.newApprovals = [])
    (hr : s.approvals[id]? = some r) (hd : r'.decision = .approved ∨ r'.decision = .rejected)
    (h : Entitled cfg action s id r) : Rightful cfg action s ((Op.commit o t).apply s) := by
  refine ⟨fun i q hi => ?_, Or.inl ⟨id, r, hr, ApprovalRequest.merge r r' r, ?_, ?_⟩⟩
  · obtain ⟨rfl, rfl⟩ := decides_of_set hwrites hnew hr hi
    exact h
  · have hlt := (List.getElem?_eq_some_iff.mp hr).1
    rw [approvals_set hwrites hnew hr]
    simp [hlt]
  · have hdec : (ApprovalRequest.merge r r' r).decision = r'.decision := pick_row _ _
    rw [hdec, h.pending]
    refine ⟨hd, ?_⟩
    rcases hd with hd | hd
    · rw [hd]
      exact ApprovalDecision.noConfusion
    · rw [hd]
      exact ApprovalDecision.noConfusion

theorem requestByToken_hash {token : String} {rs : List ApprovalRequest} {id : Nat}
    {r : ApprovalRequest} (h : requestByToken cfg token rs = some (id, r)) :
    r.actionTokenHash = some (hashActionToken cfg token) ∨
      r.actionTokenHash = some (retiredTokenHash cfg (hashActionToken cfg token)) := by
  have hmatch := List.find?_some h
  rw [Bool.or_eq_true, decide_eq_true_iff, decide_eq_true_iff] at hmatch
  exact hmatch

theorem decideRound_rightful {id : Nat} {r : ApprovalRequest} (hr : s.approvals[id]? = some r)
    (happrover : action.slackUserId ∈ cfg.approverUserIds)
    (htoken : r.actionTokenHash = some (hashActionToken cfg action.token) ∨
      r.actionTokenHash = some (retiredTokenHash cfg (hashActionToken cfg action.token))) :
    Rightful cfg action s ((Op.commit o (decideRound cfg action id r s).1).apply s) := by
  unfold decideRound
  split
  · next hexp =>
      refine (undecided_of_expired rfl rfl rfl rfl (fun row hrow => ?_) hr hexp.1 hexp.2).rightful
      rcases List.mem_append.mp hrow with hrow | hrow
      · exact statusUpdate_notification id r row hrow
      · exact ephemeralResponse_notification action id .expiredToken row hrow
  next hlive =>
  split
  · exact undecided_of_refused.rightful
  split
  · exact undecided_of_refused.rightful
  next hpending =>
  have hpending := not_not.mp hpending
  split
  · exact undecided_of_refused.rightful
  next hcurrent =>
  split
  · exact undecided_of_refused.rightful
  next hstate =>
  -- every check has passed
  have hent : Entitled cfg action s id r := by
    simp only [isCurrentRequest, Bool.not_eq_false, Bool.and_eq_true, decide_eq_true_eq] at hcurrent
    refine ⟨happrover, htoken, hpending, ?_, hcurrent.1, hcurrent.2, not_not.mp hstate⟩
    by_contra hlate
    exact hlive ⟨hpending, Nat.le_of_not_lt hlate⟩
  split
  · exact rightful_of_decided rfl rfl hr (Or.inl rfl) hent
  · exact rightful_of_decided rfl rfl hr (Or.inr rfl) hent

/-- Whatever the store is, and whatever the click presents. -/
theorem processSlackAction_rightful (cfg : Settings) (action : SlackActionInput) (o : Owner)
    (s : Store) :
    Rightful cfg action s ((Op.commit o (processSlackAction cfg action s).1).apply s) := by
  have hidle : Undecided s ((Op.commit o {}).apply s) :=
    undecided_of_idle rfl rfl rfl rfl (List.forall_mem_nil _)
  unfold processSlackAction
  dsimp only
  split
  · exact hidle.rightful
  split
  · exact hidle.rightful
  next id r hfound =>
  split
  · exact hidle.rightful
  split
  · exact undecided_of_refused.rightful
  next happrover =>
  exact decideRound_rightful (requestByToken_get hfound) (not_not.mp happrover)
    (requestByToken_hash hfound)

end Click

/-! ## Tokens -/

/-- The undecided rounds carry the hash of a token that was generated for them. -/
def Tokened (cfg : Settings) (s : Store) : Prop :=
  ∀ (id : Nat) (r : ApprovalRequest), s.approvals[id]? = some r → r.decision = .pending →
    ∀ hash, r.actionTokenHash = some hash →
      ∃ token, (token, id) ∈ s.history.issued ∧ hash = hashActionToken cfg token

/-- A round that is undecided afterwards was undecided before, with the same hash. -/
theorem Tokened.of_rounds {cfg : Settings} {s s' : Store} (h : Tokened cfg s)
    (hissued : ∀ x ∈ s.history.issued, x ∈ s'.history.issued)
    (hrounds : ∀ (id : Nat) (r' : ApprovalRequest), s'.approvals[id]? = some r' →
      r'.decision = .pending → ∀ hash, r'.actionTokenHash = some hash →
      ∃ r, s.approvals[id]? = some r ∧ r.decision = .pending ∧ r.actionTokenHash = some hash) :
    Tokened cfg s' := by
  intro id r' hr' hp' hash hh'
  obtain ⟨r, hr, hp, hh⟩ := hrounds id r' hr' hp' hash hh'
  obtain ⟨token, hmem, heq⟩ := h id r hr hp hash hh
  exact ⟨token, hissued _ hmem, heq⟩

section Steps

variable {cfg : Settings} {o : Owner} {t : Txn} {s : Store}

theorem commit_issued : ((Op.commit o t).apply s).history.issued =
    s.history.issued ++ t.issues.toList := rfl

/-- A decided round needs no token. -/
theorem Tokened.of_set {id : Nat} {r r' : ApprovalRequest} (h : Tokened cfg s)
    (hwrites : t.approvalWrites = [⟨id, r, r'⟩]) (hnew : t.newApprovals = [])
    (hr : s.approvals[id]? = some r) (hd : r'.decision ≠ .pending) :
    Tokened cfg ((Op.commit o t).apply s) := by
  refine h.of_rounds (fun x hx => by rw [commit_issued]; exact List.mem_append_left _ hx)
    (fun i q hq hp hash hh => ?_)
  rw [approvals_set hwrites hnew hr, List.getElem?_set] at hq
  split at hq
  · split at hq
    · cases hq
      exact absurd ((pick_row _ _).symm.trans hp) hd
    · cases hq
  · exact ⟨q, hq, hp, hh⟩

theorem Tokened.kept (h : Tokened cfg s) (ht : t.Keeps) :
    Tokened cfg ((Op.commit o t).apply s) := by
  refine h.of_rounds (fun x hx => by rw [commit_issued]; exact List.mem_append_left _ hx)
    (fun i q hq hp hash hh => ?_)
  rw [commit_approvals, ht.newApprovals, List.append_nil] at hq
  have hrow : ∀ w ∈ t.approvalWrites, ∀ x : ApprovalRequest,
      (ApprovalRequest.merge w.loaded w.changed x).decision = x.decision ∧
        (ApprovalRequest.merge w.loaded w.changed x).actionTokenHash = x.actionTokenHash := by
    intro w hw x
    obtain ⟨hd, hh⟩ := ht.writes w hw
    constructor
    · show pick w.loaded.decision w.changed.decision x.decision = x.decision
      rw [hd, pick_self]
    · show pick w.loaded.actionTokenHash w.changed.actionTokenHash x.actionTokenHash = _
      rw [hh, pick_self]
  obtain ⟨r, hr, hdec, hhash⟩ := flush_rel_of_get ApprovalRequest.merge
    (R := fun r r' : ApprovalRequest => r'.decision = r.decision ∧
      r'.actionTokenHash = r.actionTokenHash)
    (fun _ => ⟨rfl, rfl⟩) (fun _ _ _ h h' => ⟨h'.1.trans h.1, h'.2.trans h.2⟩)
    (fun w hw _ x => hrow w hw x) hq
  exact ⟨r, hr, hdec ▸ hp, hhash ▸ hh⟩

/-- A new round has no token yet, and the ones before it are closed. -/
theorem Tokened.opened {attempt : Nat} {raw : Doc} (h : Tokened cfg s) (ht : t.Keeps)
    (hwrites : t.approvalWrites = []) :
    Tokened cfg ((Op.commit o (createApprovalRequest cfg attempt raw t s)).apply s) := by
  unfold createApprovalRequest
  split
  · exact h.kept ht
  refine h.of_rounds (fun x hx => List.mem_append_left _ hx) (fun i q hq hp hash hh => ?_)
  rw [commit_approvals] at hq
  dsimp only at hq
  rw [hwrites, ht.newApprovals, List.nil_append, List.nil_append, List.getElem?_append,
    flush_length] at hq
  split at hq
  · change (flush _ (supersededWrites s.approvals) s.approvals)[i]? = some q at hq
    rw [superseded_get, Option.map_eq_some_iff] at hq
    obtain ⟨r, hr, hq⟩ := hq
    split at hq
    · rw [← hq] at hp
      cases hp
    · exact ⟨r, hr, hq ▸ hp, hq ▸ hh⟩
  · next hlt =>
      cases hi : i - s.approvals.length with
      | zero =>
          rw [hi] at hq
          rw [← Option.some.inj hq] at hh
          cases hh
      | succ n =>
          rw [hi] at hq
          cases hq

theorem Tokened.clicked {action : SlackActionInput} (h : Tokened cfg s) :
    Tokened cfg ((Op.commit o (processSlackAction cfg action s).1).apply s) := by
  have hidle : Tokened cfg ((Op.commit o {}).apply s) :=
    h.kept (keeps_events rfl rfl rfl rfl rfl)
  have hrefused : ∀ id outcome,
      Tokened cfg ((Op.commit o (refusedClick cfg action id outcome)).apply s) := by
    intro id outcome
    exact h.kept (keeps_writes rfl (ephemeralResponse_notification action id outcome) rfl
      (List.forall_mem_nil _) rfl)
  unfold processSlackAction
  dsimp only
  split
  · exact hidle
  split
  · exact hidle
  next id r hfound =>
  have hr := requestByToken_get hfound
  split
  · exact hidle
  split
  · exact hrefused id _
  unfold decideRound
  split
  · exact h.of_set rfl rfl hr ApprovalDecision.noConfusion
  split
  · exact hrefused id _
  split
  · exact hrefused id _
  split
  · exact hrefused id _
  split
  · exact hrefused id _
  split
  · exact h.of_set rfl rfl hr ApprovalDecision.noConfusion
  · exact h.of_set rfl rfl hr ApprovalDecision.noConfusion

theorem Tokened.tokenStored {w : Write ApprovalRequest} {token : String} (h : Tokened cfg s)
    (hd : w.changed.decision = w.loaded.decision)
    (hh : w.changed.actionTokenHash = some (hashActionToken cfg token)) :
    Tokened cfg ((Op.commit o
      { approvalWrites := [w], issues := some (token, w.id) }).apply s) := by
  intro i q hq hp hash hhash
  rw [commit_approvals, List.append_nil, flush_cons, flush_nil, List.getElem?_modify] at hq
  obtain ⟨r, hr, hq⟩ := Option.map_eq_some_iff.mp hq
  rw [commit_issued]
  split at hq
  · next hi =>
      have hdec : r.decision = .pending := by
        have hpick : pick w.loaded.decision w.changed.decision r.decision = .pending := by
          rw [← hp, ← hq]
          rfl
        rwa [hd, pick_self] at hpick
      have hpick : pick w.loaded.actionTokenHash w.changed.actionTokenHash r.actionTokenHash =
          some hash := by
        rw [← hhash, ← hq]
        rfl
      rcases pick_eq_or w.loaded.actionTokenHash w.changed.actionTokenHash r.actionTokenHash
        with heq | ⟨heq, -⟩
      · obtain ⟨token', hmem, heq'⟩ := h i r hr hdec hash (heq.symm.trans hpick)
        exact ⟨token', List.mem_append_left _ hmem, heq'⟩
      · refine ⟨token, List.mem_append_right _ ?_, ?_⟩
        · rw [← hi]
          exact List.mem_singleton.mpr rfl
        · rw [heq, hh] at hpick
          exact (Option.some.inj hpick).symm
  · subst hq
    obtain ⟨token', hmem, heq⟩ := h i r hr hp hash hhash
    exact ⟨token', List.mem_append_left _ hmem, heq⟩

theorem elsewhere_rounds {op : Op} (h : op.elsewhere = true) (s : Store) :
    (op.apply s).approvals = s.approvals ∧ (op.apply s).history.issued = s.history.issued := by
  cases op with
  | commit o t => cases h
  | _ => exact ⟨rfl, rfl⟩

theorem Tokened.apply {op : Op} (h : Tokened cfg s) (hop : Deed cfg s op) :
    Tokened cfg (op.apply s) := by
  cases hop with
  | elsewhere helse =>
      obtain ⟨happ, hiss⟩ := elsewhere_rounds helse s
      unfold Tokened
      rw [happ, hiss]
      exact h
  | kept ht _ => exact h.kept ht
  | opened ht hwrites _ => exact h.opened ht hwrites
  | clicked => exact h.clicked
  | expired hr _ => exact h.of_set rfl rfl hr ApprovalDecision.noConfusion
  | tokenStored hd hh => exact h.tokenStored hd hh

end Steps

/-- The tokens that were generated are remembered. -/
theorem issued_stays {cfg : Settings} {c c' : Pool Store Input Op Err} (h : Reachable cfg c)
    {chs : List (Choice Input Op Job)} (hrun : c.execAll (system cfg) chs = some c')
    {x : String × Nat} (hx : x ∈ c.store.history.issued) : x ∈ c'.store.history.issued := by
  obtain ⟨hperm, -⟩ := Pool.Reachable.each (P := fun _ => True) (deeds_sanctioned cfg) trivial
    (fun _ _ _ _ => trivial) h
  refine Pool.execAll_rel (P := fun _ => True)
    (R := fun s s' => x ∈ s.history.issued → x ∈ s'.history.issued) (deeds_sanctioned cfg)
    (fun _ h => h) (fun _ _ _ h h' hx => h' (h hx)) (fun s op _ hop => ⟨trivial, fun hx => ?_⟩)
    hperm trivial hrun hx
  cases op with
  | commit o t => exact List.mem_append_left _ hx
  | _ => exact hx

/-! ## Tokens that are not guessed -/

/-- What is assumed of the generated tokens and of SHA-256, for the clicks with one token. -/
structure TokensApart (cfg : Settings) (token : String) (s : Store) : Prop where
  /-- `secrets.token_urlsafe` draws from letters, digits, `-` and `_` -/
  urlSafe : ∀ x ∈ s.history.issued, ':' ∉ x.1.toList
  /-- no token is generated for two rounds -/
  distinct : ∀ x ∈ s.history.issued, ∀ y ∈ s.history.issued, x.1 = y.1 → x.2 = y.2
  /-- SHA-256 has no collision among the strings it is applied to -/
  collisionFree : Set.InjOn cfg.sha256 {text | (∃ id, (text, id) ∈ s.history.issued) ∨
    text = token ∨ text = "retired:" ++ hashActionToken cfg token}

/-- The token of a click that matches an undecided round was generated for that round and has
not been retired. -/
theorem token_of_match {cfg : Settings} {action : SlackActionInput} {s : Store} {id : Nat}
    {r : ApprovalRequest} (hinv : Tokened cfg s) (hapart : TokensApart cfg action.token s)
    (hr : s.approvals[id]? = some r) (hent : Entitled cfg action s id r) :
    (action.token, id) ∈ s.history.issued ∧
      r.actionTokenHash = some (hashActionToken cfg action.token) := by
  rcases hent.token with hhash | hhash
  · obtain ⟨token, hmem, heq⟩ := hinv id r hr hent.pending _ hhash
    have htok : action.token = token :=
      hapart.collisionFree (Or.inr (Or.inl rfl)) (Or.inl ⟨id, hmem⟩) heq
    exact ⟨htok ▸ hmem, hhash⟩
  · -- a retired hash is not the hash of a token
    obtain ⟨token, hmem, heq⟩ := hinv id r hr hent.pending _ hhash
    have htok : "retired:" ++ hashActionToken cfg action.token = token :=
      hapart.collisionFree (Or.inr (Or.inr rfl)) (Or.inl ⟨id, hmem⟩) heq
    refine absurd ?_ (hapart.urlSafe _ hmem)
    rw [← htok, String.toList_append]
    exact List.mem_append_left _ (by decide)

/-- **Only an authorised, live, current click decides**: in every store a click decides at most
what it is entitled to decide; in every store that is reached the token it presents is then the
one that is stored for the round; and a token whose round is closed never decides again. -/
theorem clicks_rightful (cfg : Settings) (action : SlackActionInput) (o : Owner) :
    (∀ s, Rightful cfg action s ((Op.commit o (processSlackAction cfg action s).1).apply s)) ∧
    ∀ c, Reachable cfg c →
      (TokensApart cfg action.token c.store → ∀ (id : Nat) (r : ApprovalRequest),
        Decides c.store ((Op.commit o (processSlackAction cfg action c.store).1).apply c.store) id r →
        r.actionTokenHash = some (hashActionToken cfg action.token)) ∧
      ∀ (chs : List (Choice Input Op Job)) (c' : Pool Store Input Op Err),
        c.execAll (system cfg) chs = some c' → TokensApart cfg action.token c'.store →
        ∀ (id : Nat) (r : ApprovalRequest), (action.token, id) ∈ c.store.history.issued →
          c.store.approvals[id]? = some r → r.decision ≠ .pending →
          Undecided c'.store
            ((Op.commit o (processSlackAction cfg action c'.store).1).apply c'.store) := by
  have hclick := processSlackAction_rightful cfg action o
  have hinv : ∀ c, Reachable cfg c → Tokened cfg c.store := fun c hc =>
    (Pool.Reachable.each (P := Tokened cfg) (deeds_sanctioned cfg) (fun _ _ h => by cases h)
      (fun s op h hop => h.apply hop) hc).2
  refine ⟨hclick, fun c hc => ⟨fun hapart id r hd => ?_, fun chs c' hrun hapart id r hmem hr hp => ?_⟩⟩
  · exact (token_of_match (hinv c hc) hapart hd.1 ((hclick c.store).1 id r hd)).2
  · refine (hclick c'.store).2.resolve_left ?_
    rintro ⟨i, q, hd⟩
    have hent := (hclick c'.store).1 i q hd
    have hc' : Reachable cfg c' := hc.execAll hrun
    have hissued := (token_of_match (hinv c' hc') hapart hd.1 hent).1
    -- tokens are kept in the history, and decisions in the rows
    have hmem' := issued_stays hc hrun hmem
    have hid : i = id := hapart.distinct _ hissued _ hmem' rfl
    obtain ⟨r', hr', hdec⟩ := decided_stays hc hrun hr hp
    subst hid
    rw [hd.1] at hr'
    cases hr'
    exact hp (hdec ▸ hent.pending)

/-- SHA-256 on the strings of a run with one token. -/
def digest (text : String) : String :=
  if text = demoToken then "37bf98ac28561e59acd26011f3f4a36c5705e0188a155f62ac6cb2aedbcf80cf"
  else if text = "retired:37bf98ac28561e59acd26011f3f4a36c5705e0188a155f62ac6cb2aedbcf80cf" then
    "3ffbaa8cebe3adfb87be74da191b13456273a3e13cd58e43d1f5501d1c768d9b"
  else ""

def digestSettings : Settings := { demoSettings with sha256 := digest }

theorem tokensApart_demo {s : Store} (h : s.history.issued = [(demoToken, 0)]) :
    TokensApart digestSettings demoToken s where
  urlSafe := by
    rw [h]
    decide
  distinct := by
    rw [h]
    decide
  collisionFree := by
    have hset : ∀ text, text ∈ {text | (∃ id, (text, id) ∈ s.history.issued) ∨
        text = demoToken ∨ text = "retired:" ++ hashActionToken digestSettings demoToken} →
        text = demoToken ∨ text = "retired:" ++ hashActionToken digestSettings demoToken := by
      rintro text (⟨id, hid⟩ | htext)
      · rw [h] at hid
        exact Or.inl (congrArg Prod.fst (List.mem_singleton.mp hid))
      · exact htext
    intro x hx y hy hxy
    rcases hset x hx with rfl | rfl
    · rcases hset y hy with rfl | rfl
      · rfl
      · exact absurd hxy (by decide)
    · rcases hset y hy with rfl | rfl
      · exact absurd hxy (by decide)
      · rfl

/-- What the click of an approver commits. -/
def demoClicked (actionId : String) (s : Store) : Store :=
  (Op.commit 9 (processSlackAction digestSettings (demoClick actionId) s).1).apply s

theorem clicks_rightful_demo :
    (∃ c, Reachable digestSettings c ∧ ∃ r, Decides c.store (demoClicked actionApprove c.store) 0 r ∧
      Entitled digestSettings (demoClick actionApprove) c.store 0 r ∧
      r.actionTokenHash = some (digest demoToken)) ∧
    ∃ c, Reachable digestSettings c ∧ c.store.approvals.map (·.decision) = [.approved] ∧
      Undecided c.store (demoClicked actionReject c.store) := by
  constructor
  · obtain ⟨c, hc, hview⟩ := reachable_of_runSchedule digestSettings postedSchedule
      (fun s => (s.history.issued, s.approvals.map (·.decision),
        (demoClicked actionApprove s).approvals.map (·.decision)))
      ([(demoToken, 0)], [.pending], [.approved]) (by decide +kernel)
    obtain ⟨hissued, hview⟩ := Prod.mk.inj hview
    obtain ⟨hbefore, hafter⟩ := Prod.mk.inj hview
    obtain ⟨r, hr, hd⟩ := List.map_eq_singleton_iff.mp hbefore
    obtain ⟨r', hr', hd'⟩ := List.map_eq_singleton_iff.mp hafter
    obtain ⟨hright, hruns⟩ := clicks_rightful digestSettings (demoClick actionApprove) 9
    have hdecides : Decides c.store (demoClicked actionApprove c.store) 0 r := by
      refine ⟨by rw [hr]; rfl, r', by rw [hr']; rfl, Or.inl hd', ?_⟩
      rw [hd, hd']
      exact ApprovalDecision.noConfusion
    exact ⟨c, hc, r, hdecides, (hright c.store).1 0 r hdecides,
      (hruns c hc).1 (tokensApart_demo hissued) 0 r hdecides⟩
  · obtain ⟨c, hc, hview⟩ := reachable_of_runSchedule digestSettings
      (postedSchedule ++ clickSchedule 3 actionApprove)
      (fun s => (s.history.issued, s.approvals.map (·.decision)))
      ([(demoToken, 0)], [.approved]) (by decide +kernel)
    obtain ⟨hissued, hdecisions⟩ := Prod.mk.inj hview
    obtain ⟨r, hr, hd⟩ := List.map_eq_singleton_iff.mp hdecisions
    obtain ⟨-, hruns⟩ := clicks_rightful digestSettings (demoClick actionReject) 9
    refine ⟨c, hc, hdecisions, (hruns c hc).2 [] c rfl (tokensApart_demo hissued) 0 r ?_ ?_ ?_⟩
    · rw [hissued]
      exact List.mem_singleton.mpr rfl
    · rw [hr]
      rfl
    · rw [hd]
      exact ApprovalDecision.noConfusion

/-- The rounds of a store, undecided ones too, with the token of the demonstration retired. -/
def withRetiredToken (s : Store) : Store :=
  { s with approvals := s.approvals.map fun r => { r with
    actionTokenHash := some (retiredTokenHash digestSettings (digest demoToken)) } }

/-- An undecided round with the hash of a retired token, which no run leaves behind, would be
decided by a click with that token. -/
theorem retired_token_decides : ∃ s r,
    Decides s (demoClicked actionApprove s) 0 r ∧
      r.actionTokenHash ≠ some (hashActionToken digestSettings demoToken) := by
  obtain ⟨c, -, hview⟩ := reachable_of_runSchedule digestSettings postedSchedule
    (fun s => (s.approvals.map (·.decision),
      (demoClicked actionApprove (withRetiredToken s)).approvals.map (·.decision)))
    ([.pending], [.approved]) (by decide +kernel)
  obtain ⟨hbefore, hafter⟩ := Prod.mk.inj hview
  obtain ⟨r, hr, hd⟩ := List.map_eq_singleton_iff.mp hbefore
  obtain ⟨r', hr', hd'⟩ := List.map_eq_singleton_iff.mp hafter
  refine ⟨withRetiredToken c.store, { r with
    actionTokenHash := some (retiredTokenHash digestSettings (digest demoToken)) }, ?_, ?_⟩
  · refine ⟨by unfold withRetiredToken; rw [hr]; rfl, r', by rw [hr']; rfl, Or.inl hd', ?_⟩
    rw [hd', hd]
    exact ApprovalDecision.noConfusion
  · exact fun h => absurd (Option.some.inj h) (by decide)

end Remediator
