import Remediator.Spend.Rules

set_option autoImplicit false

/-! # The create of an attempt, and everything else

Only `_create` inserts an attempt and calls `create_session`: it computes the ordinal, refuses one
above the maximum, commits the row, and sends the request for the row it has committed.
-/

namespace Remediator

open Interleave

/-! ## `_create` -/

section Runner

variable {cfg : Settings} {r : Runner} {known : Option RemediationContext} {α : Type}

/-- The request for the row that the thread has inserted is sent once. -/
theorem send_frugal (st : CaseState) (a : AttemptObj) :
    Safe (system cfg) (spendContract cfg) r.owner (r.send st a)
      (fun s => Inserted r.owner a.id s ∧ Informed r.owner {} s) (fun _ => Informed r.owner {})
      (fun _ => Informed r.owner {}) := by
  have hstable := (inserted_stable cfg r.owner a.id).and (informed_stable cfg r.owner {})
  refine Safe.bind (Q := fun _ s => Inserted r.owner a.id s ∧ Informed r.owner {} s) ?_
    (fun built => ?_)
  · rintro i s _ ⟨hs, hwork⟩
    refine ⟨trivial, _, hstable, ⟨hs, hwork.still rfl rfl rfl rfl rfl⟩, ?_⟩
    show Safe _ _ _ (unlessFault i _) _ _ _
    unfold unlessFault
    split
    · exact fun _ _ hs => hs.2
    · exact fun _ _ hs => hs
  · by_cases hbuilt : built = false
    · rw [if_pos hbuilt]
      exact (Thrifty.frugal (failCreate_calmly r st a .notSent)).pre (fun _ _ hs => hs.2)
    · rw [if_neg hbuilt]
      refine Safe.bind (Q := fun a' s => a'.id = a.id ∧ Inserted r.owner a.id s ∧
        Informed r.owner {} s) ?_ (fun a' => Safe.assume (fun hid => ?_))
      · refine safe_tx (fun _ => trivial) (informed_stable cfg r.owner {})
          (fun _ hs => hs.2.still rfl rfl rfl rfl rfl) (fun _ => Stable.const.and hstable)
          (fun i s t x _ hs hbody hvalid _ => ?_)
        cases hbody
        exact ⟨spends_of_thrifty hvalid rfl, rfl, hs.1.commit rfl, hs.2.thrifty hvalid rfl⟩
      · refine Safe.bind (Q := fun _ => Informed r.owner {}) ?_ (fun res => ?_)
        · rintro i s _ ⟨hs, hwork⟩
          refine ⟨⟨rfl, ?_⟩, _, informed_stable cfg r.owner {},
            hwork.still rfl rfl rfl rfl rfl, ?_⟩
          · rw [hid]
            exact hs
          · show Safe _ _ _ (unlessFault i _) _ _ _
            unfold unlessFault
            split
            · exact fun _ _ hs => hs
            · exact fun _ _ hs => hs
        · refine Thrifty.frugal ?_
          split
          · exact failCreate_calmly r st a' .apiError
          · refine CalmIn.bind (.tx (fun _ _ => ?_)) (fun x => reconcileCreate_calmly r x.1 x.2)
            have hp := phaseForKind_calm a'.row.kind false
            show Txn.calm _ _ _ = true
            simp [Txn.calm, Runner.txn, hp]
          · exact .bind (attach_calmly r st a' _ .created) (fun _ => trivial)

/-- An attempt of triage needs no run, and one of remediation has what the context says. -/
theorem newAttempt_backed {kind : AttemptKind} {ctx : Option RemediationContext} {c : Core}
    (hkind : kind = .remediation ↔ ctx.isSome = true) (hctx : ∀ x, ctx = some x → x.Backed c)
    (ordinal now : Nat) : (r.newAttempt kind ordinal now ctx).Backed c := by
  cases ctx with
  | some x =>
      have hremediation : kind = .remediation := hkind.mpr rfl
      subst hremediation
      exact hctx x rfl r ordinal now
  | none =>
      have htriage : kind ≠ .remediation := by
        intro hremediation
        cases hkind.mp hremediation
      exact ⟨fun hremediation _ => absurd hremediation htriage,
        fun hneeds => absurd hneeds.1 htriage, fun e he => by cases he⟩

/-- An attempt of remediation is one of the last dispatch, if that was for the free run. -/
theorem newAttempt_dispatched {ctx : RemediationContext} {s : Store} (h : ctx.Loaded s)
    (hdecided : s.Decided) (ordinal now : Nat) :
    s.DispatchedAs (r.newAttempt .remediation ordinal now (some ctx)).row := by
  have hstatus : (r.newAttempt .remediation ordinal now (some ctx)).row.probeStatus =
      if ctx.probe.isNone then .notConfigured else .verified := rfl
  refine ⟨fun hbare => ?_, fun hverified => ?_⟩
  · have hnone : ctx.probe = none := by
      cases hprobe : ctx.probe with
      | none => rfl
      | some probe =>
          have hprobed := hdecided (h.probed (by rw [hprobe]; rfl))
          rw [hbare] at hprobed
          cases hprobed
    obtain ⟨req, d, hreq, hhash, hd, hbase⟩ := h.bare hnone
    refine ⟨?_, ?_, ctx.approval, req, d, rfl, hreq, congrArg some hhash.symm, ?_,
      congrArg some hbase⟩
    · rw [hstatus, hnone]
      rfl
    · show ctx.probe.map (·.1) = none
      rw [hnone]
      rfl
    · rw [hhash]
      exact hd
  · cases hprobe : ctx.probe with
    | some probe => exact hdecided (h.probed (by rw [hprobe]; rfl))
    | none =>
        rw [hstatus, hprobe] at hverified
        cases hverified

/-- The row that is inserted has the ordinal that was computed, and its evidence is what was
loaded. -/
theorem insertAttempt_frugal {kind : AttemptKind} {ordinal : Nat}
    {ctx : Option RemediationContext} (hpos : 0 < ordinal)
    (hle : ordinal ≤ cfg.maxAttemptsPerKind) (hkind : kind = .remediation ↔ ctx.isSome = true) :
    Safe (system cfg) (spendContract cfg) r.owner (r.insertAttempt kind ordinal ctx)
      (Informed r.owner { context := ctx, decided := ctx.isSome })
      (fun a s => Inserted r.owner a.id s ∧ Informed r.owner {} s)
      (fun _ => Informed r.owner {}) := by
  refine spend_tx
    (fun a => (inserted_stable cfg r.owner a.id).and (informed_stable cfg r.owner {}))
    (fun i s t a hs hbody hvalid hunique => ?_)
  cases hbody
  refine ⟨⟨hvalid, hunique, fun _ => rfl, fun _ _ => rfl, fun n hn => ?_, fun halone _ => ?_,
    fun halone n hn => ?_, fun x hx => (by cases hx), fun _ hprobe => ?_,
    fun hstraight n hn hremediation => ?_⟩, ?_, hs.stays rfl⟩
  · cases hn
    cases ctx <;> exact ⟨hpos, hle⟩
  · exact (hs halone).works
  · cases hn
    exact newAttempt_backed hkind (hs halone).backed ordinal s.now
  · rcases hprobe with hsnapshots | ⟨x, hx, -⟩
    · exact absurd rfl hsnapshots
    · cases hx
  · cases hn
    cases ctx with
    | none =>
        have hsome := hkind.mp hremediation
        cases hsome
    | some x =>
        have hkind : kind = .remediation := hkind.mpr rfl
        subst hkind
        have hknows := hs hstraight.alone
        exact newAttempt_dispatched (hknows.loaded x rfl) (hknows.decided hstraight rfl) ordinal
          s.now
  · unfold Inserted
    rw [commit_inserted, if_pos ⟨rfl, rfl⟩]

theorem create_frugal (hcfg : r.cfg = cfg) {kind : AttemptKind} (st : CaseState)
    (hknown : kind = .remediation → r.remediation = known) :
    Safe (system cfg) (spendContract cfg) r.owner (r.create kind st)
      (Informed r.owner { context := known, decided := known.isSome })
      (fun _ => Informed r.owner {}) (fun _ => Informed r.owner {}) := by
  have hdrop : ∀ {β : Type} {p : P β}, Thrifty p →
      Safe (system cfg) (spendContract cfg) r.owner p
        (Informed r.owner { context := known, decided := known.isSome })
        (fun _ => Informed r.owner {}) (fun _ => Informed r.owner {}) :=
    fun hp => (Thrifty.frugal hp).pre (fun _ _ hs => hs.drop)
  refine Safe.bind
    (Q := fun x s => 0 < x.1 ∧ Informed r.owner { context := known, decided := known.isSome } s) ?_
    (fun x => Safe.assume (fun hpos => ?_))
  · refine spend_tx (fun _ => Stable.const.and (informed_stable cfg r.owner _))
      (fun i s t x hs hbody hvalid _ => ?_)
    cases hbody
    exact ⟨spends_of_thrifty hvalid rfl, Nat.succ_pos _, hs.thrifty hvalid rfl⟩
  · dsimp only
    split
    · exact hdrop (refuse_calmly r st [])
    · next hle =>
        rw [hcfg] at hle
        refine Safe.bind (Thrifty.keeps (settlePrevious_calmly x.2.2 x.2.1 [])) (fun y => ?_)
        split
        · exact hdrop (refuse_calmly r st y.1)
        · refine Safe.bind (Thrifty.keeps (.tx (fun _ _ => rfl))) (fun _ => ?_)
          split
          · exact hdrop (refuse_calmly r st [])
          · next hmissing =>
              generalize hctx : (if kind = .remediation then r.remediation else none) = ctx
              split
              · exact fun _ _ hs => hs.drop
              · refine Safe.bind ((insertAttempt_frugal hpos (Nat.le_of_not_lt hle) ?_).pre
                  (fun s _ hs => hs.narrow (fun x hx => ?_))) (send_frugal st)
                · subst hctx
                  by_cases hkind : kind = .remediation
                  · simpa [hkind, Option.isSome_iff_ne_none] using hmissing
                  · simp [hkind]
                · subst hctx
                  split at hx
                  · next hkind =>
                      rw [← hknown hkind]
                      exact hx
                  · cases hx

/-! ## The jobs that may come to a create -/

/-- To create an attempt in a case whose sessions are to be ended is an incident, if a run is free
that the last dispatch was not for. -/
theorem seekAttempt_frugal {kind : AttemptKind} {st : CaseState} {decided : Bool}
    (hdecided : decided = true ∨ st = .remediationTerminationPending ∨ known = none) :
    Safe (system cfg) (spendContract cfg) r.owner
      (tx r.owner (fun _ s =>
        let active := newestAttempt (activeOfKind kind) s.core.attempts
        .ok ({ r.txn with creates := if active.isNone then some st else none }, active)))
      (Informed r.owner { context := known, decided := decided })
      (fun active => Informed r.owner
        { context := known, decided := active.isNone && known.isSome })
      (fun _ => Informed r.owner {}) := by
  refine spend_tx (fun _ => informed_stable cfg r.owner _)
    (fun i s t active hs hbody hvalid _ => ?_)
  cases hbody
  refine ⟨spends_of_thrifty hvalid rfl, fun halone => ?_⟩
  have hknows := hs.thrifty hvalid rfl halone
  refine ⟨hknows.works, hknows.backed, hknows.loaded, fun hstraight hyes => ?_,
    fun _ hst => by cases hst⟩
  obtain ⟨hnone, hsome⟩ := Bool.and_eq_true_iff.mp hyes
  rcases hdecided with hyes | hst | hknown
  · exact hknows.decided hstraight hyes
  · have hno := (not_hit_apply hstraight).2 .createdTerminating (by decide)
    rw [if_pos hnone, hst] at hno
    change (true && s.core.freeRun && decide (intentFrom s.log ≠ some .probeValidatingBase)) =
      false at hno
    intro hfree
    rw [freeRun_commit rfl (fun x hx => by cases hx) hfree, Bool.true_and, Bool.true_and,
      decide_eq_false_iff_not, not_not] at hno
    rw [intentFrom_commit (by rintro ⟨m, hm, -⟩; cases hm)]
    exact hno
  · rw [hknown] at hsome
    cases hsome

theorem run_frugal (hcfg : r.cfg = cfg) {kind : AttemptKind} {st : CaseState} {decided : Bool}
    (hknown : kind = .remediation → r.remediation = known)
    (hdecided : decided = true ∨ st = .remediationTerminationPending ∨ known = none) :
    Safe (system cfg) (spendContract cfg) r.owner (r.run kind st)
      (Informed r.owner { context := known, decided := decided })
      (fun _ => Informed r.owner {}) (fun _ => Informed r.owner {}) := by
  refine Safe.bind (seekAttempt_frugal hdecided) (fun active => ?_)
  split
  · refine Safe.bind (Thrifty.keeps (acquireSlot_calmly r _ _)) (fun granted => ?_)
    split
    · exact fun _ _ hs => hs.drop
    · refine Safe.bind (create_frugal hcfg st hknown) (fun x => ?_)
      split
      · exact Frugal.ret _
      · exact Thrifty.frugal (startPoll_calmly r _ _)
  · next a =>
      -- an attempt that is there is only looked up
      refine Safe.pre (Thrifty.frugal (CalmIn.ite ?_ (.ite ?_ ?_))) (fun _ _ hs => hs.drop)
      · split
        · exact terminateByTag_calmly r st a
        · exact handleTimeout_calmly r st a _
      · refine CalmIn.bind (reconcileCreate_calmly r st a) (fun x => ?_)
        split
        · trivial
        · exact startPoll_calmly r _ _
      · refine CalmIn.bind (.tx (fun _ _ => ?_)) (fun st => startPoll_calmly r st a)
        have hp := phaseForKind_calm kind false
        split
        · show Txn.calm _ _ _ = true
          simp [Txn.calm, Runner.txn, hp]
        · rfl

theorem createApprovalRequest_thrifty (cfg : Settings) (attempt : Nat) (raw : Doc) (t : Txn)
    (s : Store) : (createApprovalRequest cfg attempt raw t s).thrifty = t.thrifty := by
  unfold createApprovalRequest
  split
  · rfl
  · rfl

theorem failCase_thrifty {claim : Option Owner} {st : CaseState} {t : Txn} {s : Store}
    (h : t.thrifty = true) : (failCase claim st t s).1.thrifty = true := by
  obtain ⟨hpending, hfailed, -⟩ := phaseForState_calm st false
  have hpending := calm_dst hpending
  have hfailed := calm_dst hfailed
  simp only [Txn.thrifty, Bool.and_eq_true] at h
  unfold failCase
  dsimp only
  repeat' split
  all_goals simp [Txn.thrifty, h, hpending, hfailed]

theorem finishTriage_frugal (st : CaseState) (out : RunOutcome) :
    Frugal cfg r.owner (r.finishTriage st out) := by
  unfold Runner.finishTriage
  split
  · refine .tx (fun i s t a hbody => ?_)
    dsimp only at hbody
    split at hbody
    · cases hbody
      exact failCase_thrifty rfl
    · cases hbody
      exact createApprovalRequest_thrifty _ _ _ _ _
  · exact .ret _

theorem runTriage_frugal (hcfg : r.cfg = cfg) (st : CaseState) :
    Frugal cfg r.owner (r.runTriage st) :=
  .bind (run_frugal hcfg nofun (Or.inr (Or.inr rfl))) (fun x => finishTriage_frugal x.1 x.2)

theorem processTermination_frugal (hcfg : r.cfg = cfg) (hnone : r.remediation = none)
    (st : CaseState) : Frugal cfg r.owner (r.processTermination st) := by
  refine .bind (Thrifty.frugal (.tx (fun _ _ => rfl))) (fun pending => ?_)
  split
  · exact .bind (Thrifty.frugal (terminateCase_calmly r st)) (fun _ => .ret _)
  · exact .bind (run_frugal hcfg (fun _ => hnone) (Or.inr (Or.inr rfl))) (fun x =>
      .ite (fun _ => finishTriage_frugal x.1 x.2) (fun _ => .ret _))

theorem processTriage_frugal (hcfg : r.cfg = cfg) (hnone : r.remediation = none)
    (st : CaseState) : Frugal cfg r.owner (r.processTriage st) := by
  unfold Runner.processTriage
  split
  · exact .bind (Thrifty.frugal (evaluateEligibility_calmly r _)) (fun _ =>
      .ite (fun _ => runTriage_frugal hcfg _) (fun _ => .ret _))
  · exact runTriage_frugal hcfg _
  · exact runTriage_frugal hcfg _
  · exact .bind (Thrifty.frugal (.tx (fun _ _ => rfl))) (fun _ =>
      .ite (fun _ => runTriage_frugal hcfg _) (fun _ => .ret _))
  · refine .bind (Thrifty.frugal (reconcileBlocked_calmly r .triage _)) (fun found => ?_)
    split
    · exact .ret _
    · exact finishTriage_frugal _ _
  · exact processTermination_frugal hcfg hnone _
  · exact .ret _

/-! ### The pipeline -/

/-- The context that is loaded has a run that is free. -/
theorem dispatchContext_backed {s : Store} {ctx : RemediationContext}
    (h : dispatchContext cfg s = some ctx) : ctx.Backed s.core := by
  unfold dispatchContext at h
  split at h
  · cases h
  · next id req _ =>
      split at h
      · next hprobe =>
          -- without a probe no run is needed
          obtain ⟨d, -, rfl⟩ := Option.map_eq_some_iff.mp h
          refine fun r ordinal now => ⟨fun _ _ => ?_, fun hneeds => (by cases hneeds.2),
            fun e he => (by cases he)⟩
          exact List.getLast?_eq_none_iff.mp (Option.map_eq_none_iff.mp hprobe)
      · next probe hprobe =>
          obtain ⟨e, he, rfl⟩ := Option.map_eq_some_iff.mp h
          have hmem := (List.mem_filter.mp (List.mem_of_getLast? he)).2
          split at hmem
          · next x hx =>
              simp only [Bool.and_eq_true, decide_eq_true_eq, Option.isNone_iff_eq_none] at hmem
              obtain ⟨⟨⟨⟨⟨hsnapshot, htarget⟩, hverdict⟩, hcommit⟩, hscript⟩, hfree⟩ := hmem
              obtain ⟨p, hp, rfl⟩ := Option.map_eq_some_iff.mp hprobe
              refine fun r ordinal now => ⟨fun _ hstatus => (by cases hstatus), fun _ => rfl,
                fun e' he' => ?_⟩
              cases he'
              refine ⟨x, hx, hfree, htarget, hverdict, ?_, ?_, p, ?_, hscript⟩
              · exact congrArg some hsnapshot.symm
              · exact congrArg some hcommit.symm
              · rw [hsnapshot, ← List.getLast?_eq_getElem?]
                exact hp
          · cases hmem

theorem runAttempt_frugal (hcfg : r.cfg = cfg) {st : CaseState} {decided : Bool}
    (hdecided : decided = true ∨ st = .remediationTerminationPending) :
    Safe (system cfg) (spendContract cfg) r.owner (r.runAttempt st)
      (Informed r.owner { context := r.remediation, decided := decided })
      (fun _ => Informed r.owner {}) (fun _ => Informed r.owner {}) := by
  refine Safe.bind (run_frugal hcfg (fun _ => rfl) (hdecided.imp id Or.inl)) (fun x => ?_)
  dsimp only
  split
  · exact Frugal.tx (fun i s t a hbody => by cases hbody; rfl)
  · exact Frugal.ret _

/-- The context is loaded from a free run, or from the recorded decision if there is no snapshot. -/
theorem dispatchContext_loaded {s : Store} {ctx : RemediationContext}
    (h : dispatchContext cfg s = some ctx) : ctx.Loaded s := by
  unfold dispatchContext at h
  split at h
  · cases h
  · next id req hrequest =>
      obtain ⟨happroved, -⟩ := Option.filter_eq_some_iff.mp hrequest
      have hround : s.approvals[id]? = some req := approvedRequest_get happroved
      split at h
      · obtain ⟨d, hd, rfl⟩ := Option.map_eq_some_iff.mp h
        exact ⟨fun _ => ⟨req, d, hround, rfl, hd, rfl⟩, fun hprobe => by cases hprobe⟩
      · next probe hprobe =>
          obtain ⟨e, he, rfl⟩ := Option.map_eq_some_iff.mp h
          exact ⟨fun hnone => (by cases hnone), fun _ => freeRun_of_matched hprobe he⟩

theorem loadContext_frugal (st : CaseState) :
    Safe (system cfg) (spendContract cfg) r.owner r.loadContext
      (Informed r.owner { copy := some st })
      (fun ctx => Informed r.owner { context := ctx, decided := st.dispatched })
      (fun _ => Informed r.owner {}) := by
  refine spend_tx (fun _ => informed_stable cfg r.owner _)
    (fun i s t ctx hs hbody hvalid _ => ?_)
  cases hbody
  have hinformed : Informed r.owner
      { context := dispatchContext r.cfg s, decided := st.dispatched } s := by
    intro halone
    have hknows := hs halone
    exact ⟨hknows.works, fun ctx hctx => dispatchContext_backed hctx,
      fun ctx hctx => dispatchContext_loaded hctx,
      fun hstraight hst => (hknows.follows st rfl).decided hst hstraight,
      fun _ hst => by cases hst⟩
  exact ⟨spends_of_thrifty hvalid rfl, hinformed.thrifty hvalid rfl⟩

theorem runSession_frugal (hcfg : r.cfg = cfg) {st : CaseState}
    (hst : st.remediationSession = true) :
    Safe (system cfg) (spendContract cfg) r.owner (r.runSession st)
      (Informed r.owner { copy := some st }) (fun _ => Informed r.owner {})
      (fun _ => Informed r.owner {}) := by
  have hdecided : st.dispatched = true ∨ st = .remediationTerminationPending := by
    revert hst
    cases st <;> decide
  refine Safe.bind (loadContext_frugal st) (fun ctx => ?_)
  extract_lets r' run cancel enter
  have hrun : ∀ u, Safe (system cfg) (spendContract cfg) r.owner (run u)
      (Informed r.owner { context := ctx, decided := st.dispatched })
      (fun _ => Informed r.owner {}) (fun _ => Informed r.owner {}) :=
    fun _ => runAttempt_frugal (r := r') hcfg hdecided
  have hcancel : ∀ cancelled, Safe (system cfg) (spendContract cfg) r.owner (cancel cancelled)
      (Informed r.owner { context := ctx, decided := st.dispatched })
      (fun _ => Informed r.owner {}) (fun _ => Informed r.owner {}) := by
    intro cancelled
    unfold cancel
    split
    · exact Safe.pre (Frugal.bind (Thrifty.frugal (terminateCase_calmly r' st))
        (fun _ => .ret _)) (fun _ _ hs => hs.drop)
    · split
      · exact Safe.bind (Thrifty.keeps (acquireResourceKeys_calmly r' st)) hrun
      · exact hrun ()
  have henter : ∀ refused, Safe (system cfg) (spendContract cfg) r.owner (enter refused)
      (Informed r.owner { context := ctx, decided := st.dispatched })
      (fun _ => Informed r.owner {}) (fun _ => Informed r.owner {}) := by
    intro refused
    unfold enter
    split
    · exact Safe.pre (Frugal.bind (Thrifty.frugal (failDispatch_calmly r st))
        (fun _ => .ret _)) (fun _ _ hs => hs.drop)
    · split
      · exact Safe.bind (Thrifty.keeps (.tx (fun _ _ => rfl))) hcancel
      · exact hcancel false
  split
  · exact henter false
  · exact Safe.bind (Thrifty.keeps (.tx (fun _ _ => rfl))) henter

/-! ### The probe -/

/-- What a job at work commits about a run; at the base commit only before the case is dispatched,
and it is not linked yet. -/
theorem probe_tx {k : Knowledge} {Q : α → Store → Prop}
    {body : Input → Store → Except Err (Txn × α)}
    (hQ : ∀ a, Stable (system cfg) (spendContract cfg) r.owner (Q a))
    (h : ∀ i s t a, body i s = .ok (t, a) → t.insert = none ∧ t.starts = false ∧
      ∀ x ∈ t.executions, x.target = .base → x.attemptId = none)
    (hprobes : ∀ i s t a, Informed r.owner k s → body i s = .ok (t, a) → s.alone →
      t.snapshots ≠ [] ∨ (∃ x ∈ t.executions, x.target = .base) →
      (movesEnd t.moves s.case.state).dispatched = false)
    (hpost : ∀ i s t a, Informed r.owner k s → body i s = .ok (t, a) →
      movesOk t.moves s.case = true → Q a ((Op.commit r.owner t).apply s)) :
    Safe (system cfg) (spendContract cfg) r.owner (Remediator.tx r.owner body) (Informed r.owner k)
      Q (fun _ => Informed r.owner {}) := by
  refine spend_tx hQ (fun i s t a hs hbody hvalid _ => ?_)
  obtain ⟨hinsert, -, hruns⟩ := h i s t a hbody
  exact ⟨spends_of_none hvalid hinsert (fun _ => rfl) (fun halone _ => (hs halone).works) hruns
    (hprobes i s t a hs hbody), hpost i s t a hs hbody hvalid⟩

/-- A step before the dispatch that stays before it. -/
theorem aside_tx {st : CaseState} (hst : st.dispatched = false)
    {body : Input → Store → Except Err (Txn × CaseState)}
    (h : ∀ i s t st', body i s = .ok (t, st') → t.thrifty = true ∧ st'.dispatched = false) :
    Safe (system cfg) (spendContract cfg) r.owner (Remediator.tx r.owner body)
      (Informed r.owner { copy := some st }) (fun st' => Informed r.owner { copy := some st' })
      (fun _ => Informed r.owner {}) := by
  refine spend_tx (fun _ => informed_stable cfg r.owner _) (fun i s t st' hs hbody hvalid _ => ?_)
  obtain ⟨hthrifty, hst'⟩ := h i s t st' hbody
  exact ⟨spends_of_thrifty hvalid hthrifty, (hs.thrifty hvalid hthrifty).copied hst hst'⟩

/-- The case is dispatched. -/
theorem enter_tx {k : Knowledge} {body : Input → Store → Except Err (Txn × CaseState)}
    (h : ∀ i s t st', body i s = .ok (t, st') → t.insert = none ∧ t.starts = false ∧
      t.snapshots = [] ∧ t.executions = [] ∧ t.enters ∧ st' = .remediationCreateIntent) :
    Safe (system cfg) (spendContract cfg) r.owner (Remediator.tx r.owner body) (Informed r.owner k)
      (fun st' => Informed r.owner { copy := some st' }) (fun _ => Informed r.owner {}) := by
  refine spend_tx (fun _ => informed_stable cfg r.owner _) (fun i s t st' hs hbody hvalid _ => ?_)
  obtain ⟨hinsert, hstarts, hsnapshots, hexecutions, henters, rfl⟩ := h i s t st' hbody
  have hruns : ∀ x, x ∉ t.executions := by
    intro x hx
    rw [hexecutions] at hx
    cases hx
  refine ⟨spends_of_none hvalid hinsert (fun _ => rfl) (fun halone _ => (hs halone).works)
    (fun x hx => absurd hx (hruns x)) (fun _ hprobe => ?_), fun halone => ?_⟩
  · rcases hprobe with hsome | ⟨x, hx, -⟩
    · exact absurd hsnapshots hsome
    · exact absurd hx (hruns x)
  · refine { hs.stays hstarts halone with follows := ?_ }
    rintro st ⟨⟩
    exact ⟨fun _ hstraight => decided_of_enters hvalid henters hsnapshots
      (fun x hx => absurd hx (hruns x)) hstraight, fun hno => by cases hno⟩

theorem failCase_dispatched {claim : Option Owner} {st : CaseState} (t : Txn) (s : Store)
    (hst : st.dispatched = false) : (failCase claim st t s).2.dispatched = false := by
  have hphase : (phaseForState st).failed.dispatched = false ∧
      (phaseForState st).terminationPending.dispatched = false := by
    unfold phaseForState
    split <;> decide
  unfold failCase
  dsimp only
  repeat' split
  · exact hst
  · exact hphase.1
  · exact hst
  · exact hphase.2

theorem failDispatch_aside {st : CaseState} (hst : st.dispatched = false) :
    Safe (system cfg) (spendContract cfg) r.owner (r.failDispatch st)
      (Informed r.owner { copy := some st }) (fun st' => Informed r.owner { copy := some st' })
      (fun _ => Informed r.owner {}) := by
  refine aside_tx hst (fun i s t st' hbody => ?_)
  have hresult := Except.ok.inj hbody
  have ht : (failCase r.claim st r.txn s).1 = t := congrArg Prod.fst hresult
  have hst' : (failCase r.claim st r.txn s).2 = st' := congrArg Prod.snd hresult
  rw [← ht, ← hst']
  exact ⟨failCase_thrifty rfl, failCase_dispatched _ _ hst⟩

theorem humanBlock_aside {st : CaseState} (hst : st.dispatched = false) (reason : Reason) :
    Safe (system cfg) (spendContract cfg) r.owner (r.humanBlock st reason)
      (Informed r.owner { copy := some st }) (fun st' => Informed r.owner { copy := some st' })
      (fun _ => Informed r.owner {}) := by
  refine aside_tx hst (fun i s t st' hbody => ?_)
  cases hbody
  exact ⟨rfl, rfl⟩

theorem dispatchWithoutProbe_frugal {k : Knowledge} (st : CaseState) (hash : String) :
    Safe (system cfg) (spendContract cfg) r.owner (r.dispatchWithoutProbe st hash)
      (Informed r.owner k) (fun st' => Informed r.owner { copy := some st' })
      (fun _ => Informed r.owner {}) := by
  refine Safe.bind (Thrifty.keeps (.tx (fun _ _ => rfl))) (fun existing => ?_)
  have hlast : ∀ sha : Option String, Safe (system cfg) (spendContract cfg) r.owner
      (Remediator.tx r.owner (r.decideWithoutProbe st hash sha)) (Informed r.owner k)
      (fun st' => Informed r.owner { copy := some st' }) (fun _ => Informed r.owner {}) := by
    intro sha
    refine enter_tx (fun i s t st' hbody => ?_)
    have henters : ∀ ds, (Runner.dispatchWithoutProbe.withoutProbe r st ds).1.enters :=
      fun ds => ⟨_, List.mem_singleton.mpr rfl, rfl⟩
    unfold Runner.decideWithoutProbe at hbody
    split at hbody
    · split at hbody
      · cases hbody
      · cases hbody
        exact ⟨rfl, rfl, rfl, rfl, henters _, rfl⟩
    · cases hbody
      exact ⟨rfl, rfl, rfl, rfl, henters _, rfl⟩
  split
  · exact hlast none
  · refine Safe.bind (Thrifty.keeps (.ask _)) (fun answer => ?_)
    split
    · next sha => exact hlast (some sha)
    · exact fun _ _ hs => hs.drop

/-- A probe is taken from the registry. -/
theorem snapshot_frugal {k : Knowledge} (st : CaseState) (p : ProbeSnapshot) :
    Safe (system cfg) (spendContract cfg) r.owner
      (tx r.owner (fun _ _ => .ok ({ r.txn with
        snapshots := [p], moves := [r.move st .probeValidatingBase] }, .probeValidatingBase)))
      (Informed r.owner k) (fun st' => Informed r.owner { copy := some st' })
      (fun _ => Informed r.owner {}) := by
  refine probe_tx (fun _ => informed_stable cfg r.owner _) (fun i s t a hbody => ?_)
    (fun i s t a _ hbody _ _ => ?_) (fun i s t a hs hbody _ halone => ?_)
  · cases hbody
    exact ⟨rfl, rfl, fun x hx => by cases hx⟩
  · cases hbody
    rfl
  · cases hbody
    refine { hs.stays rfl halone with follows := ?_ }
    rintro st' ⟨⟩
    refine ⟨fun hyes => ?_, fun _ => rfl⟩
    cases hyes

theorem resumeMissingProbe_aside {st : CaseState} (hst : st.dispatched = false)
    (reason : Option Reason) :
    Safe (system cfg) (spendContract cfg) r.owner (r.resumeMissingProbe st reason)
      (Informed r.owner { copy := some st }) (fun st' => Informed r.owner { copy := some st' })
      (fun _ => Informed r.owner {}) := by
  unfold Runner.resumeMissingProbe
  split
  · exact fun _ _ hs => hs
  · refine aside_tx hst (fun i s t st' hbody => ?_)
    cases hbody
    exact ⟨rfl, rfl⟩

theorem dispatch_frugal {st : CaseState} (hst : st.dispatched = false) :
    Safe (system cfg) (spendContract cfg) r.owner (r.dispatch st)
      (Informed r.owner { copy := some st }) (fun st' => Informed r.owner { copy := some st' })
      (fun _ => Informed r.owner {}) := by
  unfold Runner.dispatch
  split
  · exact failDispatch_aside hst
  · refine Safe.bind (Thrifty.keeps (.tx (fun _ _ => rfl))) (fun found => ?_)
    split
    · exact failDispatch_aside hst
    · generalize Devin.normalize r.cfg.githubBaseRef = ref
      split
      · exact failDispatch_aside hst
      · refine Safe.bind (Thrifty.keeps (.getIssue r.cfg)) (fun issue => ?_)
        split
        · exact fun _ _ hs => hs.drop
        · split
          · exact failDispatch_aside hst
          · split
            · exact humanBlock_aside hst .other
            · refine Safe.bind (Thrifty.keeps (.tx (fun _ _ => rfl))) (fun busy => ?_)
              split
              · exact humanBlock_aside hst .other
              · refine Safe.bind (Thrifty.keeps (.ask _)) (fun registry => ?_)
                split
                · split
                  · exact humanBlock_aside hst .missingProbe
                  · exact dispatchWithoutProbe_frugal st _
                · exact humanBlock_aside hst .other
                · exact snapshot_frugal st _

/-- The row of the run has the target and the attempt that were asked for. -/
theorem executeProbe_frugal {k : Knowledge} (st : CaseState) (attempt : Option Nat)
    (snapshot : Nat × ProbeSnapshot) (target : ProbeTarget) (commitSha : String) :
    Safe (system cfg) (spendContract cfg) r.owner
      (r.executeProbe st attempt snapshot target commitSha) (Informed r.owner k)
      (fun run s => (∀ now, (run now).target = target ∧ (run now).attemptId = attempt) ∧
        Informed r.owner k s) (fun _ => Informed r.owner {}) := by
  refine Safe.bind (Thrifty.keeps (acquireSlot_calmly r st .probe)) (fun granted => ?_)
  split
  · exact fun _ _ hs => hs.drop
  · refine Safe.bind (Thrifty.keeps (.ask _)) (fun run => ?_)
    split
    · exact fun _ _ hs => hs.drop
    · exact fun _ _ hs => ⟨fun now => ⟨rfl, rfl⟩, hs⟩

theorem probeBase_frugal {st : CaseState} (hst : st.dispatched = false) :
    Safe (system cfg) (spendContract cfg) r.owner (r.probeBase st)
      (Informed r.owner { copy := some st }) (fun st' => Informed r.owner { copy := some st' })
      (fun _ => Informed r.owner {}) := by
  refine Safe.bind (Thrifty.keeps (.tx (fun _ _ => rfl))) (fun found => ?_)
  split
  · exact failDispatch_aside hst
  · refine Safe.bind (executeProbe_frugal st none _ .base _) (fun run =>
      Safe.assume (fun hrun => Safe.bind (Q := fun _ => Informed r.owner { copy := some st }) ?_
        (fun execution => ?_)))
    · refine probe_tx (fun _ => informed_stable cfg r.owner _) (fun i s t a hbody => ?_)
        (fun i s t a hs hbody halone _ => ?_) (fun i s t a hs hbody _ halone => ?_)
      · cases hbody
        refine ⟨rfl, rfl, fun x hx _ => ?_⟩
        rw [List.mem_singleton.mp hx]
        exact (hrun s.now).2
      · cases hbody
        exact ((hs halone).follows st rfl).outside hst
      · cases hbody
        have hbefore := hs (alone_of_apply halone)
        refine { hs.stays rfl halone with follows := ?_ }
        rintro st' ⟨⟩
        refine ⟨fun hyes => ?_, fun _ => (hbefore.follows st rfl).outside hst⟩
        rw [hst] at hyes
        cases hyes
    · split
      · refine aside_tx hst (fun i s t st' hbody => ?_)
        cases hbody
        exact ⟨rfl, rfl⟩
      · refine enter_tx (fun i s t st' hbody => ?_)
        cases hbody
        exact ⟨rfl, rfl, rfl, rfl, ⟨_, List.mem_singleton.mpr rfl, rfl⟩, rfl⟩
      · split
        · exact humanBlock_aside hst .other
        · exact failDispatch_aside hst

theorem failStage_runs (st : CaseState) (a : AttemptObj) (stage : FailureStage)
    (cls : FailureClass) (t : Txn) (s : Store) :
    (r.failStage st a stage cls t s).1.insert = t.insert ∧
      (r.failStage st a stage cls t s).1.starts = t.starts ∧
      (r.failStage st a stage cls t s).1.snapshots = t.snapshots ∧
      (r.failStage st a stage cls t s).1.executions = t.executions := by
  unfold Runner.failStage failCase
  dsimp only
  repeat' split
  all_goals exact ⟨rfl, rfl, rfl, rfl⟩

/-- What a job at work commits about a run at the head commit. -/
theorem head_tx {body : Input → Store → Except Err (Txn × α)}
    (h : ∀ i s t a, body i s = .ok (t, a) → t.insert = none ∧ t.starts = false ∧
      t.snapshots = [] ∧ ∀ x ∈ t.executions, x.target ≠ .base) :
    Frugal cfg r.owner (Remediator.tx r.owner body) := by
  refine probe_tx (fun _ => informed_stable cfg r.owner {}) (fun i s t a hbody => ?_)
    (fun i s t a _ hbody _ hprobe => ?_) (fun i s t a hs hbody _ => ?_)
  · obtain ⟨hinsert, hstarts, -, hruns⟩ := h i s t a hbody
    exact ⟨hinsert, hstarts, fun x hx hbase => absurd hbase (hruns x hx)⟩
  · obtain ⟨-, -, hsnapshots, hruns⟩ := h i s t a hbody
    rcases hprobe with hsome | ⟨x, hx, hbase⟩
    · exact absurd hsnapshots hsome
    · exact absurd hbase (hruns x hx)
  · obtain ⟨-, hstarts, -, -⟩ := h i s t a hbody
    exact hs.stays hstarts

theorem probeHead_frugal (st : CaseState) (a : AttemptObj) :
    Frugal cfg r.owner (r.probeHead st a) := by
  refine .bind (Thrifty.frugal (.tx (fun _ _ => rfl))) (fun found => ?_)
  split
  · exact Thrifty.frugal (.tx (fun _ s => failStage_calm r rfl))
  · refine Safe.bind (executeProbe_frugal st _ _ .head _) (fun run =>
      Safe.assume (fun hrun => head_tx (fun i s t x hbody => ?_)))
    have hhead : ∀ x ∈ [run s.now], x.target ≠ .base := by
      intro x hx htarget
      rw [List.mem_singleton.mp hx, (hrun s.now).1] at htarget
      cases htarget
    have hfail : ∀ cls, (r.failStage st a .probeHead cls
        { r.txn with executions := [run s.now] } s).1 = t → t.insert = none ∧ t.starts = false ∧
        t.snapshots = [] ∧ ∀ x ∈ t.executions, x.target ≠ .base := by
      rintro cls rfl
      obtain ⟨hinsert, hstarts, hsnapshots, hruns⟩ := failStage_runs (r := r) st a .probeHead cls
        { r.txn with executions := [run s.now] } s
      refine ⟨hinsert, hstarts, hsnapshots, ?_⟩
      rw [hruns]
      exact hhead
    dsimp only at hbody
    split at hbody
    · exact hfail _ (congrArg Prod.fst (Except.ok.inj hbody))
    · cases hbody
      exact ⟨rfl, rfl, rfl, hhead⟩
    · exact hfail _ (congrArg Prod.fst (Except.ok.inj hbody))

theorem stage_frugal (st : CaseState) (a : AttemptObj) : Frugal cfg r.owner (r.stage st a) := by
  by_cases h : st = .probeValidatingHead
  · subst h
    exact probeHead_frugal _ a
  · exact Thrifty.frugal (stage_slotless r h a)

theorem stages_frugal (n : Nat) (st : CaseState) (mem : Option AttemptObj) :
    Frugal cfg r.owner (r.stages n st mem) := by
  induction n generalizing st mem with
  | zero => exact .raise _
  | succ n ih =>
      unfold Runner.stages
      refine .ite (fun _ => .ret _) (fun _ => ?_)
      refine .bind (Thrifty.frugal (.tx (fun _ _ => rfl))) (fun found => ?_)
      split
      · exact Thrifty.frugal (failDispatch_calmly r st)
      · next a =>
          exact .bind (stage_frugal st a) (fun x => .ite (fun _ => .ret _) (fun _ =>
            .bind (Thrifty.frugal (milestone_calmly r st x.1)) (fun _ => ih x.1 x.2)))

theorem processStages_frugal (hcfg : r.cfg = cfg) (entered : CaseState)
    (reason : Option Reason) :
    Safe (system cfg) (spendContract cfg) r.owner (r.processStages entered reason)
      (Informed r.owner { copy := some entered }) (fun _ => Informed r.owner {})
      (fun _ => Informed r.owner {}) := by
  unfold Runner.processStages
  extract_lets last session probe dispatch
  have hlast : ∀ x, Frugal cfg r.owner (last x) := fun x =>
    stages_frugal r.rounds x.1 x.2
  have hsession : ∀ st, Safe (system cfg) (spendContract cfg) r.owner (session st)
      (Informed r.owner { copy := some st }) (fun _ => Informed r.owner {})
      (fun _ => Informed r.owner {}) := by
    intro st
    unfold session
    split
    · next hst =>
        exact Safe.bind (runSession_frugal hcfg hst) (fun x =>
          Frugal.bind (Thrifty.frugal (milestone_calmly r entered x.1)) (fun _ => hlast x))
    · exact (hlast (st, none)).pre (fun _ _ hs => hs.drop)
  have hprobe : ∀ st, Safe (system cfg) (spendContract cfg) r.owner (probe st)
      (Informed r.owner { copy := some st }) (fun _ => Informed r.owner {})
      (fun _ => Informed r.owner {}) := by
    intro st
    unfold probe
    split
    · next hst =>
        subst hst
        exact Safe.bind (probeBase_frugal rfl) (fun st =>
          Safe.bind (Thrifty.keeps (milestone_calmly r entered st)) (fun _ => hsession st))
    · exact hsession st
  have hdispatch : ∀ st, Safe (system cfg) (spendContract cfg) r.owner (dispatch st)
      (Informed r.owner { copy := some st }) (fun _ => Informed r.owner {})
      (fun _ => Informed r.owner {}) := by
    intro st
    unfold dispatch
    split
    · next hst =>
        subst hst
        exact Safe.bind (dispatch_frugal rfl) hprobe
    · exact hprobe st
  split
  · next hentered =>
      subst hentered
      exact Safe.bind (resumeMissingProbe_aside rfl reason) hdispatch
  · exact hdispatch entered

theorem process_frugal (hcfg : r.cfg = cfg) (entered : CaseState) (reason : Option Reason) :
    Safe (system cfg) (spendContract cfg) r.owner (r.process entered reason)
      (Informed r.owner { copy := some entered }) (fun _ => Informed r.owner {})
      (fun _ => Informed r.owner {}) := by
  refine Safe.handle (E := fun _ => Informed r.owner {})
    (Safe.bind (processStages_frugal hcfg entered reason) (fun st =>
      Frugal.ite (fun _ => Thrifty.frugal (notify_calmly r)) (fun _ => .ret _))) (fun e => ?_)
  refine Frugal.ite (fun _ => .raise _) (fun _ => ?_)
  exact .ite (fun _ => .ret _) (fun _ => .raise _)

theorem processCase_frugal (hcfg : r.cfg = cfg) (hnone : r.remediation = none) (st : CaseState)
    (reason : Option Reason) :
    Safe (system cfg) (spendContract cfg) r.owner (r.processCase st reason)
      (Informed r.owner { copy := some st }) (fun _ => Informed r.owner {})
      (fun _ => Informed r.owner {}) := by
  unfold Runner.processCase
  split
  · split
    · exact process_frugal hcfg st reason
    · exact fun _ _ hs => hs.drop
  · exact (processTriage_frugal hcfg hnone st).pre (fun _ _ hs => hs.drop)

end Runner

/-! ## Every job -/

section Jobs

variable {cfg : Settings}

/-- What a job sees to that is not at work. -/
abbrev StartsIdle (cfg : Settings) (o : Owner) (p : P Unit) : Prop :=
  Safe (system cfg) (spendContract cfg) o p (fun _ => True) (fun _ _ => True) (fun _ _ => True)

theorem Frugal.startsIdle {o : Owner} {p : P Unit} (h : Frugal cfg o p) :
    Safe (system cfg) (spendContract cfg) o p (Informed o {}) (fun _ _ => True)
      (fun _ _ => True) :=
  h.conseq (fun _ _ hs => hs) (fun _ _ _ _ => trivial) (fun _ _ _ _ => trivial)

/-- A transaction that takes up the case. -/
theorem spends_of_starts {o : Owner} {t : Txn} {s : Store} (hvalid : movesOk t.moves s.case = true)
    (hinsert : t.insert = none) (hidle : ¬ t.Busy) : t.Spends cfg o o s := by
  have hruns : ∀ x, x ∉ t.executions := by
    intro x hx
    refine hidle (Or.inr (Or.inr (Or.inl (fun hnil => ?_))))
    rw [hnil] at hx
    cases hx
  refine spends_of_none hvalid hinsert (fun _ => rfl) (fun _ hbusy => absurd hbusy hidle)
    (fun x hx => absurd hx (hruns x)) (fun _ hprobe => ?_)
  rcases hprobe with hsnapshots | ⟨x, hx, -⟩
  · exact absurd (Or.inr (Or.inl hsnapshots)) hidle
  · exact absurd hx (hruns x)

/-- The job that takes up the case is at work, and has its state. -/
theorem informed_of_starts {o : Owner} {t : Txn} {s : Store}
    (hinv : Spending cfg ((Op.commit o t).apply s)) (h : t.starts = true) :
    Informed o { copy := some ((Op.commit o t).apply s).case.state }
      ((Op.commit o t).apply s) := by
  refine fun _ => ⟨?_, fun _ hctx => (by cases hctx), fun _ hctx => (by cases hctx),
    fun _ hyes => (by cases hyes), ?_⟩
  · show (if t.starts then some o else s.history.atWork) = some o
    rw [h]
    rfl
  · rintro st ⟨⟩
    exact ⟨fun hyes hstraight => hinv.decided hstraight hyes, fun hno => hno⟩

theorem openEvent_frugal (r : Runner) (id : Nat) :
    Safe (system cfg) (spendContract cfg) r.owner (r.openEvent id) (fun _ => True)
      (fun work s => ∀ e, work = .case e → Informed r.owner {} s) (fun _ _ => True) := by
  refine safe_tx (fun _ => trivial) Stable.true (fun _ _ => trivial)
    (fun work => Stable.all (fun _ => Stable.imp (fun _ => informed_stable cfg r.owner {})))
    (fun i s t work hinv _ hbody hvalid _ => ?_)
  dsimp only at hbody
  split at hbody
  · cases hbody
    exact ⟨spends_of_thrifty hvalid rfl, nofun⟩
  · split at hbody
    · cases hbody
      exact ⟨spends_of_thrifty hvalid rfl, nofun⟩
    · split at hbody
      · cases hbody
        exact ⟨spends_of_thrifty hvalid rfl, nofun⟩
      · cases hbody
        have hspends : Txn.Spends cfg r.owner r.owner _ s :=
          spends_of_starts hvalid rfl (by simp [Txn.Busy, Txn.enters, Runner.txn])
        exact ⟨hspends, fun _ _ =>
          (informed_of_starts (Spending.commit hinv hspends) rfl).drop⟩

theorem processEvent_startsIdle {r : Runner} (hcfg : r.cfg = cfg) (hnone : r.remediation = none)
    (id : Nat) : StartsIdle cfg r.owner (r.processEvent id) := by
  refine Safe.bind (openEvent_frugal r id) (fun work => ?_)
  cases work with
  | done => exact fun _ _ _ => trivial
  | label e st => exact (processLabelEvent_outer r e st).frugal.pre (fun _ _ _ => trivial)
  | case e =>
      have hcase : r.processCase .received none = r.processTriage .received := by
        unfold Runner.processCase
        exact if_neg (by decide)
      refine Safe.pre (Frugal.startsIdle (Frugal.bind ?_
        (fun _ => .tx (fun i s t a hbody => by cases hbody; rfl)))) (fun _ _ hs => hs e rfl)
      rw [hcase]
      exact processTriage_frugal hcfg hnone _

/-- `try … except … finally`, where the handlers create nothing. -/
theorem withFinally_startsIdle {o : Owner} {p fin : P Unit} {handler : Err → P Unit}
    (hp : StartsIdle cfg o p) (hhandler : ∀ e, Outer (handler e)) (hfin : Outer fin) :
    StartsIdle cfg o (withFinally (rescue p handler) fin) := by
  refine Safe.bind (Q := fun _ _ => True) ?_ (fun _ => hfin.frugal)
  refine Safe.handle (E := fun _ _ => True) ?_ (fun e => ?_)
  · refine Safe.handle hp (fun e => ?_)
    split
    · exact fun _ _ _ => trivial
    · exact (hhandler e).frugal
  · split
    · exact fun _ _ _ => trivial
    · exact Safe.bind hfin.frugal (fun _ => fun _ _ _ => trivial)

theorem runCase_startsIdle {w : Worker} (hcfg : w.cfg = cfg) :
    StartsIdle cfg w.owner w.runCase := by
  refine Safe.bind (Q := fun (x : CaseState × Option Reason) =>
    Informed w.owner { copy := some x.1 }) ?_ (fun x => ?_)
  · refine safe_tx (fun _ => trivial) Stable.true (fun _ _ => trivial)
      (fun _ => informed_stable cfg w.owner _) (fun i s t a hinv _ hbody hvalid _ => ?_)
    cases hbody
    have hspends : Txn.Spends cfg w.owner w.owner _ s :=
      spends_of_starts hvalid rfl (by simp [Txn.Busy, Txn.enters, Runner.txn])
    exact ⟨hspends, informed_of_starts (Spending.commit hinv hspends) rfl⟩
  · exact (processCase_frugal (r := w.runner) hcfg rfl x.1 x.2).conseq (fun _ _ hs => hs)
      (fun _ _ _ _ => trivial) (fun _ _ _ _ => trivial)

theorem iterate_startsIdle {w : Worker} (hcfg : w.cfg = cfg) :
    StartsIdle cfg w.owner w.iterate := by
  refine Safe.bind (claimEvent_outer w w.rounds).frugal (fun event => ?_)
  split
  · next id =>
      exact withFinally_startsIdle (processEvent_startsIdle (r := w.runner) hcfg rfl id)
        (onEventError_outer w id) (releaseEvent_outer w id)
  · refine Safe.bind (claimCase_outer w).frugal (fun claimed => ?_)
    split
    · exact withFinally_startsIdle (runCase_startsIdle hcfg) (onCaseError_outer w)
        (releaseCase_outer w)
    · refine Safe.bind (dispatcherClaim_silently w.dispatcher).outer.frugal (fun row => ?_)
      split
      · exact (dispatch_silently w.dispatcher _).outer.frugal
      · exact fun _ _ _ => trivial

theorem spend_job (o : Owner) (j : Job) : StartsIdle cfg o (j.program cfg o) := by
  cases j with
  | iterate process rounds => exact iterate_startsIdle (w := ⟨cfg, o, process, rounds⟩) rfl
  | slack action => exact (slackClick_silently cfg o action).outer.frugal
  | cancel => exact (cancelCase_silently o).outer.frugal
  | retry => exact (retryCase_silently cfg o).outer.frugal
  | reconcileSession rounds => exact (reconcileSession_silently cfg o rounds).outer.frugal
  | retryCi => exact (retryCi_silently o).outer.frugal
  | retryProbe => exact (retryProbe_silently o).outer.frugal
  | retryOutbox id => exact (retryOutbox_silently o id).outer.frugal
  | expireApproval id => exact (expireApproval_silently cfg o id).outer.frugal

end Jobs

/-! ## The spend bound -/

/-- Every job sees to the contract. -/
theorem spend_sound (cfg : Settings) : Sound (system cfg) (spendContract cfg) where
  act o s op hinv hallowed := Spending.allowed hinv hallowed
  leave o s hinv := Spending.leave hinv
  env s op hinv henv := by
    cases op with
    | commit o t => cases henv
    | post o a r => cases henv
    | leave o => cases henv
    | _ => exact Spending.allowed (o := 0) hinv trivial
  job := spend_job

/-- **The spend is bounded**, in every state of every run. -/
theorem spend_bounded_of_reachable {cfg : Settings} {c : Pool Store Input Op Err}
    (h : Reachable cfg c) : SpendBound cfg c.store :=
  (Pool.Reachable.safe (spend_sound cfg) (Spending.start cfg) h).1.bounded

/-! ## A create whose outcome is unknown -/

/-- The process dies before the answer to its `POST`. The next one finds the session by its tag,
the session waits for the user, the operator gives it up and retries the case, and the second
attempt is sent. -/
def uncertainSchedule : List (Choice Input Op Job) :=
  [.env (.receive issueOpened), .spawn 1 (.iterate 0 5)] ++
    actions 1 12 { post := .transportError true false } ++
  [.kill 1, .env (.tick 100), .spawn 2 (.iterate 0 5)] ++ actions 2 6 {} ++
  .spawn 3 (.iterate 0 5) ::
    actions 3 13 { get := .snapshot ⟨"running", "waiting_for_user", none, []⟩ } ++
  .spawn 4 (.reconcileSession 3) :: actions 4 5 { get := .notFound } ++
  .spawn 5 .retry :: actions 5 4 {} ++
  .env (.tick 100) :: .spawn 6 (.iterate 0 5) :: actions 6 15 { get := .notFound }

theorem spend_bounded_of_reachable_demo : ∃ c, Reachable demoSettings c ∧
    c.store.history.posts = [0, 1] ∧ c.store.spent .triage = 2 ∧
      SpendBound demoSettings c.store := by
  obtain ⟨c, hc, hview⟩ := reachable_of_runSchedule demoSettings uncertainSchedule
    (fun s => (s.history.posts, s.spent .triage)) ([0, 1], 2) (by decide +kernel)
  obtain ⟨hposts, hspent⟩ := Prod.mk.inj hview
  exact ⟨c, hc, hposts, hspent, spend_bounded_of_reachable hc⟩

end Remediator
