import Remediator.Queue.Outsiders

set_option autoImplicit false

/-! # Jobs that work on the case

A job that takes up the case reads it first, so its copy of the waiting columns is up to date and
it knows the state. In a state that waits for a slot it asks again before it moves the case, and a
slot that is granted comes with `clear_waiting`; in every other state the case is not parked.
-/

namespace Remediator

open Interleave

/-! ## Proof rules -/

section Rules

variable {cfg : Settings} {o : Owner} {α : Type} {free : Prop}

/-- A program that asks for no slot, once the case is known not to be parked. -/
theorem Slotless.freed {p : P α} (h : Slotless p) (hfree : free) :
    Asking cfg o p (Works o free) (fun _ => Works o True) :=
  (Slotless.works h).conseq (fun _ hs => hs.imp (fun _ => hfree)) (fun _ _ hs => hs)

theorem Slotless.asking {p : P α} {free' : α → Prop} (h : Slotless p) (hfree : free) :
    Asking cfg o p (Works o free) (fun a => Works o (free' a)) :=
  (Slotless.freed h hfree).conseq (fun _ hs => hs) (fun _ _ hs => hs.imp (fun _ => trivial))

/-- A transaction that reads or takes notes leaves a parked case parked. -/
theorem Asking.watch {body : Input → Store → Except Err (Txn × α)}
    (h : ∀ i s t a, body i s = .ok (t, a) → (Op.commit o t).aside = true ∧ t.moves = []) :
    Asking cfg o (Remediator.tx o body) (Works o free) (fun _ => Works o free) := by
  refine .tx (fun _ => works_stable cfg o free) (fun i s t a _ hworks hbody => ?_)
  obtain ⟨haside, hmoves⟩ := h i s t a hbody
  exact ⟨queues_of_aside haside (fun _ hne => absurd hmoves hne), hworks.aside haside⟩

/-- A transaction that asks for nothing, of a case that is not parked. -/
theorem Asking.moving {body : Input → Store → Except Err (Txn × α)}
    (h : ∀ i s t a, body i s = .ok (t, a) → (Op.commit o t).aside = true) :
    Asking cfg o (Remediator.tx o body) (Works o True) (fun _ => Works o True) := by
  refine .tx (fun _ => works_stable cfg o True) (fun i s t a _ hworks hbody => ?_)
  have haside := h i s t a hbody
  refine ⟨queues_of_aside haside (fun hclean _ => ?_), hworks.aside haside⟩
  exact (hworks (orderly_of_apply hclean)).2.2.2 trivial

/-- A case is not parked in a state that waits for no slot. -/
theorem not_waiting {s : Store} (h : Queued s) {st : CaseState} (hst : s.case.state = st)
    (hwaits : st.waits = false) : s.case.waiting = {} := by
  by_contra hne
  have hin := (h.parked hne).waits
  rw [hst, hwaits] at hin
  cases hin

end Rules

/-! ## Asking for a slot -/

section Runner

variable {cfg : Settings} {r : Runner}

/-- A granted slot takes the case out of the queue. -/
theorem acquireSlot_asking {st : CaseState} {kind : Capacity.LeaseKind} {free : Prop}
    (hst : st.asksFor kind = true ∨ st.underWay = true) :
    Asking cfg r.owner (r.acquireSlot st kind) (Works r.owner free)
      (fun granted => Works r.owner (granted = true)) := by
  refine .tx (fun _ => works_stable cfg r.owner _) (fun i s t a _ hworks hbody => ?_)
  cases hbody
  refine ⟨⟨fun _ hne => absurd rfl hne, fun call hcall => ⟨rfl, ?_⟩, nofun⟩, fun hclean => ?_⟩
  · refine ⟨rfl, rfl, rfl, rfl, fun hclean => ?_, fun d hd => ⟨st, rfl, ?_⟩⟩
    · obtain ⟨hcreated, hwork, hcopy, -⟩ := hworks hclean
      exact ⟨hcreated, hwork, hcopy⟩
    · subst hd
      cases hyes : i.yes with
      | true =>
          simp [hyes] at hcall
      | false =>
          simp only [hyes, Bool.false_eq_true, if_false, Option.some.injEq,
            WaitingCall.mark.injEq] at hcall
          rw [← hcall]
          exact hst
  · obtain ⟨hcreated, hwork, hcopy, -⟩ := hworks (orderly_of_apply hclean)
    refine ⟨created_apply _ hcreated, hwork, ?_, fun hgranted => ?_⟩
    · rw [commit_case]
      unfold Txn.applyCase
      show (if r.owner = r.owner then _ else _ : Waiting) = _
      simp [hcopy, Waiting.merge, pick_row]
    · rw [commit_case]
      unfold Txn.applyCase
      simp only [hgranted, if_true, hcopy, WaitingCall.assign, Waiting.merge, pick_row]

theorem newestAttempt_active {kind : AttemptKind} {as : List Attempt} {a : AttemptObj}
    (h : newestAttempt (activeOfKind kind) as = some a) :
    ∃ x ∈ as, x.status.active = true := by
  have hmem := List.mem_of_getLast? h
  obtain ⟨hmem, hactive⟩ := List.mem_filter.mp hmem
  obtain ⟨x, hx, rfl⟩ := List.mem_map.mp hmem
  simp only [activeOfKind, Bool.and_eq_true] at hactive
  exact ⟨x.1, (List.mem_zipIdx hx).2.2 ▸ List.getElem_mem _, hactive.2⟩

/-- `run` comes back with the case parked only when it found no slot. -/
theorem run_asking {kind : AttemptKind} {st : CaseState} {free : Prop}
    (hst : st.asksFor (leaseKind kind) = true ∨ st.underWay = true) :
    Asking cfg r.owner (r.run kind st) (Works r.owner free)
      (fun x => Works r.owner (x.1 ≠ st ∨ x.2.result ≠ .waitingForCapacity)) := by
  -- no attempt of a parked case is active
  refine .bind (Q := fun found => Works r.owner (found.isSome = true)) ?_ (fun found => ?_)
  · refine .tx (fun _ => works_stable cfg r.owner _) (fun i s t a hinv hworks hbody => ?_)
    cases hbody
    refine ⟨queues_of_aside rfl (fun _ hne => absurd rfl hne), fun hclean => ?_⟩
    have haside : (Op.commit r.owner { r.txn with creates :=
        if (newestAttempt (activeOfKind kind) s.core.attempts).isNone then some st
        else none }).aside = true := rfl
    obtain ⟨hcreated, hwork, hcopy, -⟩ := hworks.aside haside hclean
    refine ⟨hcreated, hwork, hcopy, fun hfound => ?_⟩
    rw [aside_waiting haside]
    by_contra hne
    obtain ⟨a, ha⟩ := Option.isSome_iff_exists.mp hfound
    obtain ⟨x, hx, hactive⟩ := newestAttempt_active ha
    rw [((hinv (orderly_of_apply hclean)).parked hne).idle x hx] at hactive
    cases hactive
  · split
    · refine .bind (acquireSlot_asking hst) (fun granted => .ite (fun _ => ?_) (fun hyes => ?_))
      · exact .ret (fun s hs => hs.imp (fun h => by simp at h))
      · refine Slotless.asking ?_ (Bool.not_eq_false _ ▸ hyes)
        refine CalmIn.bind (create_calmly r kind st) (fun x => ?_)
        split
        · trivial
        · exact startPoll_calmly r _ _
    · next a =>
        refine Slotless.asking ?_ rfl
        refine CalmIn.ite ?_ (.ite ?_ ?_)
        · split
          · exact terminateByTag_calmly r st a
          · exact handleTimeout_calmly r st a _
        · refine CalmIn.bind (reconcileCreate_calmly r st a) (fun x => ?_)
          split
          · trivial
          · exact startPoll_calmly r _ _
        · refine CalmIn.bind (.tx (fun _ _ => ?_)) (fun st => startPoll_calmly r st a)
          have hp := phaseForKind_calm kind true
          split
          · show Txn.calm _ _ _ = true
            simp [Txn.calm, Runner.txn, hp]
          · rfl

/-! ## Triage -/

theorem createApprovalRequest_aside {o : Owner} {attempt : Nat} {raw : Doc} {t : Txn} {s : Store}
    (h : (Op.commit o t).aside = true) :
    (Op.commit o (createApprovalRequest cfg attempt raw t s)).aside = true := by
  unfold createApprovalRequest
  split
  · exact h
  · exact h

theorem finishTriage_asking (st : CaseState) (out : RunOutcome) :
    Asking cfg r.owner (r.finishTriage st out) (Works r.owner (out.result ≠ .waitingForCapacity))
      (fun _ => Works r.owner False) := by
  unfold Runner.finishTriage
  split
  · next hfinished _ =>
      refine Asking.conseq (Asking.moving (fun i s t a hbody => ?_))
        (fun s hs => hs.imp (fun _ => by rw [hfinished]; nofun)) (fun _ _ hs => hs.imp False.elim)
      dsimp only at hbody
      split at hbody
      · cases hbody
        exact Txn.aside_of_calm (failCase_calm rfl)
      · cases hbody
        exact createApprovalRequest_aside rfl
  · exact .ret (fun s hs => hs.imp False.elim)

theorem runTriage_asking {st : CaseState} {free : Prop}
    (hst : st.asksFor .triage = true ∨ st.underWay = true) :
    Asking cfg r.owner (r.runTriage st) (Works r.owner free) (fun _ => Works r.owner False) :=
  .bind (run_asking hst) (fun x =>
    (finishTriage_asking x.1 x.2).conseq (fun _ hs => hs.imp Or.inr) (fun _ _ hs => hs))

theorem reconcileBlockedTriage_asking (st : CaseState) :
    Asking cfg r.owner (r.reconcileBlockedTriage st) (Works r.owner True)
      (fun _ => Works r.owner False) := by
  refine .bind (Slotless.works (reconcileBlocked_calmly r .triage st)) (fun found => ?_)
  split
  · exact .ret (fun s hs => hs.imp False.elim)
  · exact (finishTriage_asking _ _).conseq (fun s hs => hs.imp (fun _ => trivial))
      (fun _ _ hs => hs)

theorem processTermination_asking {st : CaseState} (hst : st.underWay = true) :
    Asking cfg r.owner (r.processTermination st) (Works r.owner True)
      (fun _ => Works r.owner False) := by
  refine .bind (.watch (fun i s t a hbody => by cases hbody; exact ⟨rfl, rfl⟩)) (fun pending => ?_)
  split
  · exact .bind (Slotless.freed (terminateCase_calmly r st) trivial)
      (fun _ => .ret (fun _ hs => hs.imp False.elim))
  · refine .bind (run_asking (Or.inr hst)) (fun x => ?_)
    dsimp only
    split
    · exact (finishTriage_asking x.1 x.2).conseq (fun _ hs => hs.imp Or.inr) (fun _ _ hs => hs)
    · exact .ret (fun s hs => hs.imp False.elim)

/-- The states that triage asks for a slot in are its own; all the others are not parked. -/
theorem processTriage_asking (st : CaseState) :
    Asking cfg r.owner (r.processTriage st) (Works r.owner (st.waits = false))
      (fun _ => Works r.owner False) := by
  unfold Runner.processTriage
  split
  · refine .bind (Slotless.freed (evaluateEligibility_calmly r _) rfl)
      (fun eligible => ?_)
    split
    · exact runTriage_asking (Or.inl rfl)
    · exact .ret (fun s hs => hs.imp False.elim)
  · exact runTriage_asking (Or.inl rfl)
  · exact runTriage_asking (Or.inl rfl)
  · refine .bind (.watch (fun i s t a hbody => by cases hbody; exact ⟨rfl, rfl⟩)) (fun kind => ?_)
    split
    · exact runTriage_asking (Or.inr rfl)
    · exact .ret (fun s hs => hs.imp False.elim)
  · exact (reconcileBlockedTriage_asking _).conseq (fun s hs => hs.imp (fun _ => rfl))
      (fun _ _ hs => hs)
  · exact (processTermination_asking rfl).conseq (fun s hs => hs.imp (fun _ => rfl))
      (fun _ _ hs => hs)
  · exact .ret (fun s hs => hs.imp False.elim)

/-! ## The pipeline -/

theorem failCase_failing (claim : Option Owner) (st : CaseState) (t : Txn) (s : Store) :
    (failCase claim st t s).1.failing = true := by
  unfold failCase
  dsimp only
  repeat' split
  all_goals rfl

theorem failDispatch_asking {free : Prop} (st : CaseState) :
    Asking cfg r.owner (r.failDispatch st) (Works r.owner free) (fun _ => Works r.owner True) :=
  .failing (fun _ _ => ⟨failCase_calm rfl, failCase_failing _ _ _ _⟩)

theorem notify_asking {free : Prop} :
    Asking cfg r.owner r.notify (Works r.owner free) (fun _ => Works r.owner free) :=
  .watch (fun i s t a hbody => by cases hbody; exact ⟨rfl, rfl⟩)

theorem milestone_asking {free : Prop} (before now : CaseState) :
    Asking cfg r.owner (r.milestone before now) (Works r.owner free)
      (fun _ => Works r.owner free) :=
  .ite (fun _ => notify_asking) (fun _ => .ret (fun _ hs => hs))

theorem executeProbe_asking {free : Prop} {st : CaseState} (hst : st.asksFor .probe = true)
    (attempt : Option Nat) (snapshot : Nat × ProbeSnapshot) (target : ProbeTarget)
    (commitSha : String) :
    Asking cfg r.owner (r.executeProbe st attempt snapshot target commitSha) (Works r.owner free)
      (fun _ => Works r.owner True) := by
  refine .bind (acquireSlot_asking (Or.inl hst)) (fun granted =>
    .ite (fun _ => .raise (fun s hs => hs.imp False.elim)) (fun hyes => ?_))
  refine Slotless.asking ?_ (Bool.not_eq_false _ ▸ hyes)
  exact CalmIn.bind (.ask _) (fun _ => .ite (.raise _) (.ret _))

theorem probeBase_asking {free : Prop} :
    Asking cfg r.owner (r.probeBase .probeValidatingBase) (Works r.owner free)
      (fun _ => Works r.owner True) := by
  refine .bind (.watch (fun i s t a hbody => by cases hbody; exact ⟨rfl, rfl⟩)) (fun found => ?_)
  split
  · exact failDispatch_asking _
  · refine .bind (executeProbe_asking rfl none _ .base _) (fun run => Slotless.works ?_)
    refine CalmIn.bind (.tx (fun _ _ => rfl)) (fun execution => ?_)
    split
    · exact .tx (fun _ _ => rfl)
    · exact .tx (fun _ _ => rfl)
    · exact .ite (humanBlock_calmly r _ .other) (failDispatch_calmly r _)

theorem probeHead_asking {free : Prop} (a : AttemptObj) :
    Asking cfg r.owner (r.probeHead .probeValidatingHead a) (Works r.owner free)
      (fun _ => Works r.owner True) := by
  refine .bind (.watch (fun i s t a hbody => by cases hbody; exact ⟨rfl, rfl⟩)) (fun found => ?_)
  split
  · refine .failing (fun _ s => ⟨failStage_calm r rfl, ?_⟩)
    unfold Runner.failStage
    exact failCase_failing _ _ _ _
  · refine .bind (executeProbe_asking rfl _ _ .head _) (fun run => Slotless.works ?_)
    refine .tx (fun _ s => ?_)
    dsimp only
    split
    · exact failStage_calm r rfl
    · rfl
    · exact failStage_calm r rfl

/-- Its stage asks for a slot in the one pipeline state that a case can be parked in. -/
theorem stage_asking {st : CaseState} {free : Prop} (hfree : st.waits = false → free)
    (hpipe : st.pipeline = true) (a : AttemptObj) :
    Asking cfg r.owner (r.stage st a) (Works r.owner free) (fun _ => Works r.owner True) := by
  by_cases h : st = .probeValidatingHead
  · subst h
    exact probeHead_asking a
  · refine Slotless.asking (stage_slotless r h a) (hfree ?_)
    cases st <;> first | rfl | (cases hpipe; done) | exact absurd rfl h

theorem stages_asking (n : Nat) (st : CaseState) (mem : Option AttemptObj) :
    Asking cfg r.owner (r.stages n st mem)
      (Works r.owner (st.waits = false ∧ st.pipeline = true)) (fun _ => Works r.owner False) := by
  induction n generalizing st mem with
  | zero => exact .raise (fun s hs => hs.imp False.elim)
  | succ n ih =>
      unfold Runner.stages
      refine .ite (fun _ => .ret (fun s hs => hs.imp False.elim)) (fun hpipe => ?_)
      have hpipe : st.pipeline = true := by simpa using hpipe
      refine .bind (.watch (fun i s t a hbody => by cases hbody; exact ⟨rfl, rfl⟩))
        (fun found => ?_)
      split
      · exact (failDispatch_asking st).conseq (fun _ hs => hs) (fun _ _ hs => hs.imp False.elim)
      · next a =>
          refine .bind (stage_asking (fun hwaits => ⟨hwaits, hpipe⟩) hpipe a) (fun x => ?_)
          refine .ite (fun _ => .ret (fun s hs => hs.imp False.elim)) (fun _ => ?_)
          refine .bind (milestone_asking st x.1) (fun _ => ?_)
          exact (ih x.1 x.2).conseq (fun s hs => hs.imp (fun _ => trivial)) (fun _ _ hs => hs)

/-- A session state is parked on a slot of the session, or waits for its end. -/
theorem session_asks {st : CaseState} (h : st.remediationSession = true) :
    (st.asksFor .remediation = true ∨ st.underWay = true) ∧ st.asksFor .resource = true ∧
      st.pipeline = false := by
  cases st <;> first | decide | cases h

theorem runAttempt_asking {st : CaseState} {free : Prop} (hst : st.remediationSession = true) :
    Asking cfg r.owner (r.runAttempt st) (Works r.owner free)
      (fun x => Works r.owner (x.1.pipeline = true)) := by
  refine .bind (run_asking (session_asks hst).1) (fun x => ?_)
  dsimp only
  split
  · next hfinished _ =>
      have hfree : x.1 ≠ st ∨ x.2.result ≠ .waitingForCapacity := by
        right
        rw [hfinished]
        nofun
      refine Slotless.asking ?_ hfree
      exact .tx (fun _ _ => rfl)
  · refine .ret (fun s hs => hs.imp (fun hpipe => Or.inl (fun heq => ?_)))
    dsimp only at hpipe
    rw [heq, (session_asks hst).2.2] at hpipe
    cases hpipe

theorem acquireResourceKeys_asking {st : CaseState} {free : Prop}
    (hst : st.remediationSession = true) :
    Asking cfg r.owner (r.acquireResourceKeys st) (Works r.owner free)
      (fun _ => Works r.owner True) :=
  .bind (acquireSlot_asking (Or.inl (session_asks hst).2.1)) (fun _ =>
    .ite (fun _ => .raise (fun _ hs => hs.imp False.elim))
      (fun hyes => .ret (fun _ hs => hs.imp (fun _ => Bool.not_eq_false _ ▸ hyes))))

theorem runSession_asking {st : CaseState} {free : Prop}
    (hfree : st = .remediationTerminationPending → free) (hst : st.remediationSession = true) :
    Asking cfg r.owner (r.runSession st) (Works r.owner free)
      (fun x => Works r.owner (x.1.pipeline = true)) := by
  refine .bind (.watch (fun i s t a hbody => by cases hbody; exact ⟨rfl, rfl⟩)) (fun ctx => ?_)
  extract_lets r' run cancel enter
  have hrun : ∀ u free', Asking cfg r.owner (run u) (Works r.owner free')
      (fun x => Works r.owner (x.1.pipeline = true)) :=
    fun _ _ => runAttempt_asking (r := r') hst
  have hcancel : ∀ cancelled, (cancelled = true → free) →
      Asking cfg r.owner (cancel cancelled) (Works r.owner free)
        (fun x => Works r.owner (x.1.pipeline = true)) := by
    refine fun cancelled hgone => .ite (fun hyes => ?_) (fun _ => .ite (fun _ => ?_) (fun _ => ?_))
    · exact .bind (Slotless.freed (terminateCase_calmly r' st)
        (hgone hyes)) (fun _ => .ret (fun _ hs => hs.imp (fun _ => trivial)))
    · exact .bind (acquireResourceKeys_asking (r := r') hst) (fun u => hrun u True)
    · exact hrun () free
  have henter : ∀ refused, Asking cfg r.owner (enter refused) (Works r.owner free)
      (fun x => Works r.owner (x.1.pipeline = true)) := by
    refine fun refused => .ite (fun _ => ?_) (fun _ => .ite (fun hterm => ?_) (fun _ => ?_))
    · exact .bind (failDispatch_asking st) (fun _ =>
        .ret (fun _ hs => hs.imp (fun _ => trivial)))
    · exact .bind (.watch (fun i s t a hbody => by cases hbody; exact ⟨rfl, rfl⟩))
        (fun cancelled => hcancel cancelled (fun _ => hfree hterm))
    · exact hcancel false nofun
  refine .ite (fun _ => henter false) (fun _ => ?_)
  exact .bind (.watch (fun i s t a hbody => by cases hbody; exact ⟨rfl, rfl⟩)) henter

/-- What is left of `process` after each of its steps starts from a case that is not parked, or
from a state that asks for its slot first. -/
theorem processStages_asking (entered : CaseState) (reason : Option Reason) :
    Asking cfg r.owner (r.processStages entered reason) (Works r.owner (entered.waits = false))
      (fun _ => Works r.owner False) := by
  unfold Runner.processStages
  extract_lets last session probe dispatch
  have hlast : ∀ x, Asking cfg r.owner (last x)
      (Works r.owner (x.1.waits = false ∧ x.1.pipeline = true)) (fun _ => Works r.owner False) :=
    fun x => stages_asking r.rounds x.1 x.2
  have hsession : ∀ st, Asking cfg r.owner (session st) (Works r.owner (st.waits = false))
      (fun _ => Works r.owner False) := by
    refine fun st => .ite (fun hst => ?_) (fun _ => ?_)
    · refine .bind (runSession_asking (fun hterm => ?_) hst) (fun x => ?_)
      · rw [hterm]
        rfl
      · refine .bind (milestone_asking entered x.1) (fun _ => ?_)
        exact (hlast x).conseq (fun _ hs => hs.imp And.right) (fun _ _ hs => hs)
    · exact (hlast (st, none)).conseq (fun _ hs => hs.imp And.left) (fun _ _ hs => hs)
  have hprobe : ∀ st, Asking cfg r.owner (probe st) (Works r.owner (st.waits = false))
      (fun _ => Works r.owner False) := by
    refine fun st => .ite (fun hst => ?_) (fun _ => hsession st)
    subst hst
    refine .bind probeBase_asking (fun st => .bind (milestone_asking entered st) (fun _ => ?_))
    exact (hsession st).conseq (fun _ hs => hs.imp (fun _ => trivial)) (fun _ _ hs => hs)
  have hdispatch : ∀ st, Asking cfg r.owner (dispatch st) (Works r.owner (st.waits = false))
      (fun _ => Works r.owner False) := by
    refine fun st => .ite (fun hst => ?_) (fun _ => hprobe st)
    refine .bind (Slotless.asking (dispatch_calmly r st) ?_) hprobe
    rw [hst]
    rfl
  refine .ite (fun hst => ?_) (fun _ => hdispatch entered)
  refine .bind (Slotless.asking (resumeMissingProbe_calmly r entered reason) ?_) hdispatch
  rw [hst]
  rfl

theorem process_asking (entered : CaseState) (reason : Option Reason) :
    Asking cfg r.owner (r.process entered reason) (Works r.owner (entered.waits = false))
      (fun _ => Works r.owner False) := by
  refine Safe.handle (E := fun _ => Works r.owner False)
    (Asking.bind (processStages_asking entered reason) (fun st =>
      .ite (fun _ => notify_asking) (fun _ => .ret (fun _ hs => hs)))) (fun e => ?_)
  refine Asking.ite (fun _ => .raise (fun _ hs => hs)) (fun _ => ?_)
  exact .ite (fun _ => .ret (fun _ hs => hs)) (fun _ => .raise (fun _ hs => hs))

/-- `process_case` on an up-to-date copy of the state. -/
theorem processCase_asking (st : CaseState) (reason : Option Reason) :
    Asking cfg r.owner (r.processCase st reason) (Works r.owner (st.waits = false))
      (fun _ => Works r.owner False) := by
  refine .ite (fun _ => ?_) (fun _ => processTriage_asking st)
  exact .ite (fun _ => process_asking st reason) (fun _ => .ret (fun _ hs => hs.imp False.elim))

end Runner

/-! ## Taking up the case -/

section Jobs

variable {cfg : Settings}

/-- What holds when a job goes on with its first transaction. -/
theorem started {o : Owner} {t : Txn} {s : Store} (hstarts : t.starts = true)
    (hwaiting : t.waiting = none) {free : Prop}
    (hcreated : ((Op.commit o t).apply s).case.created = true)
    (hfree : free → s.orderly → s.case.waiting = {}) : Works o free ((Op.commit o t).apply s) := by
  intro hclean
  have hsame : ((Op.commit o t).apply s).case.waiting = s.case.waiting := by
    rw [commit_case]
    unfold Txn.applyCase
    simp only [hwaiting]
  refine ⟨hcreated, ?_, ?_, fun hf => ?_⟩
  · show (if t.starts then some o else s.history.atWork) = some o
    rw [hstarts]
    rfl
  · rw [hsame]
    show (if o = o then _ else _ : Waiting) = _
    simp [hwaiting, hstarts]
  · rw [hsame]
    exact hfree hf (orderly_of_apply hclean)

/-- To take up the case is allowed at any time; two jobs at once are an incident. -/
theorem queues_of_starts {o : Owner} {t : Txn} {s : Store} (hmoves : t.moves = [])
    (hwaiting : t.waiting = none) : t.Queues o o s := by
  refine ⟨fun _ hne => absurd hmoves hne, fun call hcall => ?_, fun _ => rfl⟩
  rw [hwaiting] at hcall
  cases hcall

theorem Asking.safe {o : Owner} {α : Type} {p : P α} {A : Store → Prop} {Q : α → Store → Prop}
    (h : Asking cfg o p A Q) :
    Safe (system cfg) queueContract o p A (fun _ _ => True) (fun _ _ => True) :=
  Safe.conseq h (fun _ _ hs => hs) (fun _ _ _ _ => trivial) (fun _ _ _ _ => trivial)

variable {w : Worker}

/-- A claimed case is read again: its state tells whether it is parked. -/
theorem runCase_safe : Safe (system cfg) queueContract w.owner w.runCase
    (fun s => s.case.created = true) (fun _ _ => True) (fun _ _ => True) := by
  refine Safe.bind (Q := fun x => Works w.owner (x.1.waits = false)) ?_ (fun x =>
    (processCase_asking (r := w.runner) x.1 x.2).safe)
  refine queue_tx Stable.true (fun _ _ => trivial) (fun _ => works_stable cfg w.owner _)
    (fun i s t a hinv hcreated hbody => ?_)
  cases hbody
  refine ⟨queues_of_starts rfl rfl, started rfl rfl (created_apply _ hcreated) (fun hwaits hclean =>
    not_waiting (hinv hclean) rfl hwaits)⟩

/-- What `process_event` goes on with. -/
def EventWork.Ready (o : Owner) : EventWork → Store → Prop
  | .case _ => Works o True
  | _ => fun _ => True

theorem EventWork.ready_stable (o : Owner) (work : EventWork) :
    Stable (system cfg) queueContract o (work.Ready o) := by
  cases work with
  | case e => exact works_stable cfg o True
  | done => exact Stable.true
  | label e st => exact Stable.true

/-- A delivery creates the case, or finds it in `RECEIVED`; neither is parked. -/
theorem openEvent_safe (r : Runner) (id : Nat) :
    Safe (system cfg) queueContract r.owner (r.openEvent id) (fun _ => True)
      (fun work => work.Ready r.owner) (fun _ _ => True) := by
  refine queue_tx Stable.true (fun _ _ => trivial) (fun work => work.ready_stable r.owner)
    (fun i s t work hinv _ hbody => ?_)
  dsimp only at hbody
  split at hbody
  · cases hbody
    exact ⟨queues_of_starts rfl rfl, trivial⟩
  · split at hbody
    · cases hbody
      exact ⟨queues_of_starts rfl rfl, trivial⟩
    · split at hbody
      · cases hbody
        exact ⟨queues_of_starts rfl rfl, trivial⟩
      · next hnew =>
          cases hbody
          refine ⟨queues_of_starts rfl rfl, started rfl rfl ?_ (fun _ hclean => ?_)⟩
          · rw [commit_case]
            simp [Txn.applyCase]
          · by_contra hne
            have hparked := (hinv hclean).parked hne
            have hstate : s.case.state = .received := by
              by_contra hstate
              exact hnew ⟨hparked.created, hstate⟩
            exact hne (not_waiting (hinv hclean) hstate rfl)

theorem processEvent_safe (r : Runner) (id : Nat) :
    Safe (system cfg) queueContract r.owner (r.processEvent id) (fun _ => True)
      (fun _ _ => True) (fun _ _ => True) := by
  refine Safe.bind (openEvent_safe r id) (fun work => ?_)
  cases work with
  | done => exact fun _ _ _ => trivial
  | label e st =>
      exact (processLabelEvent_outer r e st).safe
  | case e =>
      refine Asking.safe (Q := fun _ => Works r.owner False) ?_
      refine .bind ((processCase_asking .received none).conseq
        (fun _ hs => hs.imp (fun _ => trivial)) (fun _ _ hs => hs)) (fun _ => ?_)
      exact .watch (fun i s t a hbody => by cases hbody; exact ⟨rfl, rfl⟩)

/-- `try … except … finally`: the handlers and the release move nothing that is parked. -/
theorem withFinally_safe {o : Owner} {p fin : P Unit} {handler : Err → P Unit} {A : Store → Prop}
    (hp : Safe (system cfg) queueContract o p A (fun _ _ => True) (fun _ _ => True))
    (hhandler : ∀ e, Outer (handler e)) (hfin : Outer fin) :
    Safe (system cfg) queueContract o (withFinally (rescue p handler) fin) A (fun _ _ => True)
      (fun _ _ => True) := by
  refine Safe.bind (Q := fun _ _ => True) ?_ (fun _ => hfin.safe)
  refine Safe.handle (E := fun _ _ => True) ?_ (fun e => ?_)
  · refine Safe.handle hp (fun e => ?_)
    split
    · exact fun _ _ _ => trivial
    · exact (hhandler e).safe
  · split
    · exact fun _ _ _ => trivial
    · exact Safe.bind hfin.safe (fun _ => fun _ _ _ => trivial)

theorem iterate_safe : Safe (system cfg) queueContract w.owner w.iterate (fun _ => True)
    (fun _ _ => True) (fun _ _ => True) := by
  refine Safe.bind (claimEvent_outer w w.rounds).safe (fun event => ?_)
  split
  · next id =>
      exact withFinally_safe (processEvent_safe w.runner id) (onEventError_outer w id)
        (releaseEvent_outer w id)
  · refine Safe.bind (Q := fun claimed s => claimed = true → s.case.created = true) ?_
      (fun claimed => ?_)
    · refine queue_tx Stable.true (fun _ _ => trivial) (fun _ => created_stable cfg w.owner _)
        (fun i s t claimed _ _ hbody => ?_)
      dsimp only at hbody
      split at hbody
      · next hfound =>
          cases hbody
          exact ⟨queues_of_starts rfl rfl, fun _ => created_apply _ hfound.1⟩
      · cases hbody
        exact ⟨queues_of_starts rfl rfl, nofun⟩
    · split
      · next hclaimed =>
          exact withFinally_safe (runCase_safe.pre (fun s _ hcreated => hcreated hclaimed))
            (onCaseError_outer w) (releaseCase_outer w)
      · refine Safe.pre (P := fun _ => True) ?_ (fun _ _ _ => trivial)
        refine Safe.bind (dispatcherClaim_silently w.dispatcher).outer.safe (fun row => ?_)
        split
        · exact (dispatch_silently w.dispatcher _).outer.safe
        · exact fun _ _ _ => trivial

/-- What the contract allows keeps the columns true. -/
theorem queue_allowed {o : Owner} {s : Store} {op : Op} (hinv : queueContract.inv s)
    (hallowed : queueContract.allowed o s op) : queueContract.inv (op.apply s) := by
  intro hclean
  have hbefore : Queued s := hinv (orderly_of_apply hclean)
  cases op with
  | commit o' t => exact hbefore.commit hallowed hclean
  | _ => exact hbefore.other (fun _ _ h => by cases h)

theorem queue_job (o : Owner) (j : Job) : Safe (system cfg) queueContract o (j.program cfg o)
    (fun _ => True) (fun _ _ => True) (fun _ _ => True) := by
  cases j with
  | iterate process rounds => exact iterate_safe (w := ⟨cfg, o, process, rounds⟩)
  | slack action => exact (slackClick_silently cfg o action).outer.safe
  | cancel => exact (cancelCase_silently o).outer.safe
  | retry => exact (retryCase_silently cfg o).outer.safe
  | reconcileSession rounds => exact (reconcileSession_silently cfg o rounds).outer.safe
  | retryCi => exact (retryCi_silently o).outer.safe
  | retryProbe => exact (retryProbe_silently o).outer.safe
  | retryOutbox id => exact (retryOutbox_silently o id).outer.safe
  | expireApproval id => exact (expireApproval_silently cfg o id).outer.safe

end Jobs

/-! ## Only competitors hold the queue -/

/-- Every job sees to the contract. -/
theorem queue_sound (cfg : Settings) : Sound (system cfg) queueContract where
  act _ _ _ hinv hallowed := queue_allowed hinv hallowed
  leave o s hinv hclean := (hinv (orderly_of_apply hclean)).other (fun _ _ h => by cases h)
  env s op hinv henv := by
    cases op with
    | commit o t => cases henv
    | leave o => cases henv
    | _ => exact queue_allowed (o := 0) hinv trivial
  job := queue_job

/-- **Only competitors hold the queue**, in every state of a run in which a parked case is left to
the worker that takes it up next. -/
theorem competes_of_reachable {cfg : Settings} {c : Pool Store Input Op Err}
    (h : Reachable cfg c) (hclean : ¬ c.store.hit waitingIncidents) : Competes c.store := by
  have hinit : queueContract.inv {} := fun _ => ⟨Nat.le_refl _, fun hne => absurd rfl hne⟩
  exact ((Pool.Reachable.safe (queue_sound cfg) hinit h).1 hclean).competes

/-! ## A parked case -/

/-- A first delivery whose case finds no triage slot. -/
def parkedSchedule : List (Choice Input Op Job) :=
  [.env (.receive issueOpened), .spawn 1 (.iterate 0 5)] ++ actions 1 6 { yes := false }

theorem competes_of_reachable_demo : ∃ c, Reachable demoSettings c ∧
    c.store.case.parkedOn .triage = true ∧ Competes c.store := by
  obtain ⟨c, hc, hview⟩ := reachable_of_runSchedule demoSettings parkedSchedule
    (fun s => (s.case.parkedOn .triage, waitingIncidents.any s.history.incident)) (true, false)
    (by decide +kernel)
  obtain ⟨hpark, hinc⟩ := Prod.mk.inj hview
  refine ⟨c, hc, hpark, competes_of_reachable hc ?_⟩
  rintro ⟨k, hk, hi⟩
  simp only [List.any_eq_false] at hinc
  exact hinc k hk hi

/-- The first session waits for the user and is given up, the operator retries, the case finds
no slot and is parked, and the operator cancels it: a retained session moves it to
`TERMINATION_PENDING` with its waiting columns set. -/
def cancelParkedSchedule : List (Choice Input Op Job) :=
  [.env (.receive issueOpened), .spawn 1 (.iterate 0 5)] ++
    actions 1 22 { get := .snapshot ⟨"running", "waiting_for_user", none, []⟩ } ++
  .spawn 2 (.reconcileSession 3) :: actions 2 5 { get := .notFound } ++
  .spawn 3 .retry :: actions 3 4 {} ++
  .env (.tick 100) :: .spawn 4 (.iterate 0 5) :: actions 4 9 { yes := false } ++
  .spawn 5 .cancel :: actions 5 4 {}

theorem queue_held_by_cancelled : ∃ c, Reachable demoSettings c ∧
    c.store.case.parkedOn .triage = true ∧ c.store.case.state = .terminationPending ∧
    ¬ Competes c.store := by
  obtain ⟨c, hc, hview⟩ := reachable_of_runSchedule demoSettings cancelParkedSchedule
    (fun s => (s.case.parkedOn .triage, s.case.state)) (true, .terminationPending)
    (by decide +kernel)
  obtain ⟨hpark, hstate⟩ := Prod.mk.inj hview
  refine ⟨c, hc, hpark, hstate, fun hcomp => ?_⟩
  have hasks := (hcomp .triage hpark).1
  rw [hstate] at hasks
  cases hasks

end Remediator
