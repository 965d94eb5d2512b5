import Remediator.Runs
import Remediator.Rounds.Guarantees

set_option autoImplicit false

/-! # When a cancel is accepted

The target of a cancel is computed from the state that the action read and from the question
whether an attempt may own a session; the transition table is only asked at the end. The two
disagree in the states that have no edge to the termination of their phase.
-/

namespace Remediator

open Interleave

/-! ## Runs of the action -/

/-- Whatever the others do in between, they do not move the case. -/
def Unmoved (s s' : Store) : Prop :=
  s'.case.created = s.case.created ∧ s'.case.state = s.case.state

theorem Unmoved.refl (s : Store) : Unmoved s s := ⟨rfl, rfl⟩

/-! ## The edges of a cancel -/

/-- The table has an edge to the termination of the phase. -/
def CaseState.terminable (st : CaseState) : Bool :=
  decide ((phaseForState st).terminationPending ∈ st.transitions)

/-- The states that an operator may cancel and whose sessions he cannot have terminated. -/
theorem terminable_eq_false_iff (st : CaseState) (h : st.terminal = false) :
    st.terminable = false ↔ st ∈ [.remediationTerminationPending, .remediationApproved,
      .probeValidatingBase, .probeInfrastructureBlocked, .outputValidating, .prDiscovered,
      .prValidating, .probeValidatingHead, .prValidated, .ciPending] := by
  cases st <;> first | decide | cases h

/-- Every state that is not terminal can be cancelled at once. -/
theorem cancelled_mem_transitions {st : CaseState} (h : st.terminal = false) :
    (phaseForState st).cancelled ∈ st.transitions := by
  cases st <;> first | decide | cases h

theorem cancelTarget_eq {st : CaseState} (h : st.terminal = false) (owns : Bool) :
    cancelTarget st owns =
      if owns then (phaseForState st).terminationPending else (phaseForState st).cancelled := by
  cases st <;> first | (cases owns <;> rfl) | cases h

/-- The table admits the target of a cancel, or the termination of the phase is missing. -/
theorem cancelTarget_mem_iff {st : CaseState} (h : st.terminal = false) (owns : Bool) :
    cancelTarget st owns ∈ st.transitions ↔ st.terminable = true ∨ owns = false := by
  rw [cancelTarget_eq h]
  cases owns with
  | true => simp [CaseState.terminable]
  | false => simpa using cancelled_mem_transitions h

/-! ## Acceptance -/

/-- The action is accepted: the case is cancelled or its sessions are being terminated. -/
def CancelAccepted (st : CaseState) (r : Except Err Unit) (s : Store) : Prop :=
  r = .ok () ∧ (s.case.state = (phaseForState st).cancelled ∨
    s.case.state = (phaseForState st).terminationPending)

/-- The answer to `_may_own_session`, the second question of the action. -/
def readsOwner (l : List (Input × Store)) : Bool :=
  l[1]?.any (fun x => mayOwnSession x.2.core.attempts)

/-- `readState` answers with the state of the case. -/
theorem readState_runs {o : Owner} {s s' : Store} {l : List (Input × Store)}
    {r : Except Err CaseState} (hc : s.case.created = true) (hl : Undisturbed l)
    (h : (readState o).Runs Op.apply Unmoved s l r s') :
    r = .ok s.case.state ∧ l.length = 1 ∧ Unmoved s s' := by
  obtain ⟨i, s₁, hR, rfl, hout⟩ := runs_tx h
  have hf : i.fault = none := hl (i, s₁) (by simp)
  have hc₁ : s₁.case.created = true := hR.1.trans hc
  rw [outcome_plain (t := {}) (a := s₁.case.state) hf (by simp [hc₁]) rfl rfl] at hout
  obtain ⟨rfl, rfl⟩ := hout
  refine ⟨by rw [hR.2], rfl, ?_⟩
  exact ⟨(Bool.or_false _).trans hR.1, hR.2⟩

/-- The question whether an attempt may own a session. -/
theorem readOwner_runs {o : Owner} {s s' : Store} {l : List (Input × Store)}
    {r : Except Err Bool} (hl : Undisturbed l)
    (h : (tx o (fun _ s => .ok (({} : Txn), mayOwnSession s.core.attempts))).Runs
      Op.apply Unmoved s l r s') :
    ∃ i s₁, l = [(i, s₁)] ∧ r = .ok (mayOwnSession s₁.core.attempts) ∧ Unmoved s s' := by
  obtain ⟨i, s₁, hR, rfl, hout⟩ := runs_tx h
  have hf : i.fault = none := hl (i, s₁) (by simp)
  rw [outcome_plain (t := {}) (a := mayOwnSession s₁.core.attempts) hf rfl rfl
    rfl] at hout
  obtain ⟨rfl, rfl⟩ := hout
  exact ⟨i, s₁, rfl, rfl, (Bool.or_false _).trans hR.1, hR.2⟩

/-- The commit of the action. -/
theorem commitCancel_runs {o : Owner} {st : CaseState} {owns : Bool} {s s' : Store}
    {l : List (Input × Store)} {r : Except Err Unit} (hst : s.case.state = st)
    (hl : Undisturbed l)
    (h : (tx o (fun _ s => .ok (({
        moves := [operatorMove st (cancelTarget st owns)]
        newOutbox := if st.remediationPhase then notifyRemediation s else [] } : Txn), ()))).Runs
      Op.apply Unmoved s l r s') :
    if cancelTarget st owns ∈ st.transitions then
      r = .ok () ∧ s'.case.state = cancelTarget st owns
    else r = .error .invalidTransition := by
  obtain ⟨i, s₁, hR, rfl, hout⟩ := runs_tx h
  have hf : i.fault = none := hl (i, s₁) (by simp)
  have hok : (operatorMove st (cancelTarget st owns)).ok s₁.case =
      decide (cancelTarget st owns ∈ st.transitions) := by
    simp [Move.ok, operatorMove, CaseState.allowed, hR.2, hst]
  rw [outcome_move hf rfl rfl rfl, hok] at hout
  by_cases hmem : cancelTarget st owns ∈ st.transitions
  · simp only [hmem, decide_true, if_true] at hout ⊢
    obtain ⟨rfl, rfl⟩ := hout
    exact ⟨rfl, rfl⟩
  · simp only [hmem, decide_false, Bool.false_eq_true, if_false] at hout ⊢
    exact hout.1

/-- What a run of the action did: the target comes from the state and from the attempts that
were read, and the outcome is that of the move. -/
theorem cancelCase_runs {o : Owner} {s s' : Store} {l : List (Input × Store)}
    {r : Except Err Unit} (hc : s.case.created = true) (hl : Undisturbed l)
    (h : (cancelCase o).Runs Op.apply Unmoved s l r s') :
    ∃ owns, (s.case.state ≠ .triaging → s.case.state ≠ .remediating → owns = readsOwner l) ∧
      if cancelTarget s.case.state owns ∈ s.case.state.transitions then
        r = .ok () ∧ s'.case.state = cancelTarget s.case.state owns
      else r = .error .invalidTransition := by
  unfold cancelCase at h
  rcases h.bind_inv with ⟨e, -, hread⟩ | ⟨st, s₁, l₁, l₂, rfl, hread, hrest⟩
  · cases (readState_runs hc hl hread).1
  · obtain ⟨hst, hlen, hun⟩ := readState_runs hc hl.append.1 hread
    obtain rfl := Except.ok.inj hst
    have hl₂ := hl.append.2
    by_cases hrunning : s.case.state = .triaging ∨ s.case.state = .remediating
    · rw [if_pos hrunning] at hrest
      refine ⟨true, fun hne hne' => absurd hrunning (by simp [hne, hne']), ?_⟩
      exact commitCancel_runs hun.2 hl₂ hrest
    · rw [if_neg hrunning] at hrest
      rcases hrest.bind_inv with ⟨e, -, hask⟩ | ⟨owns, s₂, l₃, l₄, rfl, hask, hcommit⟩
      · obtain ⟨i, s₀, -, hr, -⟩ := readOwner_runs hl₂ hask
        cases hr
      · obtain ⟨i, s₀, rfl, hr, hun'⟩ := readOwner_runs hl₂.append.1 hask
        obtain rfl := Except.ok.inj hr
        refine ⟨_, fun _ _ => ?_, commitCancel_runs (hun'.2.trans hun.2) hl₂.append.2 hcommit⟩
        obtain ⟨x, rfl⟩ := List.length_eq_one_iff.mp hlen
        rfl

/-- Without a transition of someone else, a cancel of an open case is accepted exactly when no
attempt may own a session or the table has an edge to the termination of the phase. -/
theorem cancel_accepted_iff {o : Owner} {s s' : Store} {l : List (Input × Store)}
    {r : Except Err Unit} (hc : s.case.created = true) (hopen : s.case.state.terminal = false)
    (hl : Undisturbed l) (h : (cancelCase o).Runs Op.apply Unmoved s l r s') :
    CancelAccepted s.case.state r s' ↔
      s.case.state.terminable = true ∨ readsOwner l = false := by
  obtain ⟨owns, howns, hout⟩ := cancelCase_runs hc hl h
  -- in the two running states the edge exists, whatever the attempts say
  have hreads : (s.case.state.terminable = true ∨ owns = false) ↔
      (s.case.state.terminable = true ∨ readsOwner l = false) := by
    by_cases hrunning : s.case.state = .triaging ∨ s.case.state = .remediating
    · have hedge : s.case.state.terminable = true := by
        rcases hrunning with heq | heq <;> rw [heq] <;> decide
      simp [hedge]
    · rw [not_or] at hrunning
      rw [howns hrunning.1 hrunning.2]
  rw [← hreads, ← cancelTarget_mem_iff hopen]
  by_cases hmem : cancelTarget s.case.state owns ∈ s.case.state.transitions
  · rw [if_pos hmem] at hout
    refine ⟨fun _ => hmem, fun _ => ⟨hout.1, ?_⟩⟩
    rw [hout.2, cancelTarget_eq hopen]
    cases owns with
    | true => exact Or.inr rfl
    | false => exact Or.inl rfl
  · rw [if_neg hmem] at hout
    refine ⟨fun hacc => ?_, fun hin => absurd hin hmem⟩
    have hok := hacc.1
    rw [hout] at hok
    cases hok

/-! ## A retried remediation -/

/-- A configuration whose hashes have the length of a SHA-256 digest. -/
def hashSettings : Settings := { demoSettings with
  triageResultHash := fun _ => "8d969eef6ecad3c29a3a629280e686cf0c3f5d5a86aff3ca12020c923adc6c92" }

/-- The answers of a run whose session waits for the user. -/
def waiting : Input := { smooth with
  get := .snapshot ⟨"running", "waiting_for_user", none, []⟩
  sha := "2fd4e1c67a2d28fced849ee1bb76e7391b93eb12" }

/-- The remediation session waits for the user, and the case is blocked with it. -/
def blockedSchedule : List (Choice Input Op Job) :=
  confirmedSchedule ++ [.env (.tick 100), .spawn 6 (.iterate 0 5)] ++ actions 6 27 waiting

/-- The operator retries the blocked case. -/
def retriedSchedule : List (Choice Input Op Job) :=
  blockedSchedule ++ .spawn 7 .retry :: actions 7 4 {}

theorem cancel_accepted_iff_demo : ∃ c, Reachable hashSettings c ∧
    c.store.case.state = .remediationHumanBlocked ∧
    mayOwnSession c.store.core.attempts = true ∧
    ∃ l r s', (cancelCase 9).Runs Op.apply Unmoved c.store l r s' ∧
      CancelAccepted .remediationHumanBlocked r s' := by
  obtain ⟨c, hc, hview⟩ := reachable_of_runSchedule hashSettings blockedSchedule
    (fun s => (s.case.created, s.case.state, mayOwnSession s.core.attempts))
    (true, .remediationHumanBlocked, true) (by decide +kernel)
  obtain ⟨hcreated, hview⟩ := Prod.mk.inj hview
  obtain ⟨hstate, howns⟩ := Prod.mk.inj hview
  obtain ⟨l, hrun, hl⟩ := Prog.runs_alone Op.apply (cancelCase 9) {} Unmoved.refl c.store
  have hun : Undisturbed l := fun x hx => by rw [hl x hx]
  have hopen : c.store.case.state.terminal = false := by rw [hstate]; rfl
  refine ⟨c, hc, hstate, howns, l, _, _, hrun, ?_⟩
  rw [← hstate]
  exact (cancel_accepted_iff hcreated hopen hun hrun).mpr (Or.inl (by rw [hstate]; decide))

/-- The blocked attempt still owns its session when the retry has moved the case back to
`REMEDIATION_APPROVED`, and a cancel is refused there. -/
theorem cancel_refused_after_retry : ∃ c, Reachable hashSettings c ∧
    c.store.case.created = true ∧ c.store.case.state = .remediationApproved ∧
    ∃ l s', (cancelCase 9).Runs Op.apply Unmoved c.store l (.error .invalidTransition) s' ∧
      Undisturbed l := by
  obtain ⟨c, hc, hview⟩ := reachable_of_runSchedule hashSettings retriedSchedule
    (fun s => (s.case.created, s.case.state,
      match ((cancelCase 9).alone Op.apply {} s).1 with
      | .error e => some e
      | .ok _ => none))
    (true, .remediationApproved, some .invalidTransition) (by decide +kernel)
  obtain ⟨hcreated, hview⟩ := Prod.mk.inj hview
  obtain ⟨hstate, hrefused⟩ := Prod.mk.inj hview
  obtain ⟨l, hrun, hl⟩ := Prog.runs_alone Op.apply (cancelCase 9) {} Unmoved.refl c.store
  have hun : Undisturbed l := fun x hx => by rw [hl x hx]
  refine ⟨c, hc, hcreated, hstate, l, ((cancelCase 9).alone Op.apply {} c.store).2, ?_, hun⟩
  cases hres : ((cancelCase 9).alone Op.apply {} c.store).1 with
  | error e =>
      rw [hres] at hrun hrefused
      obtain rfl := Option.some.inj hrefused
      exact hrun
  | ok a =>
      rw [hres] at hrefused
      cases hrefused

end Remediator
