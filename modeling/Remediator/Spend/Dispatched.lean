import Remediator.Spend.Evidence

set_option autoImplicit false

/-! # The attempt that follows a dispatch

`_dispatch_without_probe` records its decision, and `_load_context` finds it again only if the case
has no snapshot. One of an earlier dispatch takes precedence, and if its run is free the attempt is
created with the old probe.
-/

namespace Remediator

open Interleave

/-! ## One step -/

/-- A remediation attempt that is new is one that the last dispatch leads to. -/
def AsDispatched (s s' : Store) : Prop :=
  ∀ (i : Nat) (a : Attempt), s.core.attempts.length ≤ i → s'.core.attempts[i]? = some a →
    a.kind = .remediation → s.DispatchedAs a

section Steps

variable {cfg : Settings} {s : Store}

theorem AsDispatched.of_core {s' : Store} (hcore : s'.core = s.core) : AsDispatched s s' := by
  intro i a hi ha
  rw [hcore, List.getElem?_eq_none hi] at ha
  cases ha

theorem AsDispatched.commit {o o' : Owner} {t : Txn} (ht : t.Spends cfg o o' s)
    (hstraight : s.straight) : AsDispatched s ((Op.commit o' t).apply s) := by
  intro i a hi ha hkind
  rcases commit_attempt ha with ⟨b, hb, -⟩ | ⟨-, n, hn, rfl⟩
  · rw [List.getElem?_eq_none hi] at hb
    cases hb
  · exact ht.dispatched hstraight n hn hkind

/-- One operation of a run. -/
theorem performed_dispatched {op : Op}
    (hop : Performed (system cfg) (spendContract cfg) s op) (hstraight : s.straight) :
    AsDispatched s (op.apply s) := by
  cases hop with
  | @act o _ hallowed =>
      cases op with
      | commit o' t => exact .commit hallowed hstraight
      | leave o' => exact absurd hallowed not_false
      | _ => exact .of_core rfl
  | leave o => exact .of_core rfl
  | env henv =>
      cases op with
      | commit o t => cases henv
      | _ => exact .of_core rfl

end Steps

/-! ## Every run -/

/-- **A dispatch is consistent with the attempt that follows it**, in every run in which one job at
a time works on the case, the case is not dispatched without a probe while a run of its newest
probe is free, and no job that is to end its sessions creates one. -/
theorem dispatched_of_straight {cfg : Settings} {c c' : Pool Store Input Op Err}
    {ch : Choice Input Op Job} (h : Reachable cfg c) (hstraight : c.store.straight)
    (hx : c.exec (system cfg) ch = some c') : AsDispatched c.store c'.store := by
  obtain ⟨hinv, hthreads⟩ := Pool.Reachable.safe (spend_sound cfg) (Spending.start cfg) h
  rcases Pool.exec_performed hx hinv hthreads with heq | ⟨op, hop, heq⟩
  · rw [heq]
    exact .of_core rfl
  · rw [heq]
    exact performed_dispatched hop hstraight

/-! ## Two dispatches -/

/-- The registry has no probe for the issue, and the base branch is at another commit. -/
def unprobed : Input :=
  { smooth with registry := .missing, sha := String.ofList (List.replicate 40 'c') }

/-- The case is dispatched without a probe. -/
def bareSchedule : List (Choice Input Op Job) :=
  confirmedSchedule ++ .env (.tick 100) :: .spawn 7 (.iterate 0 5) :: actions 7 15 unprobed

/-- What the demonstrations show of a step. -/
def dispatchView (s s' : Store) :
    Option CaseState × Nat × Option (Bool × ProbeStatus) × Bool :=
  (intentFrom s.log, s.core.attempts.length,
    s'.core.attempts[1]?.map (fun a => (decide (a.kind = .remediation), a.probeStatus)),
    [Incident.crowded, .bareWithRun, .createdTerminating].any s.history.incident)

theorem dispatched_of_straight_demo : ∃ (c c' : Pool Store Input Op Err) (a : Attempt),
    Reachable hashedSettings c ∧ c.store.straight ∧
      intentFrom c.store.log = some .remediationApproved ∧
      c'.store.core.attempts[1]? = some a ∧ c.store.DispatchedAs a := by
  obtain ⟨c, c', hc, hx, hview⟩ := step_of_runSchedule hashedSettings bareSchedule
    (.step 7 unprobed) dispatchView
    (some .remediationApproved, 1, some (true, .notConfigured), false) (by decide +kernel)
  obtain ⟨hintent, hview⟩ := Prod.mk.inj hview
  obtain ⟨hlength, hview⟩ := Prod.mk.inj hview
  obtain ⟨hattempt, hincidents⟩ := Prod.mk.inj hview
  obtain ⟨a, ha, hrow⟩ := Option.map_eq_some_iff.mp hattempt
  have hstraight : c.store.straight := by
    rintro ⟨k, hk, hhit⟩
    exact List.any_eq_false.mp hincidents k hk hhit
  exact ⟨c, c', a, hc, hstraight, hintent, ha, dispatched_of_straight hc hstraight hx 1 a
    (Nat.le_of_eq hlength) ha (of_decide_eq_true (Prod.mk.inj hrow).1)⟩

/-- The probe of the registry reproduces the defect, and the job fails before it creates an
attempt. -/
def untakenSchedule : List (Choice Input Op Job) :=
  confirmedSchedule ++ .env (.tick 100) :: .spawn 7 (.iterate 0 5) ::
    actions 7 14 { smooth with registry := .probe baseProbe, probe := { exitCode := some 1 } } ++
  .step 7 { fault := some .other } :: actions 7 3 smooth

/-- The operator retries the case, and the registry has no probe any more: the decision is to do
without one, and the attempt is created with the old one. -/
theorem bare_dispatch_overruled : hashedSettings.probeRequired = false ∧
    ¬ ∀ (c c' : Pool Store Input Op Err) (ch : Choice Input Op Job), Reachable hashedSettings c →
      c.exec (system hashedSettings) ch = some c' → AsDispatched c.store c'.store := by
  refine ⟨rfl, fun hclaim => ?_⟩
  obtain ⟨c, c', hc, hx, hview⟩ := step_of_runSchedule hashedSettings
    (untakenSchedule ++ .spawn 8 .retry :: actions 8 4 smooth ++
      .env (.tick 100) :: .spawn 9 (.iterate 0 5) :: actions 9 16 unprobed)
    (.step 9 unprobed) dispatchView
    (some .remediationApproved, 1, some (true, .verified), true) (by decide +kernel)
  obtain ⟨hintent, hview⟩ := Prod.mk.inj hview
  obtain ⟨hlength, hview⟩ := Prod.mk.inj hview
  obtain ⟨a, ha, hrow⟩ := Option.map_eq_some_iff.mp (Prod.mk.inj hview).1
  obtain ⟨hkind, hstatus⟩ := Prod.mk.inj hrow
  have hdispatched := hclaim c c' _ hc hx 1 a (Nat.le_of_eq hlength) ha (of_decide_eq_true hkind)
  have hbare := (hdispatched.bare hintent).1
  rw [hstatus] at hbare
  cases hbare

end Remediator
