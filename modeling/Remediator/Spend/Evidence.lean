import Remediator.Rounds.Guarantees
import Remediator.Spend.Workers

set_option autoImplicit false

/-! # Evidence of its own

Each verified attempt has consumed one run of the probe at the base commit, and nothing else does.
-/

namespace Remediator

open Interleave

/-! ## What a run of the system does to the links -/

/-- A run that is linked to an attempt stays linked to it. -/
structure LinksKept (c c' : Core) : Prop where
  kept : ∀ (e : Nat) (x : ProbeExecution) (i : Nat), c.executions[e]? = some x →
    x.target = .base → x.attemptId = some i →
    ∃ x', c'.executions[e]? = some x' ∧ x'.target = .base ∧ x'.attemptId = some i

theorem LinksKept.refl (c : Core) : LinksKept c c := ⟨fun _ x _ hx ht hi => ⟨x, hx, ht, hi⟩⟩

theorem LinksKept.trans {c c' c'' : Core} (h : LinksKept c c') (h' : LinksKept c' c'') :
    LinksKept c c'' := by
  refine ⟨fun e x i hx ht hi => ?_⟩
  obtain ⟨x', hx', ht', hi'⟩ := h.kept e x i hx ht hi
  exact h'.kept e x' i hx' ht' hi'

/-- A new attempt that needs a run takes one that is free; one of remediation that needs none is
inserted only when no probe was ever taken from the registry. `create_session` is called for
attempts that were there before. -/
structure Consumes (s s' : Store) : Prop where
  takes : ∀ (i : Nat) (a : Attempt), s.core.attempts.length ≤ i →
    s'.core.attempts[i]? = some a → a.NeedsRun →
    ∃ (e : Nat) (x : ProbeExecution), s.core.executions[e]? = some x ∧ x.attemptId = none ∧
      x.Backs s.core a
  bare : ∀ (i : Nat) (a : Attempt), s.core.attempts.length ≤ i →
    s'.core.attempts[i]? = some a → a.kind = .remediation → ¬ a.NeedsRun → s.core.snapshots = []
  posts : ∀ a ∈ s'.history.posts, a ∈ s.history.posts ∨ a < s.core.attempts.length

section Steps

variable {cfg : Settings} {s : Store}

/-- An operation that leaves the tables as they are. -/
theorem Consumes.of_core {s' : Store} (hcore : s'.core = s.core)
    (hposts : ∀ a ∈ s'.history.posts, a ∈ s.history.posts ∨ a < s.core.attempts.length) :
    Consumes s s' := by
  have hnone : ∀ (i : Nat) (a : Attempt), s.core.attempts.length ≤ i →
      s'.core.attempts[i]? ≠ some a := by
    intro i a hi ha
    rw [hcore, List.getElem?_eq_none hi] at ha
    cases ha
  exact ⟨fun i a hi ha => absurd ha (hnone i a hi), fun i a hi ha => absurd ha (hnone i a hi),
    hposts⟩

theorem LinksKept.commit {o o' : Owner} {t : Txn} (ht : t.Spends cfg o o' s) (halone : s.alone) :
    LinksKept s.core ((Op.commit o' t).apply s).core := by
  refine ⟨fun e x i hx htarget hi => ⟨_, commit_execution hx, ?_⟩⟩
  unfold Txn.linked
  rw [if_neg]
  · exact ⟨htarget, hi⟩
  · -- only a free run is linked
    intro hlink
    obtain ⟨y, -, hy, hfree, -⟩ := link_free (ht.backed halone) hlink
    rw [hx] at hy
    rw [← Option.some.inj hy, hi] at hfree
    cases hfree

theorem Consumes.commit {o o' : Owner} {t : Txn} (ht : t.Spends cfg o o' s) (halone : s.alone) :
    Consumes s ((Op.commit o' t).apply s) := by
  -- a row that is new is the one that is inserted
  have hnew : ∀ (i : Nat) (a : Attempt), s.core.attempts.length ≤ i →
      ((Op.commit o' t).apply s).core.attempts[i]? = some a →
      ∃ n : NewAttempt, n.row = a ∧ n.Backed s.core := by
    intro i a hi ha
    rcases commit_attempt ha with ⟨b, hb, -⟩ | ⟨-, n, hn, hrow⟩
    · rw [List.getElem?_eq_none hi] at hb
      cases hb
    · exact ⟨n, hrow, ht.backed halone n hn⟩
  refine ⟨fun i a hi ha hneeds => ?_, fun i a hi ha hkind hbare => ?_, fun a ha => Or.inl ha⟩
  · obtain ⟨n, rfl, hbacked⟩ := hnew i a hi ha
    obtain ⟨e, he⟩ := Option.isSome_iff_exists.mp (hbacked.needs hneeds)
    obtain ⟨x, hx, hfree, hbacks⟩ := hbacked.link e he
    exact ⟨e, x, hx, hfree, hbacks⟩
  · obtain ⟨n, rfl, hbacked⟩ := hnew i a hi ha
    refine hbacked.bare hkind ?_
    cases hstatus : n.row.probeStatus with
    | verified => exact absurd ⟨hkind, hstatus⟩ hbare
    | notConfigured => rfl

/-- One operation of a run. -/
theorem performed_evidence {op : Op} (hinv : Spending cfg s)
    (hop : Performed (system cfg) (spendContract cfg) s op) (halone : s.alone) :
    LinksKept s.core (op.apply s).core ∧ Consumes s (op.apply s) := by
  have hsame : (op.apply s).core = s.core →
      (∀ a ∈ (op.apply s).history.posts, a ∈ s.history.posts ∨ a < s.core.attempts.length) →
      LinksKept s.core (op.apply s).core ∧ Consumes s (op.apply s) := by
    intro hcore hposts
    refine ⟨?_, .of_core hcore hposts⟩
    rw [hcore]
    exact .refl _
  cases hop with
  | @act o _ hallowed =>
      cases op with
      | commit o' t => exact ⟨.commit hallowed halone, .commit hallowed halone⟩
      | post o' a r =>
          refine hsame rfl (fun b hb => ?_)
          obtain ⟨-, hown⟩ : o' = o ∧ s.history.inserted o = some a := hallowed
          rcases List.mem_append.mp hb with hold | hnew
          · exact Or.inl hold
          · rw [List.mem_singleton.mp hnew]
            exact Or.inr (hinv.unsent o a hown).1
      | leave o' => exact absurd hallowed not_false
      | _ => exact hsame rfl (fun _ hb => Or.inl hb)
  | leave o => exact hsame rfl (fun _ hb => Or.inl hb)
  | env henv =>
      cases op with
      | commit o t => cases henv
      | post o a r => cases henv
      | _ => exact hsame rfl (fun _ hb => Or.inl hb)

end Steps

/-! ## Every verified attempt consumes its own run -/

/-- The attempt is linked to exactly one run at the base commit, and that one backs it. -/
def OwnRun (c : Core) (i : Nat) (a : Attempt) : Prop :=
  ∃ (e : Nat) (x : ProbeExecution), c.executions[e]? = some x ∧ x.attemptId = some i ∧
    x.Backs c a ∧ ∀ (e' : Nat) (x' : ProbeExecution), c.executions[e']? = some x' →
      x'.target = .base → x'.attemptId = some i → e' = e

theorem Evidenced.ownRun {c : Core} (h : Evidenced c) {i : Nat} {a : Attempt}
    (ha : c.attempts[i]? = some a) (hneeds : a.NeedsRun) : OwnRun c i a := by
  obtain ⟨e, x, hx, hi, hbacks⟩ := h.run i a ha hneeds
  exact ⟨e, x, hx, hi, hbacks, fun e' x' hx' ht' hi' =>
    h.single e' e x' x i hx' hx ht' hbacks.target hi' hi⟩

/-- **Each verified attempt consumes its own evidence**, as long as one job at a time works on the
case. No run is ever linked to two attempts, and without a free one no attempt is inserted, unless
the case never had a probe. -/
theorem own_run_of_reachable {cfg : Settings} {c : Pool Store Input Op Err}
    (h : Reachable cfg c) (halone : c.store.alone) :
    (∀ i a, c.store.core.attempts[i]? = some a → a.NeedsRun → OwnRun c.store.core i a) ∧
      (∀ chs c', c.execAll (system cfg) chs = some c' → c'.store.alone →
        LinksKept c.store.core c'.store.core) ∧
      ∀ ch c', c.exec (system cfg) ch = some c' → Consumes c.store c'.store := by
  obtain ⟨hinv, hthreads⟩ := Pool.Reachable.safe (spend_sound cfg) (Spending.start cfg) h
  have hinv : Spending cfg c.store := hinv
  refine ⟨fun i a ha hneeds => (hinv.evidenced halone).ownRun ha hneeds,
    fun chs c' hx halone' => ?_, fun ch c' hx => ?_⟩
  · refine (Pool.execAll_performed (spend_sound cfg)
      (R := fun s s' => s'.alone → s.alone ∧ LinksKept s.core s'.core)
      (fun s hs => ⟨hs, .refl _⟩) (fun s s' s'' h₁ h₂ hs => ?_) (fun s op hi hop hs => ?_)
      hinv hthreads hx halone').2
    · obtain ⟨hs', hkept'⟩ := h₂ hs
      obtain ⟨hs, hkept⟩ := h₁ hs'
      exact ⟨hs, hkept.trans hkept'⟩
    · have hbefore := alone_of_apply hs
      exact ⟨hbefore, (performed_evidence hi hop hbefore).1⟩
  · rcases Pool.exec_performed hx hinv hthreads with heq | ⟨op, hop, heq⟩
    · rw [heq]
      exact .of_core rfl (fun _ ha => Or.inl ha)
    · rw [heq]
      exact (performed_evidence hinv hop halone).2

/-! ## A run that outlives its worker -/

/-- Hashes and commits of their real lengths. -/
def hashedSettings : Settings :=
  { demoSettings with triageResultHash := fun _ => String.ofList (List.replicate 64 'a') }

def baseProbe : ProbeSnapshot :=
  ⟨"tests/probe.py", String.ofList (List.replicate 40 'b'), "9f2c", 1, 0⟩

/-- The worker that has reproduced the defect dies before it creates the attempt; the next one
finds the run. -/
def reproducedSchedule : List (Choice Input Op Job) :=
  confirmedSchedule ++ .env (.tick 100) :: .spawn 7 (.iterate 0 5) ::
    actions 7 14 { smooth with registry := .probe baseProbe, probe := { exitCode := some 1 } } ++
  [.kill 7, .env (.tick 100), .spawn 8 (.iterate 0 5)] ++ actions 8 13 smooth

/-- What the demonstration shows of a store. -/
def evidenceView (s : Store) : List Nat × List (Option Nat) × Option (Bool × Bool) × Bool :=
  (s.history.posts, s.core.executions.map (·.attemptId),
    s.core.attempts[1]?.map (fun a =>
      (decide (a.kind = .remediation), decide (a.probeStatus = .verified))),
    s.history.incident .crowded)

theorem own_run_of_reachable_demo : ∃ c, Reachable hashedSettings c ∧
    c.store.history.posts = [0, 1] ∧ c.store.core.executions.map (·.attemptId) = [some 1] ∧
    ∃ a, c.store.core.attempts[1]? = some a ∧ OwnRun c.store.core 1 a := by
  obtain ⟨c, hc, hview⟩ := reachable_of_runSchedule hashedSettings reproducedSchedule evidenceView
    ([0, 1], [some 1], some (true, true), false) (by decide +kernel)
  obtain ⟨hposts, hview⟩ := Prod.mk.inj hview
  obtain ⟨hruns, hview⟩ := Prod.mk.inj hview
  obtain ⟨hattempt, hcrowded⟩ := Prod.mk.inj hview
  have halone : c.store.alone := by
    rintro ⟨k, hk, hhit⟩
    rw [List.mem_singleton.mp hk, hcrowded] at hhit
    cases hhit
  obtain ⟨a, ha, hneeds⟩ := Option.map_eq_some_iff.mp hattempt
  obtain ⟨hkind, hstatus⟩ := Prod.mk.inj hneeds
  exact ⟨c, hc, hposts, hruns, a, ha, (own_run_of_reachable hc halone).1 1 a ha
    ⟨of_decide_eq_true hkind, of_decide_eq_true hstatus⟩⟩

end Remediator
