import Remediator.Effects
import Remediator.Runs
import Remediator.Worker.Reconcile

set_option autoImplicit false

/-! # The poll loop with its sleeps

An operation takes any time, and a sleep takes at least its interval. The loop looks at the clock
before every wait, so it waits no more once the deadline has passed: with a positive interval it
ends, by the final `GET` and `DELETE` at the latest.
-/

namespace Remediator

open Interleave

/-! ## Time -/

/-- The operations do what `Op.apply` says, with a clock of their own: it never goes back, and a
sleep takes at least as long as it asks for. -/
structure Clocked (apply : Op → Store → Store) : Prop where
  same : ∀ op s, { apply op s with now := (op.apply s).now } = op.apply s
  forward : ∀ op s, s.now ≤ (apply op s).now
  sleeps : ∀ n s, s.now + n ≤ (apply (.tick n) s).now

/-- `self.sleep(seconds)`. -/
def sleep (seconds : Nat) : P Unit := .act (fun _ _ => .tick seconds) (fun _ _ => .ret ())

/-- `_poll` with its sleeps, followed for at most `n` rounds. -/
def Runner.pollWaiting (r : Runner) (sid : SessionId) : Nat → CaseState → AttemptObj →
    P (CaseState × RunOutcome)
  | 0, _, _ => throw .halt
  | n + 1, _, a => do
      match ← r.pollCheck a with
      | .cancel st a => r.handleTimeout st a sid
      | .expired st => r.handleTimeout st a sid
      | .goOn st =>
          match ← getSession sid .settle with
          | .notFound => r.fail st a
          | .error =>
              let a ← r.recordPoll a .reconciling (some .other)
              sleep r.cfg.devinPollIntervalSeconds
              r.pollWaiting sid n st a
          | .snapshot snap =>
              match (Devin.disposition snap).disposition with
              | .unknown =>
                  let a ← r.recordPoll a .reconciling (some .other)
                  sleep r.cfg.devinPollIntervalSeconds
                  r.pollWaiting sid n st a
              | .live =>
                  let a ← r.recordPoll a .running none
                  sleep r.cfg.devinPollIntervalSeconds
                  r.pollWaiting sid n st a
              | d =>
                  let a ← r.recordPoll a .running none
                  r.settle st a snap d

/-- `startPoll` with the sleeps of its loop. -/
def Runner.startPollWaiting (r : Runner) (n : Nat) (st : CaseState) (a : AttemptObj) :
    P (CaseState × RunOutcome) := do
  match a.row.devinSessionId with
  | none => throw .other
  | some sid =>
      let a ← if a.row.timeoutAt.isSome then pure a
        else tx r.owner (fun _ _ =>
          let row := { a.row with timeoutAt := some (a.row.startedAt + r.timeoutSeconds a.row.kind) }
          .ok ({ r.txn with writes := [a.write row] }, (⟨a.id, row⟩ : AttemptObj)))
      r.pollWaiting sid n st a

/-- `_poll` ends: from some number of rounds on, no run of it is cut off. -/
def PollTerminates (apply : Op → Store → Store) (R : Store → Store → Prop) (r : Runner)
    (st : CaseState) (a : AttemptObj) (s : Store) : Prop :=
  ∃ N, ∀ n, N ≤ n → ∀ l res s',
    (r.startPollWaiting n st a).Runs apply R s l res s' → res ≠ .error .halt

/-! ## The rounds of the loop -/

/-- The session of the answer is not known to have ended. -/
def GetResult.Survives (answer : GetResult) : Prop :=
  answer = .error ∨ ∃ snap, answer = .snapshot snap ∧
    ¬ (Devin.disposition snap).disposition.final ∧ (Devin.disposition snap).remoteTerminal = false

/-- The action waits. -/
def Waits (step : PollStep) : Prop := ∃ n, step.op = .tick n

/-- The final `GET`, and a `DELETE` unless it found the session ended; there is no wait. -/
structure FinalPath (sid : SessionId) (steps : List PollStep) : Prop where
  stays : ∀ step ∈ steps, ¬ Waits step
  final : ∃ read rest, steps = read :: rest ∧ ∃ answer, read.op = .get sid .settle answer ∧
    (read.answer.fault = none → answer.Survives →
      ∃ deletion rest' result, rest = deletion :: rest' ∧ deletion.op = .delete sid result)

/-- The check sees the deadline passed, or a cancel. -/
def Due (deadline : Nat) (check : PollStep) : Prop :=
  deadline ≤ check.store.now ∨ check.store.case.state.terminating = true

/-- The actions of a run of the loop, one iteration after the other. An iteration that starts when
it is due goes the final path; one that waits started before the deadline, and waits at its end. -/
inductive Iterates (sid : SessionId) (deadline interval : Nat) : List PollStep → Prop
  | cut : Iterates sid deadline interval []
  | broken {check : PollStep} : check.op = .skip → Iterates sid deadline interval [check]
  | due {check : PollStep} {rest : List PollStep} : Due deadline check → FinalPath sid rest →
      Iterates sid deadline interval (check :: rest)
  | ended {check : PollStep} {rest : List PollStep} : ¬ Due deadline check →
      (∀ step ∈ rest, ¬ Waits step) → Iterates sid deadline interval (check :: rest)
  | waited {check read record wait : PollStep} {rest : List PollStep} : ¬ Due deadline check →
      (∃ answer, read.op = .get sid .settle answer) → (∀ n, record.op ≠ .tick n) →
      wait.op = .tick interval → Iterates sid deadline interval rest →
      Iterates sid deadline interval (check :: read :: record :: wait :: rest)

/-! ## Programs that do not wait -/

/-- The object is flushed without a new session or deadline. -/
def KeepsAnchor (w : Write Attempt) : Prop :=
  w.changed.devinSessionId = w.loaded.devinSessionId ∧ w.changed.timeoutAt = w.loaded.timeoutAt

instance (w : Write Attempt) : Decidable (KeepsAnchor w) := inferInstanceAs (Decidable (_ ∧ _))

/-- The operation gives no attempt a new session or deadline. -/
def Op.keepsAnchors : Op → Bool
  | .commit _ t => t.writes.all (fun w => decide (KeepsAnchor w))
  | _ => true

theorem keepsAnchors_commit {o : Owner} {t : Txn} :
    (Op.commit o t).keepsAnchors = true ↔ ∀ w ∈ t.writes, KeepsAnchor w := by
  show t.writes.all _ = true ↔ _
  simp

/-- No action of the program waits or gives an attempt a new session or deadline, and it is never
cut off. -/
abbrev Prompt {α : Type} (p : P α) : Prop :=
  p.Each (fun _ op => (∀ n, op ≠ .tick n) ∧ op.keepsAnchors = true) (fun _ => True)
    (fun e => e ≠ .halt)

theorem failCase_keepsAnchors {claim : Option Owner} {st : CaseState} {t : Txn} {s : Store}
    (h : ∀ w ∈ t.writes, KeepsAnchor w) :
    ∀ w ∈ (failCase claim st t s).1.writes, KeepsAnchor w := by
  have hpark : ∀ as, ∀ w ∈ parkWrites as, KeepsAnchor w := by
    intro as w hw
    unfold parkWrites attemptWrites at hw
    obtain ⟨a, -, rfl⟩ := List.mem_map.mp hw
    exact ⟨rfl, rfl⟩
  unfold failCase
  intro w hw
  dsimp only at hw
  split at hw
  · exact h w hw
  · split at hw
    · exact h w hw
    · split at hw
      · rcases List.mem_append.mp hw with hw | hw
        · exact h w hw
        · exact hpark _ w hw
      · rcases List.mem_append.mp hw with hw | hw
        · exact h w hw
        · exact hpark _ w hw

section Prompt

variable {α β : Type}

theorem outcome_ne_halt {body : Input → Store → Except Err (Txn × α)} {i : Input} {s : Store}
    {e : Err} (hbody : ∀ i s e, body i s = .error e → e ≠ .halt)
    (h : Txn.outcome body i s = .error e) : e ≠ .halt := by
  unfold Txn.outcome at h
  split at h
  · next f _ =>
      cases h
      cases f <;> decide
  · split at h
    · next e' he' =>
        cases h
        exact hbody _ _ _ he'
    · split at h
      · cases h
        decide
      · split at h
        · cases h
          decide
        · cases h

/-- A transaction whose body does not raise. -/
theorem Prompt.write {o : Owner} {body : Input → Store → Txn × α}
    (h : ∀ i s, ∀ w ∈ (body i s).1.writes, KeepsAnchor w) :
    Prompt (Remediator.tx o (fun i s => .ok (body i s))) := by
  refine each_tx (fun _ => ⟨fun n hn => (by cases hn), rfl⟩)
    (fun _ _ _ he => outcome_ne_halt (fun _ _ _ h => by cases h) he) ?_
  intro i s t a hbody _
  refine ⟨⟨fun n hn => (by cases hn), keepsAnchors_commit.mpr ?_⟩, trivial⟩
  rw [show t = (body i s).1 from congrArg Prod.fst (Except.ok.inj hbody).symm]
  exact h i s

/-- A transaction that flushes one object. -/
theorem Prompt.single {o : Owner} {body : Input → Store → Txn × α} {w : Input → Store → Write Attempt}
    (hbody : ∀ i s, (body i s).1.writes = [w i s]) (h : ∀ i s, KeepsAnchor (w i s)) :
    Prompt (Remediator.tx o (fun i s => .ok (body i s))) := by
  refine .write fun i s x hx => ?_
  rw [hbody i s, List.mem_singleton] at hx
  rw [hx]
  exact h i s

theorem Prompt.bind {p : P α} {k : α → P β} (hp : Prompt p) (hk : ∀ a, Prompt (k a)) :
    Prompt (p >>= k) :=
  Prog.Each.bind hp (fun a _ => hk a)

theorem Prompt.unlessFault (i : Input) (a : α) : Prompt (Remediator.unlessFault i a) := by
  unfold Remediator.unlessFault
  cases i.fault with
  | none => trivial
  | some f =>
      show f.err ≠ .halt
      cases f <;> decide

theorem Prompt.getSession (sid : SessionId) (purpose : GetPurpose) :
    Prompt (Remediator.getSession sid purpose) :=
  fun i _ => ⟨⟨fun n hn => (by cases hn), rfl⟩, Prompt.unlessFault i i.get⟩

theorem Prompt.terminateSession (sid : SessionId) : Prompt (Remediator.terminateSession sid) :=
  fun i _ => ⟨⟨fun n hn => (by cases hn), rfl⟩, Prompt.unlessFault i i.delete⟩

variable (r : Runner)

theorem fail_prompt (st : CaseState) (a : AttemptObj) : Prompt (r.fail st a) := by
  refine Prompt.write fun _ s => failCase_keepsAnchors fun w hw => ?_
  rw [List.mem_singleton.mp hw]
  exact ⟨rfl, rfl⟩

theorem markTerminated_prompt (st : CaseState) (a : AttemptObj) :
    Prompt (r.markTerminated st a) := by
  refine Prompt.single (w := fun _ s => _) (fun _ s => rfl) fun _ s => ⟨rfl, rfl⟩

theorem settle_prompt (st : CaseState) (a : AttemptObj) (snap : Devin.SessionSnapshot)
    (d : Devin.Disposition) : Prompt (r.settle st a snap d) := by
  cases d with
  | finished => exact Prompt.single (fun _ _ => rfl) fun _ _ => ⟨rfl, rfl⟩
  | waitingForHuman => exact Prompt.single (fun _ _ => rfl) fun _ _ => ⟨rfl, rfl⟩
  | live => exact fail_prompt r st a
  | failed => exact fail_prompt r st a
  | unknown => exact fail_prompt r st a

theorem recordPoll_prompt (a : AttemptObj) (status : AttemptStatus) (reason : Option Reason) :
    Prompt (r.recordPoll a status reason) :=
  Prompt.single (fun _ _ => rfl) fun _ _ => ⟨rfl, rfl⟩

theorem rerun_prompt (a : AttemptObj) : Prompt (r.rerun a) :=
  Prompt.single (fun _ _ => rfl) fun _ _ => ⟨rfl, rfl⟩

theorem terminate_prompt (st : CaseState) (a : AttemptObj) (sid : SessionId) :
    Prompt (r.terminate st a sid) := by
  refine Prompt.bind (.terminateSession sid) fun result => ?_
  split
  · exact Prompt.single (fun _ _ => rfl) fun _ _ => ⟨rfl, rfl⟩
  · exact markTerminated_prompt r st a

theorem handleTimeout_prompt (st : CaseState) (a : AttemptObj) (sid : SessionId) :
    Prompt (r.handleTimeout st a sid) := by
  refine Prompt.bind (.getSession sid .settle) fun got => ?_
  split
  · exact markTerminated_prompt r st a
  · exact terminate_prompt r st a sid
  · next snap =>
      dsimp only
      generalize Devin.disposition snap = mapping
      split
      · split
        · exact markTerminated_prompt r st a
        · exact Prompt.bind (rerun_prompt r a) fun a => settle_prompt r st a snap _
      · exact Prompt.bind (rerun_prompt r a) fun a => settle_prompt r st a snap _
      · exact Prompt.bind (rerun_prompt r a) fun a => settle_prompt r st a snap _
      · split
        · exact markTerminated_prompt r st a
        · exact terminate_prompt r st a sid

end Prompt

/-! ## One iteration -/

section Iteration

variable {apply : Op → Store → Store} {R : Store → Store → Prop} {α : Type}

theorem prompt_stays {p : P α} {s s' : Store} {l : List (Input × Store)} {res : Except Err α}
    (hp : Prompt p) (h : p.Runs apply R s l res s') : ∀ step ∈ p.steps l, ¬ Waits step := by
  intro step hstep hwaits
  obtain ⟨n, hn⟩ := hwaits
  exact (h.each_steps hp step hstep).1 n hn

theorem prompt_ne_halt {p : P α} {s s' : Store} {l : List (Input × Store)} {res : Except Err α}
    (hp : Prompt p) (h : p.Runs apply R s l res s') : res ≠ .error .halt := by
  rintro rfl
  exact h.each_error hp rfl

variable (r : Runner)

theorem terminate_steps {st : CaseState} {a : AttemptObj} {sid : SessionId} {s s' : Store}
    {l : List (Input × Store)} {res : Except Err (CaseState × RunOutcome)}
    (h : (r.terminate st a sid).Runs apply R s l res s') :
    ∃ deletion rest result, (r.terminate st a sid).steps l = deletion :: rest ∧
      deletion.op = .delete sid result := by
  obtain ⟨i, s₁, l', -, rfl, -⟩ := Prog.Runs.act_inv h
  exact ⟨⟨i, s₁, .delete sid i.delete⟩, _, _, rfl, rfl⟩

/-- The rest of `_handle_timeout`, after its read. -/
def Runner.afterFinal (st : CaseState) (a : AttemptObj) (sid : SessionId) :
    GetResult → P (CaseState × RunOutcome)
  | .notFound => r.markTerminated st a
  | .error => r.terminate st a sid
  | .snapshot snap =>
      match (Devin.disposition snap).disposition with
      | .failed =>
          if st = (phaseForKind a.row.kind).terminationPending then r.markTerminated st a
          else r.rerun a >>= fun a => r.settle st a snap .failed
      | .finished => r.rerun a >>= fun a => r.settle st a snap .finished
      | .waitingForHuman => r.rerun a >>= fun a => r.settle st a snap .waitingForHuman
      | _ =>
          if (Devin.disposition snap).remoteTerminal then r.markTerminated st a
          else r.terminate st a sid

theorem handleTimeout_eq (st : CaseState) (a : AttemptObj) (sid : SessionId) :
    r.handleTimeout st a sid = getSession sid .settle >>= r.afterFinal st a sid := by
  unfold Runner.handleTimeout
  refine congrArg (getSession sid .settle).bind (funext fun got => ?_)
  cases got with
  | notFound => rfl
  | error => rfl
  | snapshot snap =>
      unfold Runner.afterFinal
      cases hd : (Devin.disposition snap).disposition <;> simp only [hd]

/-- **The final path**: one more `GET`, and a `DELETE` unless the session is found ended. -/
theorem handleTimeout_steps {st : CaseState} {a : AttemptObj} {sid : SessionId} {s s' : Store}
    {l : List (Input × Store)} {res : Except Err (CaseState × RunOutcome)}
    (h : (r.handleTimeout st a sid).Runs apply R s l res s') :
    FinalPath sid ((r.handleTimeout st a sid).steps l) := by
  refine ⟨prompt_stays (handleTimeout_prompt r st a sid) h, ?_⟩
  rw [handleTimeout_eq] at h ⊢
  rcases Prog.Runs.bind_inv h with ⟨e, rfl, hget⟩ | ⟨got, s₁, l₁, l₂, rfl, hget, hrest⟩
  · obtain ⟨i, s₂, hone, hgot⟩ := getSession_step hget
    rw [Prog.bind_eq, hget.steps_bind_error, hone]
    refine ⟨_, _, rfl, _, rfl, fun hfault _ => ?_⟩
    rcases hgot with ⟨-, hres⟩ | ⟨f, hf, -⟩
    · cases hres
    · rw [hfault] at hf
      cases hf
  · obtain ⟨i, s₂, hone, hgot⟩ := getSession_step hget
    have hgot : got = i.get := by
      rcases hgot with ⟨-, hres⟩ | ⟨f, -, hres⟩
      · cases hres
        rfl
      · cases hres
    subst hgot
    rw [Prog.bind_eq, hget.steps_bind, hone]
    refine ⟨_, _, rfl, _, rfl, fun _ hsurvives => ?_⟩
    rcases hsurvives with herror | ⟨snap, hsnap, hfinal, hterminal⟩
    · rw [herror] at hrest ⊢
      exact terminate_steps r hrest
    · rw [hsnap] at hrest ⊢
      unfold Runner.afterFinal at hrest ⊢
      cases hmapping : Devin.disposition snap with
      | mk d terminal =>
      simp only [hmapping] at hrest hfinal hterminal ⊢
      subst hterminal
      cases d with
      | live => exact terminate_steps r hrest
      | unknown => exact terminate_steps r hrest
      | finished => exact absurd (Or.inr (Or.inl rfl)) hfinal
      | waitingForHuman => exact absurd (Or.inr (Or.inr rfl)) hfinal
      | failed => exact absurd (Or.inl rfl) hfinal

/-- The check fails, sees that it is due, or goes on. -/
theorem pollCheck_steps {a : AttemptObj} {deadline : Nat} (hdeadline : a.row.timeoutAt = some deadline)
    {s s' : Store} {l : List (Input × Store)} {res : Except Err PollCheck}
    (h : (r.pollCheck a).Runs apply R s l res s') :
    ∃ check, (r.pollCheck a).steps l = [check] ∧ R s check.store ∧
      s' = apply check.op check.store ∧
      (check.op = .skip ∧ (∃ e, res = .error e ∧ e ≠ .halt) ∨
        Due deadline check ∧ (∃ st a', res = .ok (.cancel st a') ∨ res = .ok (.expired st)) ∨
        ¬ Due deadline check ∧ ∃ st, res = .ok (.goOn st)) := by
  obtain ⟨i, s₁, hR, rfl, hout⟩ := runs_tx h
  have hsteps : (r.pollCheck a).steps [(i, s₁)] = [_] := congrArg (List.cons _) (Prog.steps_nil _)
  refine ⟨_, hsteps, hR, ?_⟩
  dsimp only [id]
  cases hx : Txn.outcome (fun _ s =>
    let st := s.case.state
    if st = .terminationPending ∨ st = .remediationTerminationPending then
      let row := { a.row with
        status := .terminationPending, reconciliationReason := some .cancelRequested }
      .ok ({ r.txn with writes := [a.write row] }, PollCheck.cancel st ⟨a.id, row⟩)
    else if a.row.timeoutAt.any (fun t => decide (t ≤ s.now)) then .ok ({}, .expired st)
    else .ok ({}, .goOn st)) i s₁ with
  | error e =>
      rw [hx] at hout
      refine ⟨hout.2, Or.inl ⟨rfl, e, hout.1, ?_⟩⟩
      refine outcome_ne_halt (fun i s e he => ?_) hx
      dsimp only at he
      split at he
      · cases he
      · split at he <;> cases he
  | ok x =>
      obtain ⟨t, check⟩ := x
      rw [hx] at hout
      refine ⟨hout.2, Or.inr ?_⟩
      have hbody := (outcome_ok hx).1
      dsimp only at hbody
      by_cases hcancel : s₁.case.state = .terminationPending ∨
          s₁.case.state = .remediationTerminationPending
      · rw [if_pos hcancel] at hbody
        cases hbody
        exact Or.inl ⟨Or.inr ((terminating_iff _).mpr hcancel), _, _, Or.inl hout.1⟩
      · rw [if_neg hcancel, hdeadline] at hbody
        by_cases hpassed : deadline ≤ s₁.now
        · rw [if_pos (by simpa using hpassed)] at hbody
          cases hbody
          exact Or.inl ⟨Or.inl hpassed, _, a, Or.inr hout.1⟩
        · rw [if_neg (by simpa using hpassed)] at hbody
          cases hbody
          refine Or.inr ⟨?_, _, hout.1⟩
          rintro (hdue | hdue)
          · exact hpassed hdue
          · exact hcancel ((terminating_iff _).mp hdue)

/-- Time goes on in a run. -/
theorem runs_forward (hclock : Clocked apply) (hR : ∀ s s', R s s' → s.now ≤ s'.now) {p : P α}
    {s s' : Store} {l : List (Input × Store)} {res : Except Err α}
    (h : p.Runs apply R s l res s') : s.now ≤ s'.now := by
  induction p generalizing s l with
  | ret a =>
      obtain ⟨-, -, rfl⟩ := h.ret_inv
      exact Nat.le_refl _
  | raise e =>
      obtain ⟨-, -, rfl⟩ := h.raise_inv
      exact Nat.le_refl _
  | act op next ih =>
      obtain ⟨i, s₁, l', hfirst, -, hn⟩ := h.act_inv
      calc s.now ≤ s₁.now := hR _ _ hfirst
        _ ≤ (apply (op i s₁) s₁).now := hclock.forward _ _
        _ ≤ s'.now := ih i s₁ hn

/-- The end of a round that goes on: the read is recorded, and the loop sleeps. -/
theorem recordPoll_wait (hclock : Clocked apply) (hR : ∀ s s', R s s' → s.now ≤ s'.now)
    {a : AttemptObj} {status : AttemptStatus} {reason : Option Reason} {interval : Nat}
    {next : AttemptObj → P α} {s s' : Store} {l : List (Input × Store)} {res : Except Err α}
    (h : (r.recordPoll a status reason >>= fun a => sleep interval >>= fun _ => next a).Runs apply R
      s l res s') :
    (res ≠ .error .halt ∧ ∀ step ∈ (r.recordPoll a status reason >>= fun a =>
        sleep interval >>= fun _ => next a).steps l, ¬ Waits step) ∨
    ∃ record wait a' s₁ l', (r.recordPoll a status reason >>= fun a =>
        sleep interval >>= fun _ => next a).steps l = record :: wait :: (next a').steps l' ∧
      (∀ n, record.op ≠ .tick n) ∧ wait.op = .tick interval ∧
      a'.row.timeoutAt = a.row.timeoutAt ∧ s.now + interval ≤ s₁.now ∧
      (next a').Runs apply R s₁ l' res s' := by
  rcases Prog.Runs.bind_inv h with ⟨e, rfl, hrecord⟩ | ⟨a', s₁, l₁, l₂, rfl, hrecord, hrest⟩
  · refine Or.inl ⟨?_, ?_⟩
    · intro hhalt
      cases hhalt
      exact prompt_ne_halt (recordPoll_prompt r a status reason) hrecord rfl
    · rw [Prog.bind_eq, hrecord.steps_bind_error]
      exact prompt_stays (recordPoll_prompt r a status reason) hrecord
  · obtain ⟨i, s₂, l₃, hfirst, rfl, hnext⟩ := Prog.Runs.act_inv hrest
    have hrecorded := runs_forward hclock hR hrecord
    obtain ⟨i', s₃, t, hbody, hone⟩ := tx_step hrecord
    have htimeout : a'.row.timeoutAt = a.row.timeoutAt := by
      cases hbody
      rfl
    refine Or.inr ⟨⟨i', s₃, .commit r.owner t⟩, ⟨i, s₂, .tick interval⟩, a', _, l₃, ?_,
      (fun n hn => by cases hn), rfl, htimeout, ?_, hnext⟩
    · have hone' : (r.recordPoll a status reason).steps l₁ = [⟨i', s₃, .commit r.owner t⟩] := hone
      rw [Prog.bind_eq, hrecord.steps_bind, hone']
      rfl
    · calc s.now + interval ≤ s₁.now + interval := Nat.add_le_add_right hrecorded _
        _ ≤ s₂.now + interval := Nat.add_le_add_right (hR _ _ hfirst) _
        _ ≤ (apply (.tick interval) s₂).now := hclock.sleeps interval s₂

/-! ## The loop -/

/-- The rest of an iteration, after the read. -/
def Runner.afterReadWaiting (sid : SessionId) (n : Nat) (st : CaseState) (a : AttemptObj) :
    GetResult → P (CaseState × RunOutcome)
  | .notFound => r.fail st a
  | .error =>
      r.recordPoll a .reconciling (some .other) >>= fun a =>
        sleep r.cfg.devinPollIntervalSeconds >>= fun _ => r.pollWaiting sid n st a
  | .snapshot snap =>
      match (Devin.disposition snap).disposition with
      | .unknown =>
          r.recordPoll a .reconciling (some .other) >>= fun a =>
            sleep r.cfg.devinPollIntervalSeconds >>= fun _ => r.pollWaiting sid n st a
      | .live =>
          r.recordPoll a .running none >>= fun a =>
            sleep r.cfg.devinPollIntervalSeconds >>= fun _ => r.pollWaiting sid n st a
      | d => r.recordPoll a .running none >>= fun a => r.settle st a snap d

/-- The rest of an iteration, after its check. -/
def Runner.afterCheckWaiting (sid : SessionId) (n : Nat) (a : AttemptObj) :
    PollCheck → P (CaseState × RunOutcome)
  | .cancel st a => r.handleTimeout st a sid
  | .expired st => r.handleTimeout st a sid
  | .goOn st => getSession sid .settle >>= r.afterReadWaiting sid n st a

theorem pollWaiting_succ (sid : SessionId) (n : Nat) (st : CaseState) (a : AttemptObj) :
    r.pollWaiting sid (n + 1) st a = r.pollCheck a >>= r.afterCheckWaiting sid n a := by
  conv_lhs => unfold Runner.pollWaiting
  refine congrArg (r.pollCheck a).bind (funext fun check => ?_)
  cases check with
  | cancel st a => rfl
  | expired st => rfl
  | goOn st =>
      refine congrArg (getSession sid .settle).bind (funext fun got => ?_)
      cases got with
      | notFound => rfl
      | error => rfl
      | snapshot snap =>
          -- the classification stays folded
          unfold Runner.afterReadWaiting
          dsimp only

theorem afterCheckWaiting_cancel (sid : SessionId) (n : Nat) (st : CaseState) (a a' : AttemptObj) :
    r.afterCheckWaiting sid n a (.cancel st a') = r.handleTimeout st a' sid := rfl

theorem afterCheckWaiting_expired (sid : SessionId) (n : Nat) (st : CaseState) (a : AttemptObj) :
    r.afterCheckWaiting sid n a (.expired st) = r.handleTimeout st a sid := rfl

theorem afterCheckWaiting_goOn (sid : SessionId) (n : Nat) (st : CaseState) (a : AttemptObj) :
    r.afterCheckWaiting sid n a (.goOn st)
      = (getSession sid .settle).bind (r.afterReadWaiting sid n st a) := rfl

/-- What the loop lemma says of `n` rounds of an attempt with a deadline. -/
def LoopRuns (apply : Op → Store → Store) (R : Store → Store → Prop) (sid : SessionId)
    (deadline n : Nat) : Prop :=
  ∀ {st : CaseState} {a : AttemptObj} {s s' : Store} {l : List (Input × Store)}
    {res : Except Err (CaseState × RunOutcome)}, a.row.timeoutAt = some deadline →
    (r.pollWaiting sid n st a).Runs apply R s l res s' →
    Iterates sid deadline r.cfg.devinPollIntervalSeconds ((r.pollWaiting sid n st a).steps l) ∧
      (res = .error .halt → n = 0 ∨ s.now + (n - 1) * r.cfg.devinPollIntervalSeconds < deadline)

/-- The rest of an iteration that is not due. -/
structure RestOf (sid : SessionId) (deadline n interval : Nat) (check : PollStep)
    (rest : List PollStep) (res : Except Err (CaseState × RunOutcome)) : Prop where
  iterates : Iterates sid deadline interval (check :: rest)
  halts : res = .error .halt → check.store.now + n * interval < deadline

theorem afterRead_rest (hclock : Clocked apply) (hR : ∀ s s', R s s' → s.now ≤ s'.now)
    {sid : SessionId} {deadline n : Nat} (ih : LoopRuns r apply R sid deadline n)
    {st : CaseState} {a : AttemptObj} (hdeadline : a.row.timeoutAt = some deadline)
    {check read : PollStep} (hdue : ¬ Due deadline check)
    (hread : ∃ answer, read.op = .get sid .settle answer) {got : GetResult} {s s' : Store}
    {l : List (Input × Store)} {res : Except Err (CaseState × RunOutcome)}
    (hlater : check.store.now ≤ s.now)
    (h : (r.afterReadWaiting sid n st a got).Runs apply R s l res s') :
    RestOf sid deadline n r.cfg.devinPollIntervalSeconds check
      (read :: (r.afterReadWaiting sid n st a got).steps l) res := by
  have hstays : ¬ Waits read := by
    obtain ⟨answer, hop⟩ := hread
    rintro ⟨m, hm⟩
    rw [hop] at hm
    cases hm
  -- an iteration whose rest does not wait
  have hended : ∀ {p : P (CaseState × RunOutcome)}, Prompt p → p.Runs apply R s l res s' →
      RestOf sid deadline n r.cfg.devinPollIntervalSeconds check (read :: p.steps l) res := by
    intro p hp hrun
    refine ⟨.ended hdue ?_, fun hhalt => absurd hhalt (prompt_ne_halt hp hrun)⟩
    intro step hstep
    rcases List.mem_cons.mp hstep with rfl | hstep
    · exact hstays
    · exact prompt_stays hp hrun step hstep
  -- an iteration that sleeps and goes on
  have hwaited : ∀ {status : AttemptStatus} {reason : Option Reason},
      (r.recordPoll a status reason >>= fun a => sleep r.cfg.devinPollIntervalSeconds >>= fun _ =>
        r.pollWaiting sid n st a).Runs apply R s l res s' →
      RestOf sid deadline n r.cfg.devinPollIntervalSeconds check
        (read :: (r.recordPoll a status reason >>= fun a =>
          sleep r.cfg.devinPollIntervalSeconds >>= fun _ => r.pollWaiting sid n st a).steps l)
        res := by
    intro status reason hrun
    rcases recordPoll_wait r hclock hR hrun with ⟨hne, hnone⟩ |
      ⟨record, wait, a', s₁, l', hsteps, hrecord, hwait, htimeout, htime, hnext⟩
    · refine ⟨.ended hdue ?_, fun hhalt => absurd hhalt hne⟩
      intro step hstep
      rcases List.mem_cons.mp hstep with rfl | hstep
      · exact hstays
      · exact hnone step hstep
    · obtain ⟨hiterates, hhalts⟩ := ih (htimeout.trans hdeadline) hnext
      rw [hsteps]
      refine ⟨.waited hdue hread hrecord hwait hiterates, fun hhalt => ?_⟩
      have hahead : check.store.now < deadline := by
        by_contra hge
        exact hdue (Or.inl (not_lt.mp hge))
      cases n with
      | zero => simpa using hahead
      | succ m =>
          have hlt : s₁.now + m * r.cfg.devinPollIntervalSeconds < deadline := by
            rcases hhalts hhalt with h0 | hlt
            · cases h0
            · simpa using hlt
          calc check.store.now + (m + 1) * r.cfg.devinPollIntervalSeconds
              = check.store.now + r.cfg.devinPollIntervalSeconds
                + m * r.cfg.devinPollIntervalSeconds := by rw [Nat.succ_mul]; omega
            _ ≤ s₁.now + m * r.cfg.devinPollIntervalSeconds := by omega
            _ < deadline := hlt
  unfold Runner.afterReadWaiting at h ⊢
  cases got with
  | notFound => exact hended (fail_prompt r st a) h
  | error => exact hwaited h
  | snapshot snap =>
      dsimp only at h ⊢
      cases hd : (Devin.disposition snap).disposition with
      | unknown =>
          simp only [hd] at h ⊢
          exact hwaited h
      | live =>
          simp only [hd] at h ⊢
          exact hwaited h
      | finished =>
          simp only [hd] at h ⊢
          exact hended (Prompt.bind (recordPoll_prompt r a _ _) fun _ => settle_prompt r st _ _ _) h
      | waitingForHuman =>
          simp only [hd] at h ⊢
          exact hended (Prompt.bind (recordPoll_prompt r a _ _) fun _ => settle_prompt r st _ _ _) h
      | failed =>
          simp only [hd] at h ⊢
          exact hended (Prompt.bind (recordPoll_prompt r a _ _) fun _ => settle_prompt r st _ _ _) h

/-- **The loop, iteration by iteration**: it waits only while the deadline is ahead, so it is cut
off only after fewer rounds than fit before it. -/
theorem pollWaiting_iterates (hclock : Clocked apply) (hR : ∀ s s', R s s' → s.now ≤ s'.now)
    (sid : SessionId) (deadline n : Nat) : LoopRuns r apply R sid deadline n := by
  induction n with
  | zero =>
      intro st a s s' l res _ h
      obtain ⟨rfl, -, -⟩ := h.raise_inv
      exact ⟨.cut, fun _ => Or.inl rfl⟩
  | succ n ih =>
      intro st a s s' l res hdeadline h
      rw [pollWaiting_succ] at h ⊢
      rcases Prog.Runs.bind_inv h with ⟨e, rfl, hcheck⟩ | ⟨found, s₁, l₁, l₂, rfl, hcheck, hrest⟩
      · obtain ⟨check, hone, -, -, hcases⟩ := pollCheck_steps r hdeadline hcheck
        rw [Prog.bind_eq, hcheck.steps_bind_error, hone]
        rcases hcases with ⟨hskip, e', he, hne⟩ | ⟨-, st', a', hres | hres⟩ | ⟨-, st', hres⟩
        · refine ⟨.broken hskip, fun hhalt => ?_⟩
          cases he
          cases hhalt
          exact absurd rfl hne
        · cases hres
        · cases hres
        · cases hres
      · obtain ⟨check, hone, hfirst, hs₁, hcases⟩ := pollCheck_steps r hdeadline hcheck
        rw [Prog.bind_eq, hcheck.steps_bind, hone, List.singleton_append]
        rcases hcases with ⟨-, e', he, -⟩ | ⟨hdue, st', a', hres | hres⟩ | ⟨hdue, st', hres⟩
        · cases he
        · cases hres
          rw [afterCheckWaiting_cancel] at hrest ⊢
          exact ⟨.due hdue (handleTimeout_steps r hrest),
            fun hhalt => absurd hhalt (prompt_ne_halt (handleTimeout_prompt r _ _ _) hrest)⟩
        · cases hres
          rw [afterCheckWaiting_expired] at hrest ⊢
          exact ⟨.due hdue (handleTimeout_steps r hrest),
            fun hhalt => absurd hhalt (prompt_ne_halt (handleTimeout_prompt r _ _ _) hrest)⟩
        · cases hres
          rw [afterCheckWaiting_goOn] at hrest ⊢
          rcases Prog.Runs.bind_inv hrest with ⟨e, rfl, hget⟩ |
            ⟨got, s₂, l₃, l₄, rfl, hget, hlast⟩
          · rw [hget.steps_bind_error]
            refine ⟨.ended hdue (prompt_stays (Prompt.getSession sid .settle) hget),
              fun hhalt => ?_⟩
            cases hhalt
            exact absurd rfl (prompt_ne_halt (Prompt.getSession sid .settle) hget)
          · obtain ⟨i, s₃, hread, -⟩ := getSession_step hget
            rw [hget.steps_bind, hread, List.singleton_append]
            have hlater : check.store.now ≤ s₂.now := by
              calc check.store.now ≤ (apply check.op check.store).now := hclock.forward _ _
                _ = s₁.now := by rw [hs₁]
                _ ≤ s₂.now := runs_forward hclock hR hget
            have hop : ∃ answer, (⟨i, s₃, .get sid .settle i.get⟩ : PollStep).op =
                .get sid .settle answer := ⟨_, rfl⟩
            obtain ⟨hiterates, hhalts⟩ := afterRead_rest r hclock hR ih hdeadline hdue
              hop hlater hlast
            refine ⟨hiterates, fun hhalt => Or.inr ?_⟩
            calc s.now + (n + 1 - 1) * r.cfg.devinPollIntervalSeconds
                ≤ check.store.now + n * r.cfg.devinPollIntervalSeconds :=
                  Nat.add_le_add_right (hR _ _ hfirst) _
              _ < deadline := hhalts hhalt

/-- With a positive interval, the rounds of the loop take it past the deadline. -/
theorem pollWaiting_ne_halt (hclock : Clocked apply) (hR : ∀ s s', R s s' → s.now ≤ s'.now)
    (hinterval : 0 < r.cfg.devinPollIntervalSeconds) {sid : SessionId} {deadline n : Nat}
    (hn : deadline < n) {st : CaseState} {a : AttemptObj}
    (hdeadline : a.row.timeoutAt = some deadline) {s s' : Store} {l : List (Input × Store)}
    {res : Except Err (CaseState × RunOutcome)}
    (h : (r.pollWaiting sid n st a).Runs apply R s l res s') : res ≠ .error .halt := by
  intro hhalt
  rcases (pollWaiting_iterates r hclock hR sid deadline n hdeadline h).2 hhalt with rfl | hlt
  · omega
  · have hrounds : n - 1 ≤ (n - 1) * r.cfg.devinPollIntervalSeconds :=
      Nat.le_mul_of_pos_right _ hinterval
    omega

/-- **`_poll` ends**, whatever the service answers and whatever happens to the case. -/
theorem startPollWaiting_terminates (hclock : Clocked apply)
    (hR : ∀ s s', R s s' → s.now ≤ s'.now) (hinterval : 0 < r.cfg.devinPollIntervalSeconds)
    (st : CaseState) (a : AttemptObj) (s : Store) : PollTerminates apply R r st a s := by
  refine ⟨a.row.timeoutAt.getD (a.row.startedAt + r.timeoutSeconds a.row.kind) + 1, ?_⟩
  intro n hn l res s' h
  unfold Runner.startPollWaiting at h
  cases hsid : a.row.devinSessionId with
  | none =>
      rw [hsid] at h
      obtain ⟨-, rfl, -⟩ := h.raise_inv
      intro hhalt
      cases hhalt
  | some sid =>
      rw [hsid] at h
      cases hdeadline : a.row.timeoutAt with
      | some deadline =>
          rw [hdeadline] at h hn
          exact pollWaiting_ne_halt r hclock hR hinterval hn hdeadline h
      | none =>
          rw [hdeadline] at h hn
          rcases Prog.Runs.bind_inv h with ⟨e, rfl, hset⟩ | ⟨a', s₁, l₁, l₂, rfl, hset, hloop⟩
          · intro hhalt
            cases hhalt
            exact hset.each_error (each_tx (A := fun _ _ => True) (Q := fun _ => True)
              (E := fun e => e ≠ .halt) (fun _ => trivial)
              (fun _ _ _ he => outcome_ne_halt (fun _ _ _ h => by cases h) he)
              (fun _ _ _ _ _ _ => ⟨trivial, trivial⟩)) rfl
          · obtain ⟨i, s₂, t, hbody, -⟩ := tx_step hset
            cases hbody
            exact pollWaiting_ne_halt r hclock hR hinterval hn rfl hloop

/-! ## The loop without its sleeps -/

/-- `q` is `p` without the waits. -/
inductive Unhurried : P α → P α → Prop
  | ret (a : α) : Unhurried (.ret a) (.ret a)
  | raise (e : Err) : Unhurried (.raise e) (.raise e)
  | act {op : Input → Store → Op} {next next' : Input → Store → P α} :
      (∀ i s, Unhurried (next i s) (next' i s)) → Unhurried (.act op next) (.act op next')
  | wait {seconds : Nat} {next : Input → Store → P α} {q : P α} :
      (∀ i s, Unhurried (next i s) q) → Unhurried (.act (fun _ _ => .tick seconds) next) q

theorem Unhurried.refl (p : P α) : Unhurried p p := by
  induction p with
  | ret a => exact .ret a
  | raise e => exact .raise e
  | act op next ih => exact .act ih

theorem Unhurried.bind {β : Type} (p : P α) {k k' : α → P β} (hk : ∀ a, Unhurried (k a) (k' a)) :
    Unhurried (p.bind k) (p.bind k') := by
  induction p with
  | ret a => exact hk a
  | raise e => exact .raise e
  | act op next ih => exact .act ih

/-- What the others do, and the time that passes. -/
abbrev Meanwhile (apply : Op → Store → Store) (R : Store → Store → Prop) : Store → Store → Prop :=
  Relation.ReflTransGen (fun s s' => R s s' ∨ ∃ n, s' = apply (.tick n) s)

/-- The waits of a run count as time that passes between the actions of the program. -/
theorem Unhurried.runs {p q : P α} (hpq : Unhurried p q) {s s' : Store} {l : List (Input × Store)}
    {res : Except Err α} (h : p.Runs apply R s l res s') {s₀ : Store}
    (h₀ : Meanwhile apply R s₀ s) :
    ∃ l' s₁, q.Runs apply (Meanwhile apply R) s₀ l' res s₁ ∧ Meanwhile apply R s₁ s' := by
  induction hpq generalizing s s₀ l with
  | ret a =>
      obtain ⟨-, rfl, rfl⟩ := h.ret_inv
      exact ⟨[], s₀, .ret a s₀, h₀⟩
  | raise e =>
      obtain ⟨-, rfl, rfl⟩ := h.raise_inv
      exact ⟨[], s₀, .raise e s₀, h₀⟩
  | act _ ih =>
      obtain ⟨i, s₂, l₂, hR, -, hnext⟩ := h.act_inv
      obtain ⟨l', s₁, hq, hlast⟩ := ih i s₂ hnext .refl
      exact ⟨_, s₁, .act i (h₀.tail (Or.inl hR)) hq, hlast⟩
  | wait _ ih =>
      obtain ⟨i, s₂, l₂, hR, -, hnext⟩ := h.act_inv
      exact ih i s₂ hnext ((h₀.tail (Or.inl hR)).tail (Or.inr ⟨_, rfl⟩))

theorem afterReadWaiting_unhurried {sid : SessionId} {n : Nat} {st : CaseState}
    (ih : ∀ a, Unhurried (r.pollWaiting sid n st a) (r.poll sid n st a)) (a : AttemptObj)
    (got : GetResult) :
    Unhurried (r.afterReadWaiting sid n st a got) (r.afterRead sid n st a got) := by
  -- a recorded read, the sleep and the next round
  have hwait : ∀ status reason, Unhurried
      (r.recordPoll a status reason >>= fun a =>
        sleep r.cfg.devinPollIntervalSeconds >>= fun _ => r.pollWaiting sid n st a)
      (r.recordPoll a status reason >>= fun a => r.poll sid n st a) :=
    fun status reason => .bind _ fun a => .wait fun _ _ => ih a
  cases got with
  | notFound => exact .refl _
  | error => exact hwait _ _
  | snapshot snap =>
      unfold Runner.afterReadWaiting Runner.afterRead
      cases hd : (Devin.disposition snap).disposition with
      | unknown => simpa only [hd] using hwait _ _
      | live => simpa only [hd] using hwait _ _
      | finished =>
          simp only [hd]
          exact .refl _
      | waitingForHuman =>
          simp only [hd]
          exact .refl _
      | failed =>
          simp only [hd]
          exact .refl _

/-- The loop of the other modules is this one without its sleeps. -/
theorem pollWaiting_unhurried (sid : SessionId) (n : Nat) (st : CaseState) (a : AttemptObj) :
    Unhurried (r.pollWaiting sid n st a) (r.poll sid n st a) := by
  induction n generalizing st a with
  | zero => exact .raise .halt
  | succ n ih =>
      rw [pollWaiting_succ, poll_succ]
      refine .bind _ fun check => ?_
      cases check with
      | cancel st a => exact .refl _
      | expired st => exact .refl _
      | goOn st => exact .bind _ fun got => afterReadWaiting_unhurried r (ih st) a got

end Iteration

end Remediator
