import Mathlib.Data.List.Nodup
import Remediator.Effects
import Remediator.Runs
import Remediator.Worker.Polling

set_option autoImplicit false

/-! # Reconciling retained sessions

`reconcile_blocked` reads the session of every blocked attempt once and settles the newest output
it finds. The attempts it does not settle are closed, and the loop that closes them runs over all
of them: also over those whose read failed.
-/

namespace Remediator

open Interleave

/-! ## What a pass reads -/

/-- An attempt as the pass loaded it, and the answer to the read of its session. -/
abbrev RetainedRead : Type := AttemptObj × GetResult

/-- The answers to the reads of a run, in their order. -/
def answersOf (steps : List PollStep) : List GetResult :=
  steps.filterMap fun step => match step.op with
    | .get _ _ answer => some answer
    | _ => none

/-- The attempts the first action of the run selects, newest first. -/
def retainedAt (kind : AttemptKind) (steps : List PollStep) : List AttemptObj :=
  match steps with
  | step :: _ => (attemptObjs (blockedWithSession kind) step.store.core.attempts).reverse
  | [] => []

/-- The reads of the pass. -/
def passReads (kind : AttemptKind) (steps : List PollStep) : List RetainedRead :=
  (retainedAt kind steps).zip (answersOf steps)

/-- The read carries structured output. -/
def GetResult.HasOutput (answer : GetResult) : Prop :=
  ∃ snap, answer = .snapshot snap ∧ snap.structuredOutput.isSome = true

/-- The read carries structured output that is valid. -/
def GetResult.HasValidOutput (cfg : Settings) (kind : AttemptKind) (answer : GetResult) : Prop :=
  ∃ snap, answer = .snapshot snap ∧ snap.structuredOutput.isSome = true ∧
    outputIsValid cfg kind snap.structuredOutput = true

/-- The newest valid output of the reads, or the newest one when none of them is valid. -/
def NewestOutput (cfg : Settings) (kind : AttemptKind) (reads : List RetainedRead) (a : AttemptObj)
    (snap : Devin.SessionSnapshot) : Prop :=
  ∃ newer older, reads = newer ++ (a, .snapshot snap) :: older ∧
    snap.structuredOutput.isSome = true ∧
    ((outputIsValid cfg kind snap.structuredOutput = true ∧
        ∀ x ∈ newer, ¬ x.2.HasValidOutput cfg kind) ∨
      ((∀ x ∈ reads, ¬ x.2.HasValidOutput cfg kind) ∧ ∀ x ∈ newer, ¬ x.2.HasOutput))

/-! ## What a pass is for -/

/-- The write of `step` is `w`. -/
def Writes (step : PollStep) (w : Write Attempt) : Prop :=
  ∃ o t, step.op = .commit o t ∧ w ∈ t.writes

/-- What identifies the session of an attempt. -/
def Attempt.identity (a : Attempt) : OperationKey × Option SessionId :=
  (a.operationKey, a.devinSessionId)

/-- The action leaves its operation key and its session id to every attempt, and creates
nothing. -/
structure Preserves (s : Store) (op : Op) : Prop where
  create : ∀ o a result, op ≠ .post o a result
  identity : (op.apply s).core.attempts.map Attempt.identity
    = s.core.attempts.map Attempt.identity

/-- The output that is chosen, and nothing else, is stored, on its own attempt. -/
structure Ingests (cfg : Settings) (kind : AttemptKind) (steps : List PollStep)
    (out : Option (CaseState × RunOutcome)) : Prop where
  nothing : (∀ x ∈ passReads kind steps, ¬ x.2.HasOutput) → out = none ∧
    ∀ step ∈ steps, ∀ w, Writes step w → w.changed.structuredOutput = w.loaded.structuredOutput
  newest : (∃ x ∈ passReads kind steps, x.2.HasOutput) → ∃ a snap st outcome,
    NewestOutput cfg kind (passReads kind steps) a snap ∧ out = some (st, outcome) ∧
    outcome.attempt.map (·.id) = some a.id ∧
    (∃ step ∈ steps, ∃ w, Writes step w ∧ w.id = a.id ∧
      w.changed.structuredOutput = snap.structuredOutput) ∧
    ∀ step ∈ steps, ∀ w, Writes step w →
      w.changed.structuredOutput = w.loaded.structuredOutput ∨
        w.id = a.id ∧ w.changed.structuredOutput = snap.structuredOutput

/-- An attempt is closed only after its own session was read or found gone; otherwise it stays as
it is. -/
structure Discards (kind : AttemptKind) (steps : List PollStep) : Prop where
  cancelled : ∀ step ∈ steps, ∀ w, Writes step w → w.changed.status = .cancelled →
    ∃ x ∈ passReads kind steps, x.1.id = w.id ∧ x.2 ≠ .error
  stays : ∀ x ∈ passReads kind steps, x.2 = .error → ∀ step ∈ steps, ∀ w, Writes step w →
    w.id = x.1.id → w.changed.status = .blocked

/-- What `reconcile_blocked` is for, of a run with the actions `steps` and the result `out`. -/
structure Reconciles (cfg : Settings) (kind : AttemptKind) (steps : List PollStep)
    (out : Option (CaseState × RunOutcome)) : Prop where
  preserves : ∀ step ∈ steps, Preserves step.store step.op
  ingests : Ingests cfg kind steps out
  discards : Discards kind steps

/-! ## The loop over the attempts -/

/-- The object after the read, with the snapshot that carries output. -/
def RetainedRead.noted (x : RetainedRead) : AttemptObj × Option Devin.SessionSnapshot :=
  match x.2 with
  | .snapshot snap =>
      if snap.structuredOutput.isSome then (x.1, some snap)
      else (⟨x.1.id, { x.1.row with reconciliationReason := some .reconciledNoOutput }⟩, none)
  | .notFound => (⟨x.1.id, { x.1.row with reconciliationReason := some .reconciledGone }⟩, none)
  | .error => (⟨x.1.id, { x.1.row with reconciliationReason := some .other }⟩, none)

/-- The step reads a session, or notes on an attempt of the pass what its read said. -/
def Reading (candidates : List AttemptObj) (step : PollStep) : Prop :=
  (∃ sid answer, step.op = .get sid .reconcile answer) ∨
    ∃ o t a reason, step.op = .commit o t ∧ t.insert = none ∧ a ∈ candidates ∧
      t.writes = [a.write { a.row with reconciliationReason := some reason }]

section Actions

variable {α : Type} {apply : Op → Store → Store} {R : Store → Store → Prop} {s s' : Store}
  {l : List (Input × Store)}

/-- A transaction that returns has committed what its body says. -/
theorem tx_step {o : Owner} {body : Input → Store → Except Err (Txn × α)} {a : α}
    (h : (tx o body).Runs apply R s l (.ok a) s') :
    ∃ i s₁ t, body i s₁ = .ok (t, a) ∧ (tx o body).steps l = [⟨i, s₁, .commit o t⟩] := by
  obtain ⟨i, s₁, -, rfl, hout⟩ := runs_tx h
  cases hx : Txn.outcome body i s₁ with
  | error e =>
      rw [hx] at hout
      cases hout.1
  | ok x =>
      rw [hx] at hout
      obtain ⟨hres, -⟩ := hout
      cases hres
      have hsteps := @steps_tx_one _ o body i s₁
      rw [hx] at hsteps
      exact ⟨i, s₁, x.1, (outcome_ok hx).1, hsteps⟩

end Actions

section Reads

variable (r : Runner) {R : Store → Store → Prop}

/-- The read is noted and the loop goes on. -/
theorem annotate_steps {a : AttemptObj} {reason : Reason} {s s' : Store}
    {l : List (Input × Store)} {a' : AttemptObj}
    (h : (r.annotate a reason).Runs Op.apply R s l (.ok a') s') :
    a' = ⟨a.id, { a.row with reconciliationReason := some reason }⟩ ∧
      ∃ i s₁ t, (r.annotate a reason).steps l = [⟨i, s₁, .commit r.owner t⟩] ∧ t.insert = none ∧
        t.writes = [a.write { a.row with reconciliationReason := some reason }] := by
  obtain ⟨i, s₁, t, hbody, hsteps⟩ := tx_step h
  cases hbody
  exact ⟨rfl, i, s₁, _, hsteps, rfl, rfl⟩

theorem Reading.mono {candidates candidates' : List AttemptObj} {step : PollStep}
    (h : Reading candidates step) (hsub : candidates ⊆ candidates') : Reading candidates' step := by
  rcases h with hget | ⟨o, t, a, reason, hop, hins, ha, hw⟩
  · exact Or.inl hget
  · exact Or.inr ⟨o, t, a, reason, hop, hins, hsub ha, hw⟩

/-- What the loop leaves: an answer for each attempt, and the objects that go with them. -/
structure Looped (as : List AttemptObj) (steps : List PollStep)
    (read : List (AttemptObj × Option Devin.SessionSnapshot)) : Prop where
  answers : (answersOf steps).length = as.length
  read : read = (as.zip (answersOf steps)).map RetainedRead.noted
  reading : ∀ step ∈ steps, Reading as step

/-- The read is noted, and the other attempts are read. -/
theorem annotate_rest {as : List AttemptObj} {a : AttemptObj} {reason : Reason}
    (ih : ∀ {s s' : Store} {l : List (Input × Store)}
      {read : List (AttemptObj × Option Devin.SessionSnapshot)},
      (r.readRetained as).Runs Op.apply R s l (.ok read) s' →
      Looped as ((r.readRetained as).steps l) read)
    {s s' : Store} {l : List (Input × Store)}
    {read : List (AttemptObj × Option Devin.SessionSnapshot)}
    (h : (r.annotate a reason >>= fun a' => r.readRetained as >>= fun rest =>
      pure ((a', none) :: rest)).Runs Op.apply R s l (.ok read) s') :
    ∃ rest, read = (⟨a.id, { a.row with reconciliationReason := some reason }⟩, none) :: rest ∧
      ∃ step steps, (r.annotate a reason >>= fun a' => r.readRetained as >>= fun rest =>
          pure ((a', none) :: rest)).steps l = step :: steps ∧
        answersOf [step] = [] ∧ Reading [a] step ∧ Looped as steps rest := by
  rcases Prog.Runs.bind_inv h with ⟨e, hres, -⟩ | ⟨a', s₁, l₁, l₂, rfl, hnote, hrest⟩
  · cases hres
  · obtain ⟨rfl, i, s₂, t, hone, hins, hw⟩ := annotate_steps r hnote
    rcases Prog.Runs.bind_inv hrest with ⟨e, hres, -⟩ | ⟨rest, s₃, l₃, l₄, rfl, hloop, hret⟩
    · cases hres
    · obtain ⟨rfl, hres, -⟩ := hret.ret_inv
      cases hres
      refine ⟨rest, rfl, ⟨i, s₂, .commit r.owner t⟩, (r.readRetained as).steps l₃, ?_, rfl, ?_,
        ih hloop⟩
      · rw [Prog.bind_eq, hnote.steps_bind, hone, Prog.bind_eq, hloop.steps_bind]
        simp
      · exact Or.inr ⟨_, _, a, reason, rfl, hins, by simp, hw⟩

/-- **The loop reads every attempt once**, in order, and only notes the answers. -/
theorem readRetained_steps (as : List AttemptObj) :
    ∀ {s s' : Store} {l : List (Input × Store)}
      {read : List (AttemptObj × Option Devin.SessionSnapshot)},
      (r.readRetained as).Runs Op.apply R s l (.ok read) s' →
      Looped as ((r.readRetained as).steps l) read := by
  induction as with
  | nil =>
      intro s s' l read h
      obtain ⟨rfl, hres, -⟩ := h.ret_inv
      cases hres
      exact ⟨rfl, rfl, by simp⟩
  | cons a as ih =>
      intro s s' l read h
      unfold Runner.readRetained at h ⊢
      cases hsid : a.row.devinSessionId with
      | none =>
          simp only [hsid] at h
          obtain ⟨-, hres, -⟩ := h.raise_inv
          cases hres
      | some sid =>
          simp only [hsid] at h ⊢
          rcases Prog.Runs.bind_inv h with ⟨e, hres, -⟩ | ⟨got, s₁, l₁, l₂, rfl, hget, hnext⟩
          · cases hres
          · obtain ⟨i, s₂, hone, hgot⟩ := getSession_step hget
            have hgot : got = i.get := by
              rcases hgot with ⟨-, hres⟩ | ⟨f, -, hres⟩
              · cases hres
                rfl
              · cases hres
            subst hgot
            rw [Prog.bind_eq, hget.steps_bind, hone, List.singleton_append]
            -- after a read that is noted the loop is as `annotate_rest` says
            have hnoted : ∀ {reason : Reason}, RetainedRead.noted (a, i.get)
                  = (⟨a.id, { a.row with reconciliationReason := some reason }⟩, none) →
                (r.annotate a reason >>= fun a' => r.readRetained as >>= fun rest =>
                  pure ((a', none) :: rest)).Runs Op.apply R s₁ l₂ (.ok read) s' →
                Looped (a :: as) (⟨i, s₂, .get sid .reconcile i.get⟩ ::
                  (r.annotate a reason >>= fun a' => r.readRetained as >>= fun rest =>
                    pure ((a', none) :: rest)).steps l₂) read := by
              intro reason hnote hrun
              obtain ⟨rest, rfl, step, steps, hsteps, hans, hreading, hlooped⟩ :=
                annotate_rest r ih hrun
              rw [hsteps]
              have hanswers : answersOf (⟨i, s₂, .get sid .reconcile i.get⟩ :: step :: steps)
                  = i.get :: answersOf steps := by
                have hsplit : answersOf (step :: steps) = answersOf [step] ++ answersOf steps := by
                  rw [answersOf, answersOf, answersOf, ← List.filterMap_append]
                  rfl
                show i.get :: answersOf (step :: steps) = _
                rw [hsplit, hans]
                rfl
              refine ⟨?_, ?_, ?_⟩
              · rw [hanswers, List.length_cons, List.length_cons, hlooped.answers]
              · rw [hanswers, List.zip_cons_cons, List.map_cons, hnote, ← hlooped.read]
              · intro x hx
                rcases List.mem_cons.mp hx with rfl | hx
                · exact Or.inl ⟨_, _, rfl⟩
                · rcases List.mem_cons.mp hx with rfl | hx
                  · exact hreading.mono (by simp)
                  · exact (hlooped.reading x hx).mono (List.subset_cons_self _ _)
            cases hanswer : i.get with
            | notFound =>
                simp only [hanswer] at hnext hnoted ⊢
                exact hnoted rfl hnext
            | error =>
                simp only [hanswer] at hnext hnoted ⊢
                exact hnoted rfl hnext
            | snapshot snap =>
                simp only [hanswer] at hnext hnoted ⊢
                by_cases hout : snap.structuredOutput.isSome = true
                · rw [if_pos hout] at hnext ⊢
                  rcases Prog.Runs.bind_inv hnext with ⟨e, hres, -⟩ |
                    ⟨rest, s₃, l₃, l₄, rfl, hloop, hret⟩
                  · cases hres
                  · obtain ⟨rfl, hres, -⟩ := hret.ret_inv
                    cases hres
                    have hlooped := ih hloop
                    rw [Prog.bind_eq, hloop.steps_bind]
                    simp only [Prog.steps_nil, List.append_nil]
                    refine ⟨?_, ?_, ?_⟩
                    · show (_ :: answersOf _).length = _
                      rw [List.length_cons, hlooped.answers, List.length_cons]
                    · show _ = ((a :: as).zip (_ :: answersOf _)).map _
                      rw [List.zip_cons_cons, List.map_cons, ← hlooped.read]
                      simp [RetainedRead.noted, hout]
                    · intro x hx
                      rcases List.mem_cons.mp hx with rfl | hx
                      · exact Or.inl ⟨_, _, rfl⟩
                      · exact (hlooped.reading x hx).mono (List.subset_cons_self _ _)
                · rw [if_neg hout] at hnext ⊢
                  exact hnoted (by simp [RetainedRead.noted, hout]) hnext

/-! ## The whole pass -/

/-- The commit `step` flushes `ws` and inserts nothing. -/
def Flushes (step : PollStep) (ws : List (Write Attempt)) : Prop :=
  ∃ o t, step.op = .commit o t ∧ t.insert = none ∧ t.writes = ws

/-- The object that is settled, after the pass took it up again. -/
def AttemptObj.resumed (a : AttemptObj) : AttemptObj :=
  ⟨a.id, { a.row with status := .running, reconciliationReason := none }⟩

/-- The writes that take up `a` and close the other attempts of the pass. -/
def supersedes (read : List (AttemptObj × Option Devin.SessionSnapshot)) (a : AttemptObj) :
    List (Write Attempt) :=
  ((read.map (·.1)).filter (fun x => decide (x.id ≠ a.id))).map
      (fun x => x.write { x.row with status := .cancelled }) ++ [a.write a.resumed.row]

/-- The end of a pass that found no output, or that settles the one it chose. -/
inductive Concluded (cfg : Settings) (kind : AttemptKind)
    (read : List (AttemptObj × Option Devin.SessionSnapshot)) :
    List PollStep → Option (CaseState × RunOutcome) → Prop
  | nothing : chooseOutput cfg kind read = none → Concluded cfg kind read [] none
  | settled {a : AttemptObj} {snap : Devin.SessionSnapshot} {superseding settling : PollStep}
      {st : CaseState} {outcome : RunOutcome} {row : Attempt} :
      chooseOutput cfg kind read = some (a, snap) →
      Flushes superseding (supersedes read a) →
      Flushes settling [a.resumed.write row] → row.status = .running →
      row.structuredOutput = snap.structuredOutput → outcome.attempt = some ⟨a.id, row⟩ →
      Concluded cfg kind read [superseding, settling] (some (st, outcome))

/-- The commit that takes up the chosen attempt and closes the others. -/
def Runner.supersede (kind : AttemptKind) (st : CaseState)
    (read : List (AttemptObj × Option Devin.SessionSnapshot)) (a : AttemptObj) :
    P (CaseState × AttemptObj) :=
  tx r.owner (fun _ _ =>
    .ok ({ r.txn with
           writes := supersedes read a
           failureReason := some none
           moves := if st = (phaseForKind kind).humanBlocked then
             [r.move st (phaseForKind kind).running] else [] },
      if st = (phaseForKind kind).humanBlocked then (phaseForKind kind).running else st,
      a.resumed))

/-- The rest of the pass, after the reads. -/
def Runner.conclude (kind : AttemptKind) (st : CaseState)
    (read : List (AttemptObj × Option Devin.SessionSnapshot)) :
    P (Option (CaseState × RunOutcome)) :=
  match chooseOutput r.cfg kind read with
  | none => pure none
  | some (a, snap) =>
      r.supersede kind st read a >>= fun x =>
        r.settle x.1 x.2 snap .finished >>= fun res => pure (some res)

theorem reconcileBlocked_eq (kind : AttemptKind) (st : CaseState) :
    r.reconcileBlocked kind st
      = tx r.owner (fun _ s => .ok (r.txn,
          (attemptObjs (blockedWithSession kind) s.core.attempts).reverse)) >>= fun candidates =>
        r.readRetained candidates >>= r.conclude kind st := rfl

theorem conclude_steps (kind : AttemptKind) (st : CaseState)
    {read : List (AttemptObj × Option Devin.SessionSnapshot)} {s s' : Store}
    {l : List (Input × Store)} {out : Option (CaseState × RunOutcome)}
    (h : (r.conclude kind st read).Runs Op.apply R s l (.ok out) s') :
    Concluded r.cfg kind read ((r.conclude kind st read).steps l) out := by
  unfold Runner.conclude at h ⊢
  cases hchoice : chooseOutput r.cfg kind read with
  | none =>
      simp only [hchoice] at h ⊢
      obtain ⟨rfl, hres, -⟩ := h.ret_inv
      cases hres
      exact .nothing hchoice
  | some x =>
      obtain ⟨a, snap⟩ := x
      simp only [hchoice] at h ⊢
      rcases Prog.Runs.bind_inv h with ⟨e, hres, -⟩ | ⟨x, s₁, l₁, l₂, rfl, hsup, hrest⟩
      · cases hres
      · obtain ⟨i, s₂, t, hbody, hone⟩ := tx_step hsup
        have hflushes : t.insert = none ∧ t.writes = supersedes read a ∧ x.2 = a.resumed := by
          cases hbody
          exact ⟨rfl, rfl, rfl⟩
        obtain ⟨hins, hwrites, hobj⟩ := hflushes
        rcases Prog.Runs.bind_inv hrest with ⟨e, hres, -⟩ | ⟨res, s₃, l₃, l₄, rfl, hset, hret⟩
        · cases hres
        · obtain ⟨rfl, hres, -⟩ := hret.ret_inv
          cases hres
          obtain ⟨i', s₄, t', hbody', hone'⟩ := tx_step hset
          have hfinal : ∃ row, t'.insert = none ∧ t'.writes = [a.resumed.write row]
              ∧ row.status = .running ∧ row.structuredOutput = snap.structuredOutput
              ∧ res.2.attempt = some ⟨a.id, row⟩ := by
            rw [hobj] at hbody'
            cases hbody'
            exact ⟨_, rfl, rfl, rfl, rfl, rfl⟩
          obtain ⟨row, hins', hwrites', hrun, hdoc, hattempt⟩ := hfinal
          have hsup' : (r.supersede kind st read a).steps l₁ = [⟨i, s₂, .commit r.owner t⟩] := hone
          have hset' : (r.settle x.1 x.2 snap .finished).steps l₃
              = [⟨i', s₄, .commit r.owner t'⟩] := hone'
          rw [Prog.bind_eq, hsup.steps_bind, hsup', Prog.bind_eq, hset.steps_bind, hset']
          exact .settled hchoice ⟨_, _, rfl, hins, hwrites⟩ ⟨_, _, rfl, hins', hwrites'⟩ hrun hdoc
            hattempt

/-- **A pass**: the attempts are selected, read one after the other, and the chosen one is
settled. -/
theorem reconcileBlocked_steps (kind : AttemptKind) (st : CaseState) {s s' : Store}
    {l : List (Input × Store)} {out : Option (CaseState × RunOutcome)}
    (h : (r.reconcileBlocked kind st).Runs Op.apply R s l (.ok out) s') :
    ∃ first loop final read, (r.reconcileBlocked kind st).steps l = first :: (loop ++ final) ∧
      Flushes first [] ∧ Looped (retainedAt kind [first]) loop read ∧
      Concluded r.cfg kind read final out := by
  rw [reconcileBlocked_eq] at h ⊢
  rcases Prog.Runs.bind_inv h with ⟨e, hres, -⟩ | ⟨candidates, s₁, l₁, l₂, rfl, hselect, hrest⟩
  · cases hres
  · obtain ⟨i, s₂, t, hbody, hone⟩ := tx_step hselect
    cases hbody
    rcases Prog.Runs.bind_inv hrest with ⟨e, hres, -⟩ | ⟨read, s₃, l₃, l₄, rfl, hloop, hend⟩
    · cases hres
    · have hlooped := readRetained_steps r _ hloop
      rw [Prog.bind_eq, hselect.steps_bind, hone, Prog.bind_eq, hloop.steps_bind]
      exact ⟨_, (r.readRetained _).steps l₃, (r.conclude kind st read).steps l₄, read, rfl,
        ⟨_, _, rfl, rfl, rfl⟩, hlooped, conclude_steps r kind st hend⟩

end Reads

/-! ## The choice -/

section Choice

variable {cfg : Settings} {kind : AttemptKind} {reads : List RetainedRead}

/-- The output of a read, with its attempt. -/
def RetainedRead.output (x : RetainedRead) : Option (AttemptObj × Devin.SessionSnapshot) :=
  match x.2 with
  | .snapshot snap => if snap.structuredOutput.isSome then some (x.1, snap) else none
  | .notFound => none
  | .error => none

theorem output_some_iff {x : RetainedRead} {a : AttemptObj} {snap : Devin.SessionSnapshot} :
    x.output = some (a, snap) ↔
      x = (a, .snapshot snap) ∧ snap.structuredOutput.isSome = true := by
  obtain ⟨b, answer⟩ := x
  cases answer with
  | notFound => simp [RetainedRead.output]
  | error => simp [RetainedRead.output]
  | snapshot snap' =>
      by_cases h : snap'.structuredOutput.isSome = true
      · simp only [RetainedRead.output, h, if_true, Option.some.injEq, Prod.mk.injEq,
          GetResult.snapshot.injEq]
        constructor
        · rintro ⟨rfl, rfl⟩
          exact ⟨⟨rfl, rfl⟩, h⟩
        · rintro ⟨⟨rfl, rfl⟩, -⟩
          exact ⟨rfl, rfl⟩
      · simp only [RetainedRead.output, h, Prod.mk.injEq, GetResult.snapshot.injEq]
        constructor
        · intro hnone
          cases hnone
        · rintro ⟨⟨-, rfl⟩, hsome⟩
          exact absurd hsome h

theorem output_none_iff {x : RetainedRead} : x.output = none ↔ ¬ x.2.HasOutput := by
  rw [← not_iff_not, not_not, ← ne_eq, Option.ne_none_iff_exists']
  constructor
  · rintro ⟨⟨a, snap⟩, h⟩
    obtain ⟨rfl, hsome⟩ := output_some_iff.mp h
    exact ⟨snap, rfl, hsome⟩
  · rintro ⟨snap, heq, hsome⟩
    exact ⟨(x.1, snap), output_some_iff.mpr ⟨Prod.ext rfl heq, hsome⟩⟩

/-- What `chooseOutput` looks at are the outputs of the reads. -/
theorem filterMap_noted (reads : List RetainedRead) :
    (reads.map RetainedRead.noted).filterMap (fun x => x.2.map (fun snap => (x.1, snap)))
      = reads.filterMap RetainedRead.output := by
  rw [List.filterMap_map]
  refine List.filterMap_congr ?_
  rintro ⟨a, answer⟩ -
  cases answer with
  | notFound => rfl
  | error => rfl
  | snapshot snap =>
      by_cases h : snap.structuredOutput.isSome = true
      · simp [RetainedRead.noted, RetainedRead.output, h]
      · simp [RetainedRead.noted, RetainedRead.output, h]

theorem hasValidOutput_iff {x : RetainedRead} :
    x.2.HasValidOutput cfg kind ↔
      x.output.any (fun y => outputIsValid cfg kind y.2.structuredOutput) = true := by
  rw [Option.any_eq_true]
  constructor
  · rintro ⟨snap, heq, hsome, hvalid⟩
    exact ⟨(x.1, snap), output_some_iff.mpr ⟨Prod.ext rfl heq, hsome⟩, hvalid⟩
  · rintro ⟨⟨a, snap⟩, h, hvalid⟩
    obtain ⟨rfl, hsome⟩ := output_some_iff.mp h
    exact ⟨snap, rfl, hsome, hvalid⟩

theorem chooseOutput_none_iff :
    chooseOutput cfg kind (reads.map RetainedRead.noted) = none ↔
      ∀ x ∈ reads, ¬ x.2.HasOutput := by
  unfold chooseOutput
  dsimp only
  rw [filterMap_noted, Option.or_eq_none_iff, List.head?_filterMap, List.findSome?_eq_none_iff]
  simp only [← output_none_iff]
  constructor
  · exact fun h => h.2
  · intro h
    refine ⟨?_, h⟩
    rw [List.find?_eq_none]
    intro y hy
    obtain ⟨x, hx, hsome⟩ := List.mem_filterMap.mp hy
    rw [h x hx] at hsome
    cases hsome

theorem chooseOutput_newest {a : AttemptObj} {snap : Devin.SessionSnapshot}
    (h : chooseOutput cfg kind (reads.map RetainedRead.noted) = some (a, snap)) :
    NewestOutput cfg kind reads a snap := by
  unfold chooseOutput at h
  dsimp only at h
  rw [filterMap_noted, Option.or_eq_some_iff, List.find?_filterMap, List.head?_filterMap] at h
  rcases h with hvalid | ⟨hnone, hfirst⟩
  · obtain ⟨x, hfind, hout⟩ := Option.bind_eq_some_iff.mp hvalid
    obtain ⟨hpx, newer, older, rfl, hnewer⟩ := List.find?_eq_some_iff_append.mp hfind
    obtain ⟨rfl, hsome⟩ := output_some_iff.mp hout
    refine ⟨newer, older, rfl, hsome, Or.inl ⟨?_, ?_⟩⟩
    · rwa [hout] at hpx
    · intro y hy hyvalid
      have := hnewer y hy
      rw [hasValidOutput_iff.mp hyvalid] at this
      cases this
  · obtain ⟨newer, x, older, rfl, hout, hnewer⟩ := List.findSome?_eq_some_iff.mp hfirst
    obtain ⟨rfl, hsome⟩ := output_some_iff.mp hout
    refine ⟨newer, older, rfl, hsome, Or.inr ⟨?_, ?_⟩⟩
    · intro y hy hyvalid
      rw [Option.bind_eq_none_iff] at hnone
      cases hfind : List.find? (fun a => Option.any
          (fun x => outputIsValid cfg kind x.2.structuredOutput) (RetainedRead.output a))
          (newer ++ (a, GetResult.snapshot snap) :: older) with
      | none =>
          rw [List.find?_eq_none] at hfind
          exact hfind y hy (hasValidOutput_iff.mp hyvalid)
      | some w =>
          have hw := (List.find?_eq_some_iff_append.mp hfind).1
          rw [hnone w hfind] at hw
          cases hw
    · intro y hy
      exact output_none_iff.mp (hnewer y hy)

end Choice

/-! ## What the steps write -/

theorem Flushes.writes_iff {step : PollStep} {ws : List (Write Attempt)} (h : Flushes step ws)
    {w : Write Attempt} : Writes step w ↔ w ∈ ws := by
  obtain ⟨o, t, hop, -, rfl⟩ := h
  constructor
  · rintro ⟨o', t', hop', hw⟩
    rw [hop] at hop'
    cases hop'
    exact hw
  · exact fun hw => ⟨o, t, hop, hw⟩

/-- A commit that keeps the session ids of the objects it flushes preserves every row. -/
theorem preserves_commit {o : Owner} {t : Txn} (s : Store) (hins : t.insert = none)
    (hsid : ∀ w ∈ t.writes, w.changed.devinSessionId = w.loaded.devinSessionId) :
    Preserves s (.commit o t) := by
  refine ⟨fun o' a result heq => ?_, ?_⟩
  · cases heq
  · rw [commit_core]
    show ((t.attempts s.core) ++ t.insert.toList.map (·.row)).map _ = _
    rw [hins, Option.toList_none, List.map_nil, List.append_nil]
    refine flush_map _ (fun w hw row => ?_) _
    simp [Attempt.identity, Attempt.merge, hsid w hw]

theorem preserves_skip (s : Store) : Preserves s .skip :=
  ⟨fun _ _ _ heq => (by cases heq), rfl⟩

theorem preserves_get (s : Store) (sid : SessionId) (purpose : GetPurpose) (answer : GetResult) :
    Preserves s (.get sid purpose answer) :=
  ⟨fun _ _ _ heq => (by cases heq), rfl⟩

section Runner

variable (r : Runner)

/-- Every action of a program preserves the attempts. -/
abbrev Preserving {α : Type} (p : P α) : Prop :=
  p.Each Preserves (fun _ => True) (fun _ => True)

theorem Preserving.tx {α : Type} {o : Owner} {body : Input → Store → Except Err (Txn × α)}
    (h : ∀ i s t a, body i s = .ok (t, a) → t.insert = none ∧
      ∀ w ∈ t.writes, w.changed.devinSessionId = w.loaded.devinSessionId) :
    Preserving (Remediator.tx o body) :=
  each_tx preserves_skip (fun _ _ _ _ => trivial) fun i s t a hbody _ =>
    ⟨preserves_commit s (h i s t a hbody).1 (h i s t a hbody).2, trivial⟩

theorem Preserving.getSession (sid : SessionId) (purpose : GetPurpose) :
    Preserving (Remediator.getSession sid purpose) := by
  intro i s
  refine ⟨preserves_get s sid purpose i.get, ?_⟩
  show Prog.Each _ _ _ (unlessFault i i.get)
  unfold unlessFault
  cases i.fault <;> trivial

theorem annotate_preserving (a : AttemptObj) (reason : Reason) :
    Preserving (r.annotate a reason) := by
  refine .tx fun i s t a' hbody => ?_
  cases hbody
  exact ⟨rfl, fun w hw => by rw [List.mem_singleton.mp hw]; rfl⟩

theorem readRetained_preserving (as : List AttemptObj) : Preserving (r.readRetained as) := by
  induction as with
  | nil => trivial
  | cons a as ih =>
      have hrest : ∀ {β : Type} (k : List (AttemptObj × Option Devin.SessionSnapshot) → β),
          Preserving (r.readRetained as >>= fun rest => pure (k rest)) :=
        fun k => Prog.Each.bind ih fun _ _ => trivial
      have hnoted : ∀ reason, Preserving (r.annotate a reason >>= fun a' =>
          r.readRetained as >>= fun rest => pure ((a', none) :: rest)) :=
        fun reason => Prog.Each.bind (annotate_preserving r a reason) fun _ _ => hrest _
      unfold Runner.readRetained
      split
      · trivial
      · refine Prog.Each.bind (Preserving.getSession _ .reconcile) fun res _ => ?_
        split
        · split
          · exact hrest _
          · exact hnoted _
        · exact hnoted _
        · exact hnoted _

theorem reconcileBlocked_preserving (kind : AttemptKind) (st : CaseState) :
    Preserving (r.reconcileBlocked kind st) := by
  rw [reconcileBlocked_eq]
  refine Prog.Each.bind (Preserving.tx fun i s t a hbody => ?_) fun candidates _ => ?_
  · cases hbody
    exact ⟨rfl, by simp [Runner.txn]⟩
  · refine Prog.Each.bind (readRetained_preserving r candidates) fun read _ => ?_
    unfold Runner.conclude
    split
    · trivial
    · refine Prog.Each.bind (Preserving.tx fun i s t x hbody => ?_) fun x _ => ?_
      · cases hbody
        refine ⟨rfl, fun w hw => ?_⟩
        simp only [supersedes, List.mem_append, List.mem_map, List.mem_singleton] at hw
        rcases hw with ⟨b, -, rfl⟩ | rfl
        · rfl
        · rfl
      · refine Prog.Each.bind (Preserving.tx fun i s t out hbody => ?_) fun _ _ => trivial
        cases hbody
        exact ⟨rfl, fun w hw => by rw [List.mem_singleton.mp hw]; rfl⟩

end Runner

theorem Flushes.answersOf {step : PollStep} {ws : List (Write Attempt)} (h : Flushes step ws)
    (steps : List PollStep) : answersOf (step :: steps) = Remediator.answersOf steps := by
  obtain ⟨o, t, hop, -, -⟩ := h
  simp only [Remediator.answersOf, List.filterMap_cons, hop]

/-- The notes of the loop. -/
theorem Reading.writes {candidates : List AttemptObj} {step : PollStep}
    (h : Reading candidates step) {w : Write Attempt} (hw : Writes step w) :
    ∃ a ∈ candidates, ∃ reason,
      w = a.write { a.row with reconciliationReason := some reason } := by
  obtain ⟨o', t', hop', hmem⟩ := hw
  rcases h with ⟨sid, answer, hop⟩ | ⟨o, t, a, reason, hop, -, ha, hws⟩
  · rw [hop] at hop'
    cases hop'
  · rw [hop] at hop'
    cases hop'
    rw [hws, List.mem_singleton] at hmem
    exact ⟨a, ha, reason, hmem⟩

/-- The attempts of a pass are blocked. -/
theorem retainedAt_blocked {kind : AttemptKind} {steps : List PollStep} {a : AttemptObj}
    (ha : a ∈ retainedAt kind steps) : a.row.status = .blocked := by
  unfold retainedAt at ha
  split at ha
  · next step rest =>
      have hmem := (List.mem_filter.mp (List.mem_reverse.mp ha)).2
      simp only [blockedWithSession, Bool.and_eq_true, decide_eq_true_eq] at hmem
      exact hmem.1.2
  · cases ha

/-- An attempt is selected once. -/
theorem retainedAt_nodup (kind : AttemptKind) (steps : List PollStep) :
    ((retainedAt kind steps).map (·.id)).Nodup := by
  unfold retainedAt
  split
  · next step rest =>
      rw [List.map_reverse, List.nodup_reverse]
      unfold attemptObjs
      refine ((List.Sublist.map _ List.filter_sublist).nodup ?_)
      rw [List.map_map]
      show (step.store.core.attempts.zipIdx.map Prod.snd).Nodup
      rw [List.zipIdx_map_snd]
      exact List.nodup_range'
  · exact List.nodup_nil

theorem noted_id (x : RetainedRead) : x.noted.1.id = x.1.id := by
  obtain ⟨a, answer⟩ := x
  unfold RetainedRead.noted
  split
  · split <;> rfl
  · rfl
  · rfl

/-- The writes of the commit that takes up `a`. -/
theorem mem_supersedes {reads : List RetainedRead} {a : AttemptObj} {w : Write Attempt} :
    w ∈ supersedes (reads.map RetainedRead.noted) a ↔
      (∃ x ∈ reads, x.1.id ≠ a.id ∧
        w = x.noted.1.write { x.noted.1.row with status := .cancelled })
      ∨ w = a.write a.resumed.row := by
  simp only [supersedes, List.map_map, List.mem_append, List.mem_map, List.mem_filter,
    List.mem_singleton, Function.comp_apply, decide_eq_true_eq]
  constructor
  · rintro (⟨b, ⟨⟨x, hx, rfl⟩, hne⟩, rfl⟩ | rfl)
    · exact Or.inl ⟨x, hx, noted_id x ▸ hne, rfl⟩
    · exact Or.inr rfl
  · rintro (⟨x, hx, hne, rfl⟩ | rfl)
    · exact Or.inl ⟨_, ⟨⟨x, hx, rfl⟩, (noted_id x).symm ▸ hne⟩, rfl⟩
    · exact Or.inr rfl

/-! ## The pass as a whole -/

section Pass

variable {cfg : Settings} {kind : AttemptKind} {first : PollStep} {loop : List PollStep}

/-- No read of another attempt than the settled one failed, if one is settled. -/
def ReadsAll (reads : List RetainedRead) : Prop :=
  (∃ x ∈ reads, x.2.HasOutput) → ∀ x ∈ reads, x.2 ≠ .error

theorem NewestOutput.mem {reads : List RetainedRead} {a : AttemptObj}
    {snap : Devin.SessionSnapshot} (h : NewestOutput cfg kind reads a snap) :
    (a, .snapshot snap) ∈ reads ∧ GetResult.HasOutput (.snapshot snap) := by
  obtain ⟨newer, older, rfl, hsome, -⟩ := h
  exact ⟨by simp, snap, rfl, hsome⟩

/-- A pass without output only notes what it read. -/
theorem reconciles_nothing (hfirst : Flushes first [])
    (hread : ∀ step ∈ loop, Reading (retainedAt kind (first :: loop)) step)
    (hpreserves : ∀ step ∈ first :: loop, Preserves step.store step.op)
    (hnone : ∀ x ∈ passReads kind (first :: loop), ¬ x.2.HasOutput) :
    Reconciles cfg kind (first :: loop) none := by
  have hwrites : ∀ step ∈ first :: loop, ∀ w, Writes step w →
      ∃ a ∈ retainedAt kind (first :: loop), ∃ reason,
        w = a.write { a.row with reconciliationReason := some reason } := by
    intro step hstep w hw
    rcases List.mem_cons.mp hstep with rfl | hstep
    · exact absurd (hfirst.writes_iff.mp hw) (by simp)
    · exact (hread step hstep).writes hw
  refine ⟨hpreserves, ⟨fun _ => ⟨rfl, ?_⟩, ?_⟩, ?_, ?_⟩
  · intro step hstep w hw
    obtain ⟨a, -, reason, rfl⟩ := hwrites step hstep w hw
    rfl
  · rintro ⟨x, hx, hout⟩
    exact absurd hout (hnone x hx)
  · intro step hstep w hw hcancelled
    obtain ⟨a, ha, reason, rfl⟩ := hwrites step hstep w hw
    rw [show (a.write { a.row with reconciliationReason := some reason }).changed.status
      = a.row.status from rfl, retainedAt_blocked ha] at hcancelled
    cases hcancelled
  · intro x hx _ step hstep w hw _
    obtain ⟨a, ha, reason, rfl⟩ := hwrites step hstep w hw
    exact retainedAt_blocked ha

/-- Two reads of one attempt are the same. -/
theorem passReads_unique {steps : List PollStep}
    (hlen : (retainedAt kind steps).length ≤ (answersOf steps).length) {x y : RetainedRead}
    (hx : x ∈ passReads kind steps) (hy : y ∈ passReads kind steps) (h : x.1.id = y.1.id) :
    x = y := by
  have hnodup : ((passReads kind steps).map (fun x => x.1.id)).Nodup := by
    rw [show (fun x : RetainedRead => x.1.id) = (·.id) ∘ Prod.fst from rfl, ← List.map_map,
      passReads, List.map_fst_zip hlen]
    exact retainedAt_nodup kind steps
  exact List.inj_on_of_nodup_map hnodup hx hy h

/-- A pass that settles `a` leaves the others alone exactly when it read all of them. -/
theorem reconciles_settled_iff {superseding settling : PollStep} {a : AttemptObj}
    {snap : Devin.SessionSnapshot} {st : CaseState} {outcome : RunOutcome} {row : Attempt}
    {steps : List PollStep} (hsteps : steps = first :: (loop ++ [superseding, settling]))
    (hfirst : Flushes first []) (hread : ∀ step ∈ loop, Reading (retainedAt kind steps) step)
    (hlen : (retainedAt kind steps).length ≤ (answersOf steps).length)
    (hchoice : NewestOutput cfg kind (passReads kind steps) a snap)
    (hsup : Flushes superseding (supersedes ((passReads kind steps).map RetainedRead.noted) a))
    (hset : Flushes settling [a.resumed.write row]) (hstatus : row.status = .running)
    (hpreserves : ∀ step ∈ steps, Preserves step.store step.op)
    (hdoc : row.structuredOutput = snap.structuredOutput)
    (hattempt : outcome.attempt = some ⟨a.id, row⟩) :
    Reconciles cfg kind steps (some (st, outcome)) ↔ ReadsAll (passReads kind steps) := by
  obtain ⟨hchosen, hout⟩ := hchoice.mem
  have hcases : ∀ step ∈ steps, step = first ∨ step ∈ loop ∨ step = superseding
      ∨ step = settling := by
    intro step hstep
    simpa [hsteps] using hstep
  -- every write is a note, closes another attempt, or belongs to the chosen one
  have hwrites : ∀ step ∈ steps, ∀ w, Writes step w →
      (∃ b ∈ retainedAt kind steps, ∃ reason,
        w = b.write { b.row with reconciliationReason := some reason })
      ∨ (∃ x ∈ passReads kind steps, x.1.id ≠ a.id ∧
        w = x.noted.1.write { x.noted.1.row with status := .cancelled })
      ∨ w = a.write a.resumed.row ∨ w = a.resumed.write row := by
    intro step hstep w hw
    rcases hcases step hstep with rfl | hloop | rfl | rfl
    · exact absurd (hfirst.writes_iff.mp hw) (by simp)
    · exact Or.inl ((hread step hloop).writes hw)
    · rcases mem_supersedes.mp (hsup.writes_iff.mp hw) with hother | hown
      · exact Or.inr (Or.inl hother)
      · exact Or.inr (Or.inr (Or.inl hown))
    · exact Or.inr (Or.inr (Or.inr (List.mem_singleton.mp (hset.writes_iff.mp hw))))
  have hsup_mem : superseding ∈ steps := by simp [hsteps]
  have hset_mem : settling ∈ steps := by simp [hsteps]
  constructor
  · intro h _ x hx herror
    have hne : x.1.id ≠ a.id := by
      intro heq
      have hsame := passReads_unique hlen hx hchosen heq
      rw [hsame] at herror
      cases herror
    have hw : Writes superseding (x.noted.1.write { x.noted.1.row with status := .cancelled }) :=
      hsup.writes_iff.mpr (mem_supersedes.mpr (Or.inl ⟨x, hx, hne, rfl⟩))
    have hstays := h.discards.stays x hx herror superseding hsup_mem _ hw (noted_id x)
    cases hstays
  · intro hall
    have hok := hall ⟨_, hchosen, hout⟩
    refine ⟨hpreserves, ⟨?_, ?_⟩, ?_, ?_⟩
    · intro hnone
      exact absurd hout (hnone _ hchosen)
    · intro _
      refine ⟨a, snap, st, outcome, hchoice, rfl, congrArg (Option.map (·.id)) hattempt, ?_, ?_⟩
      · exact ⟨settling, hset_mem, a.resumed.write row, hset.writes_iff.mpr (by simp), rfl, hdoc⟩
      · intro step hstep w hw
        rcases hwrites step hstep w hw with ⟨b, -, reason, rfl⟩ | ⟨x, -, -, rfl⟩ | rfl | rfl
        · exact Or.inl rfl
        · exact Or.inl rfl
        · exact Or.inl rfl
        · exact Or.inr ⟨rfl, hdoc⟩
    · intro step hstep w hw hcancelled
      rcases hwrites step hstep w hw with ⟨b, hb, reason, rfl⟩ | ⟨x, hx, -, rfl⟩ | rfl | rfl
      · have hblocked : b.row.status = .cancelled := hcancelled
        rw [retainedAt_blocked hb] at hblocked
        cases hblocked
      · exact ⟨x, hx, (noted_id x).symm, hok x hx⟩
      · cases hcancelled
      · rw [show (a.resumed.write row).changed.status = row.status from rfl, hstatus] at hcancelled
        cases hcancelled
    · intro x hx herror
      exact absurd herror (hok x hx)

end Pass

/-- **A pass creates nothing and leaves every attempt its key and its session; when it ends, it
reconciles its attempts exactly when, if it settles one, it read all of them.** -/
theorem reconcile_blocked_iff (r : Runner) (kind : AttemptKind) (st : CaseState)
    {R : Store → Store → Prop} {s s' : Store} {l : List (Input × Store)}
    {res : Except Err (Option (CaseState × RunOutcome))}
    (h : (r.reconcileBlocked kind st).Runs Op.apply R s l res s') :
    (∀ step ∈ (r.reconcileBlocked kind st).steps l, Preserves step.store step.op) ∧
    ∀ out, res = .ok out →
      (Reconciles r.cfg kind ((r.reconcileBlocked kind st).steps l) out ↔
        ReadsAll (passReads kind ((r.reconcileBlocked kind st).steps l))) := by
  have hpreserves := h.each_steps (reconcileBlocked_preserving r kind st)
  refine ⟨hpreserves, ?_⟩
  rintro out rfl
  obtain ⟨first, loop, final, read, hsteps, hfirst, hlooped, hfinal⟩ :=
    reconcileBlocked_steps r kind st h
  have hread : read = ((retainedAt kind [first]).zip (answersOf loop)).map RetainedRead.noted :=
    hlooped.read
  rw [hsteps] at hpreserves ⊢
  cases hfinal with
  | nothing hchoice =>
      rw [List.append_nil] at hpreserves ⊢
      have hreads : passReads kind (first :: loop)
          = (retainedAt kind [first]).zip (answersOf loop) := by
        rw [passReads, hfirst.answersOf]
        rfl
      rw [hread, chooseOutput_none_iff, ← hreads] at hchoice
      refine iff_of_true (reconciles_nothing hfirst hlooped.reading hpreserves hchoice) ?_
      rintro ⟨x, hx, hout⟩
      exact absurd hout (hchoice x hx)
  | @settled a snap superseding settling st' outcome row hchoice hsup hset hstatus hdoc hattempt =>
      have hanswers : answersOf (first :: (loop ++ [superseding, settling])) = answersOf loop := by
        have hfinal : answersOf [superseding, settling] = [] := by
          rw [hsup.answersOf, hset.answersOf]
          rfl
        rw [hfirst.answersOf]
        show List.filterMap _ (loop ++ [superseding, settling]) = _
        rw [List.filterMap_append]
        exact (congrArg _ hfinal).trans (List.append_nil _)
      have hreads : passReads kind (first :: (loop ++ [superseding, settling]))
          = (retainedAt kind [first]).zip (answersOf loop) := by
        rw [passReads, hanswers]
        rfl
      rw [hread, ← hreads] at hchoice hsup
      refine reconciles_settled_iff rfl hfirst hlooped.reading ?_ (chooseOutput_newest hchoice) hsup
        hset hstatus hpreserves hdoc hattempt
      rw [hanswers, hlooped.answers]
      rfl

/-! ## Two passes -/

def demoReconciler : Runner where
  cfg := demoSettings
  owner := 1
  claim := some 1
  rounds := 1

/-- A blocked triage attempt that retains the session `sid`. -/
def demoRetained (ordinal : Nat) (sid : SessionId) : Attempt where
  kind := .triage
  ordinal := ordinal
  operationKey := .triage ordinal
  startedAt := ordinal
  createState := .created
  status := .blocked
  devinSessionId := some sid
  createSentAt := some ordinal
  finishedAt := some 50

/-- A case with two blocked attempts. -/
def demoTwoRetained : Store where
  now := 100
  case := { created := true, state := .humanBlocked, claimedBy := some 1 }
  core := { attempts := [demoRetained 1 0, demoRetained 2 1] }
  sessions := [{ attempt := 0 }, { attempt := 1 }]

def demoOutput : Devin.SessionSnapshot where
  status := "exit"
  statusDetail := ""
  structuredOutput := some "report"
  pullRequests := []

/-- The newer session is gone, and the older one has its output. -/
theorem reconcile_blocked_iff_demo : ∃ l s' out,
    (demoReconciler.reconcileBlocked .triage .humanBlocked).Runs Op.apply (· = ·) demoTwoRetained l
      (.ok out) s' ∧
    Reconciles demoSettings .triage
      ((demoReconciler.reconcileBlocked .triage .humanBlocked).steps l) out := by
  have hrun : (demoReconciler.reconcileBlocked .triage .humanBlocked).Runs Op.apply (· = ·)
      demoTwoRetained _ (.ok _) _ :=
    .act {} rfl (.act { get := .notFound } rfl (.act {} rfl
      (.act { get := .snapshot demoOutput } rfl (.act {} rfl (.act {} rfl (.ret _ _))))))
  refine ⟨_, _, _, hrun,
    ((reconcile_blocked_iff demoReconciler .triage .humanBlocked hrun).2 _ rfl).mpr ?_⟩
  intro _ x hx
  change x ∈ [_, _] at hx
  simp only [List.mem_cons, List.not_mem_nil, or_false] at hx
  rcases hx with rfl | rfl
  · intro herror
    cases herror
  · intro herror
    cases herror

/-- **A failed read does not protect an attempt.** The read of the newer session fails, the older
one has its output, and the newer attempt is closed with its session unread. -/
theorem unread_attempt_cancelled : ∃ l s' out,
    (demoReconciler.reconcileBlocked .triage .humanBlocked).Runs Op.apply (· = ·) demoTwoRetained l
      (.ok out) s' ∧
    s'.core.attempts.map (·.status) = [.running, .cancelled] ∧
    ¬ Reconciles demoSettings .triage
      ((demoReconciler.reconcileBlocked .triage .humanBlocked).steps l) out := by
  have hrun : (demoReconciler.reconcileBlocked .triage .humanBlocked).Runs Op.apply (· = ·)
      demoTwoRetained _ (.ok _) _ :=
    .act {} rfl (.act { get := .error } rfl (.act {} rfl
      (.act { get := .snapshot demoOutput } rfl (.act {} rfl (.act {} rfl (.ret _ _))))))
  refine ⟨_, _, _, hrun, rfl, ?_⟩
  intro h
  have hstays := h.discards.stays (⟨1, demoRetained 2 1⟩, .error) (by
    change _ ∈ [_, _]
    exact List.mem_cons_self) rfl
  have hblocked := hstays _ (List.mem_of_getElem? (i := 4) rfl) _
    ⟨_, _, rfl, List.mem_cons_self⟩ rfl
  cases hblocked

end Remediator
