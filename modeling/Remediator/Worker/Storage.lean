import Remediator.Effects
import Remediator.Runs
import Remediator.Worker.Brittle
import Remediator.Lib.Json
import Remediator.Worker.Loop

set_option autoImplicit false

/-! # Values that PostgreSQL does not store

The worker loop tells database errors that a retry can fix from the others, and stops for the
others. There are values that PostgreSQL does not store, a text with U+0000 among them, and the
values of the columns come from outside.
-/

namespace Remediator

open Interleave

/-! ## Database errors -/

/-- The driver's error behind a `DBAPIError`. -/
inductive DriverError
  | postgres (sqlstate : String)
  /-- `asyncpg.InterfaceError` -/
  | interface
  | other

/-- `DBAPIError`. -/
structure DbApiError where
  connectionInvalidated : Bool := false
  /-- an `OperationalError` -/
  operational : Bool := false
  cause : DriverError

/-- `TRANSIENT_SQLSTATES`. -/
def transientSqlstates : List String :=
  ["40P01", "40001", "55P03", "57P01", "08000", "08003", "08006"]

/-- `is_transient_db_error`. -/
def isTransientDbError (e : DbApiError) : Bool :=
  e.connectionInvalidated || e.operational ||
    match e.cause with
    | .postgres sqlstate => decide (sqlstate ∈ transientSqlstates)
    | .interface => true
    | .other => false

/-- The exception as the callers tell it from others. -/
def DbApiError.fault (e : DbApiError) : Fault :=
  if isTransientDbError e then .transientDb else .data

/-- The errors about a value that is not stored: `data_exception` (the driver cannot encode it),
`string_data_right_truncation`, `numeric_value_out_of_range`, `character_not_in_repertoire`,
`invalid_text_representation` and `untranslatable_character`. -/
def dataSqlstates : List String := ["22000", "22001", "22003", "22021", "22P02", "22P05"]

/-- PostgreSQL does not store a value. -/
def DbApiError.Rejects (e : DbApiError) : Prop :=
  e.connectionInvalidated = false ∧ e.operational = false ∧
    ∃ sqlstate ∈ dataSqlstates, e.cause = .postgres sqlstate

/-- No such error is transient. -/
theorem not_transient_of_data : ∀ sqlstate ∈ dataSqlstates, sqlstate ∉ transientSqlstates := by
  decide

theorem DbApiError.Rejects.fault {e : DbApiError} (h : e.Rejects) : e.fault = .data := by
  obtain ⟨hconnection, hoperational, sqlstate, hmem, hcause⟩ := h
  simp [DbApiError.fault, isTransientDbError, hconnection, hoperational, hcause,
    not_transient_of_data sqlstate hmem]

theorem rejects_iff (i : Input) :
    Rejected i ↔ ∃ e : DbApiError, e.Rejects ∧ i.fault = some e.fault := by
  constructor
  · intro h
    have hrejects : (⟨false, false, .postgres "22P05"⟩ : DbApiError).Rejects :=
      ⟨rfl, rfl, "22P05", by decide, rfl⟩
    exact ⟨_, hrejects, by rw [hrejects.fault]; exact h⟩
  · rintro ⟨e, hrejects, hfault⟩
    rw [hrejects.fault] at hfault
    exact hfault

/-! ## What a transaction stores -/

/-- The input without its fault. -/
def undisturbed (i : Input) : Input := { i with fault := none }

/-- A column that the flush of the object assigns. -/
def Write.assigned {α β : Type} [DecidableEq β] (w : Write α) (column : α → β) : List β :=
  if column w.loaded = column w.changed then [] else [column w.changed]

/-- A value that a transaction sets out to store: a text by its code points, surrogates included,
with the length that its column allows; a number in a JSON document; an integer. -/
inductive Cell
  | text (limit : Option Nat) (points : List Nat)
  | number (n : Json.Number)
  | integer (n : Int)

/-- The database behind the driver. -/
structure Database where
  /-- the code points of a text of the model -/
  points : String → List Nat
  /-- the keys, the texts and the numbers of a JSON document -/
  document : Doc → List Cell
  /-- the values in the columns that no modelled function reads (the reported status, error
  messages, reasons) -/
  columns : Prog.Step Store Input Op → List Cell
  /-- it does not store the value -/
  refuses : Cell → Prop
  nul : ∀ limit points, 0 ∈ points → refuses (.text limit points)

/-- A text in a column. -/
def Database.text (db : Database) (limit : Option Nat) (text : String) : Cell :=
  .text limit (db.points text)

/-- The values from outside in the columns of an attempt. -/
def Database.attempt (db : Database) (w : Write Attempt) : List Cell :=
  (w.assigned (·.structuredOutput)).flatMap (fun d => d.toList.flatMap db.document) ++
    (w.assigned (·.devinPullRequests)).flatten.map (db.text none) ++
    (w.assigned (·.prUrl)).flatMap (fun url => url.toList.map (db.text none)) ++
    (w.assigned (·.prNumber)).flatMap (fun n => n.toList.map (fun n => .integer n)) ++
    (w.assigned (·.branch)).flatMap (fun branch => branch.toList.map (db.text (some 255))) ++
    (w.assigned (·.headSha)).flatMap (fun sha => sha.toList.map (db.text (some 64)))

/-- The texts and the numbers of a probe's result. -/
def Database.result (db : Database) (result : ProbeRunResult) : List Cell :=
  [db.text (some 32) result.runnerMode, db.text none result.commandIdentity,
    .integer result.durationMs, db.text none result.stdout, db.text none result.stderr] ++
    result.exitCode.toList.map .integer ++
    result.infrastructureError.toList.map (db.text none) ++
    result.failureStage.toList.map (db.text (some 32)) ++
    result.toolVersions.flatMap (fun version => [db.text none version.1, db.text none version.2])

/-- The values from outside in the columns of a probe execution. -/
def Database.execution (db : Database) (e : ProbeExecution) : List Cell :=
  db.text (some 64) e.commitSha :: db.text (some 64) e.scriptHash :: .integer e.expectedExitCode ::
    db.result {
      runnerMode := e.runnerMode, commandIdentity := e.commandIdentity, exitCode := e.exitCode
      stdout := e.stdout, stderr := e.stderr, durationMs := e.durationMs.getD 0
      infrastructureError := e.error, failureStage := e.failureStage
      toolVersions := e.toolVersions.getD [] }

/-- The values from outside that a transaction stores. -/
def Database.cells (db : Database) (t : Txn) : List Cell :=
  t.writes.flatMap db.attempt ++ t.executions.flatMap db.execution ++
    t.evidence.flatMap (fun e => [db.text none e.prUrl, db.text (some 64) e.headSha]) ++
    t.ciSnapshots.map (fun c => db.text (some 64) c.headSha) ++
    t.decisions.map (fun d => db.text (some 64) d.baseSha)

/-- The values that an action of the run sets out to store. -/
def Database.stored (db : Database) (step : Prog.Step Store Input Op) : List Cell :=
  match step.op with
  | .commit _ t => db.cells t ++ db.columns step
  | _ => []

/-- What PostgreSQL and its driver are known to refuse: a text with U+0000, with a surrogate or
longer than its column, a JSON number that is not finite, an integer beyond 32 bits. -/
def Refused : Cell → Prop
  | .text limit points => 0 ∈ points ∨ (∃ p ∈ points, 0xD800 ≤ p ∧ p < 0xE000) ∨
      limit.any (fun n => decide (n < points.length)) = true
  | .number (.infinite _) | .number .nan => True
  | .number _ => False
  | .integer n => n < -2147483648 ∨ 2147483648 ≤ n

instance : DecidablePred Refused
  | .text _ _ => inferInstanceAs (Decidable (_ ∨ _ ∨ _))
  | .number (.int _) => isFalse not_false
  | .number (.finite _) => isFalse not_false
  | .number .negativeZero => isFalse not_false
  | .number (.infinite _) => isTrue trivial
  | .number .nan => isTrue trivial
  | .integer _ => inferInstanceAs (Decidable (_ ∨ _))

/-- PostgreSQL during one action: the connection holds, a transaction meets nothing unexpected,
and it is rejected exactly when one of its values is refused. -/
structure Postgres (db : Database) (step : Prog.Step Store Input Op) : Prop where
  connected : step.answer.fault ≠ some .transientDb
  expected : (∃ o t, step.op = .commit o t) → step.answer.fault ≠ some .other
  rejects : (∃ e : DbApiError, e.Rejects ∧ step.answer.fault = some e.fault) ↔
    ∃ cell ∈ db.stored step, db.refuses cell

/-! ## The loop -/

/-- `_run_job` of a claimed event or of the claimed case. -/
def Worker.runJob (w : Worker) : Option Nat → P Unit
  | some id => w.runner.processEvent id
  | none => w.runCase

/-- The exception handlers of `_iterate`. -/
def Worker.onError (w : Worker) : Option Nat → Err → P Unit
  | some id => w.onEventError id
  | none => w.onCaseError

/-- The `finally` of `_iterate`. -/
def Worker.release (w : Worker) : Option Nat → P Unit
  | some id => w.releaseEvent id
  | none => w.releaseCase

/-- What `_iterate` does with a claimed event or with the claimed case. -/
def Worker.work (w : Worker) (event : Option Nat) : P Unit :=
  withFinally (rescue (w.runJob event) (w.onError event)) (w.release event)

/-- One round of `_run_loop`: only a transient database error is survived. -/
def Worker.runLoop (_ : Worker) (iteration : P Unit) : P Unit :=
  rescue iteration (fun e => if e = .transientDb then pure () else throw e)

/-- The loop goes on after the round. An `IntegrityError`, which rows of other workers cause, does
not count; `halt` is a run that is followed no further. -/
def Survives (r : Except Err Unit) : Prop := ∀ e, r = .error e → e = .halt ∨ e = .integrity

/-- The handler's transaction from `s` to `s'` records the failure on the case. It leaves a case
that has ended, and one that the lifecycle or the claim of another worker keeps where it is. -/
def FailureRecorded (w : Worker) (s s' : Store) : Prop :=
  s'.case.state ∈ [.failed, .remediationFailed, .terminationPending,
    .remediationTerminationPending] ∨
  s.case.state.terminal = true ∨
  movesOk (failCase (some w.owner) s.case.state w.runner.txn s).1.moves s.case = false

/-- What becomes of the case when its job ends in `r`: it has been advanced or parked, or it is
given up to the worker that changed it or to a later round, or the failure is recorded. -/
def Accounted (w : Worker) (event : Option Nat) (R : Store → Store → Prop) (s : Store) :
    Except Err Unit → Prop
  | .ok () => True
  | .error .halt | .error .invalidTransition | .error .transientDb | .error .integrity => True
  | .error .data => False
  | .error e => ∃ i s₁ s', (w.onError event e).Runs Op.apply R s [(i, s₁)] (.ok ()) s' ∧
      ((∀ id ∈ event, ∃ row, s₁.events[id]? = some row ∧ row.hasCase = true) →
        FailureRecorded w s₁ s')

/-- The loop goes on after the round, and the case is accounted for. -/
structure Contained (w : Worker) (event : Option Nat) (R : Store → Store → Prop) (s : Store)
    (l : List (Input × Store)) (r : Except Err Unit) : Prop where
  survives : Survives r
  accounted : ∃ l₁ l₂ job s₁, l = l₁ ++ l₂ ∧ (w.runJob event).Runs Op.apply R s l₁ job s₁ ∧
    Accounted w event R s₁ job

/-! ## Programs that end sharply -/

section Sharp

variable {db : Database} {E : Err → Prop} {α β : Type}

/-- An action of the run was rejected. -/
def Broken (steps : List (Prog.Step Store Input Op)) : Prop := ∃ step ∈ steps, Rejected step.answer

theorem broken_append {l l' : List (Prog.Step Store Input Op)} :
    Broken (l ++ l') ↔ Broken l ∨ Broken l' := by
  simp only [Broken, List.mem_append, or_and_right, exists_or]

/-- On PostgreSQL the program ends with the exception of a rejected value exactly when there was
one; the exceptions it ends with satisfy `E`. -/
def Sharp (db : Database) (E : Err → Prop) (p : P α) : Prop :=
  ∀ (R : Store → Store → Prop) (s s' : Store) (l : List (Input × Store)) (r : Except Err α),
    p.Runs Op.apply R s l r s' →
    (∀ step ∈ p.stepsBy undisturbed l, Postgres db step) →
    (r = .error .data ↔ Broken (p.stepsBy undisturbed l)) ∧ ∀ e, r = .error e → E e

theorem Sharp.of_breaks {p : P α} (h : Breaks p) : Sharp db (fun _ => True) p :=
  fun _ _ _ _ _ hrun _ => ⟨h.runs_iff hrun undisturbed, fun _ _ => trivial⟩

theorem Sharp.ret (a : α) : Sharp db E (.ret a : P α) := by
  intro R s s' l r hrun hpg
  obtain ⟨rfl, rfl, rfl⟩ := hrun.ret_inv
  refine ⟨iff_of_false nofun ?_, nofun⟩
  rintro ⟨step, hstep, -⟩
  cases hstep

theorem Sharp.raise {e : Err} (hE : E e) (hdata : e ≠ .data) :
    Sharp db E (.raise e : P α) := by
  intro R s s' l r hrun hpg
  obtain ⟨rfl, rfl, rfl⟩ := hrun.raise_inv
  refine ⟨iff_of_false ?_ ?_, ?_⟩
  · intro h
    cases h
    exact hdata rfl
  · rintro ⟨step, hstep, -⟩
    cases hstep
  · intro e' h
    cases h
    exact hE

theorem Sharp.bind {p : P α} {k : α → P β} (hp : Sharp db E p)
    (hk : ∀ a, Sharp db E (k a)) : Sharp db E (p >>= k) := by
  intro R s s' l r hrun hpg
  rcases Prog.Runs.bind_inv hrun with ⟨e, rfl, hpe⟩ | ⟨a, s₁, l₁, l₂, rfl, hpa, hka⟩
  · rw [Prog.bind_eq, hpe.stepsBy_bind_error] at hpg ⊢
    obtain ⟨hiff, hE⟩ := hp R s s' l _ hpe hpg
    refine ⟨Iff.trans ?_ hiff, fun e' h => hE e' ?_⟩
    · simp
    · cases h
      rfl
  · rw [Prog.bind_eq, hpa.stepsBy_bind] at hpg ⊢
    obtain ⟨hiff₁, -⟩ := hp R s s₁ l₁ _ hpa (fun step h => hpg step (List.mem_append_left _ h))
    obtain ⟨hiff₂, hE⟩ := hk a R s₁ s' l₂ r hka (fun step h => hpg step (List.mem_append_right _ h))
    refine ⟨?_, hE⟩
    have hwhole : ¬ Broken (p.stepsBy undisturbed l₁) := fun hb => nomatch hiff₁.mpr hb
    rw [broken_append, hiff₂]
    exact ⟨Or.inr, fun h => h.resolve_left hwhole⟩

theorem Sharp.ite {c : Prop} [Decidable c] {p q : P α} (hp : Sharp db E p)
    (hq : Sharp db E q) : Sharp db E (if c then p else q) := by
  split
  · exact hp
  · exact hq

/-- The transaction commits whatever the input: its moves are possible, and it inserts no
attempt. -/
def Possible (body : Input → Store → Except Err (Txn × α)) : Prop :=
  ∀ i s, ∃ t a, body i s = .ok (t, a) ∧ movesOk t.moves s.case = true ∧ t.insert = none

/-- Such a transaction is either committed or rejected. -/
theorem runs_possible {o : Owner} {body : Input → Store → Except Err (Txn × α)}
    (h : Possible body) {R : Store → Store → Prop} {s s' : Store} {l : List (Input × Store)}
    {r : Except Err α} (hrun : (tx o body).Runs Op.apply R s l r s')
    (hpg : ∀ step ∈ (tx o body).stepsBy undisturbed l, Postgres db step) :
    ∃ i s₁, l = [(i, s₁)] ∧
      ((∃ t a, body i s₁ = .ok (t, a) ∧ r = .ok a ∧ s' = (Op.commit o t).apply s₁) ∨
        (Rejected i ∧ r = .error .data)) := by
  -- without a fault the body is committed
  have hcommit : ∀ i s, i.fault = none →
      ∃ t a, body i s = .ok (t, a) ∧ Txn.outcome body i s = .ok (t, a) := by
    intro i s hfault
    obtain ⟨t, a, hok, hmoves, hinsert⟩ := h i s
    exact ⟨t, a, hok, by simp [Txn.outcome, hfault, hok, hmoves, Txn.unique, hinsert]⟩
  obtain ⟨i, s₁, -, rfl, hout⟩ := runs_tx hrun
  refine ⟨i, s₁, rfl, ?_⟩
  have hstep := hpg _ List.mem_cons_self
  obtain ⟨t, a, -, hintent⟩ := hcommit (undisturbed i) s₁ rfl
  have hother : i.fault ≠ some .other := hstep.expected ⟨o, t, by simp only [hintent]⟩
  have hconnected : i.fault ≠ some .transientDb := hstep.connected
  cases hf : i.fault with
  | none =>
      obtain ⟨t, a, hbody, hok⟩ := hcommit i s₁ hf
      rw [hok] at hout
      exact Or.inl ⟨t, a, hbody, hout⟩
  | some f =>
      cases f with
      | transientDb => exact absurd hf hconnected
      | other => exact absurd hf hother
      | data =>
          simp only [Txn.outcome, hf] at hout
          exact Or.inr ⟨hf, hout.1⟩

theorem Sharp.tx {o : Owner} {body : Input → Store → Except Err (Txn × α)} (hE : E .data)
    (h : Possible body) : Sharp db E (Remediator.tx o body) := by
  have hbreaks : Breaks (Remediator.tx o body) := Breaks.tx (fun i s hbody => by
    obtain ⟨t, a, hok, -⟩ := h i s
    rw [hok] at hbody
    cases hbody)
  intro R s s' l r hrun hpg
  refine ⟨hbreaks.runs_iff hrun undisturbed, fun e he => ?_⟩
  obtain ⟨i, s₁, -, ⟨t, a, -, hr, -⟩ | ⟨-, hr⟩⟩ := runs_possible h hrun hpg
  · cases hr.symm.trans he
  · cases hr.symm.trans he
    exact hE

/-- A handler around a program. -/
theorem Sharp.rescue {p : P α} {h : Err → P α} {F : Err → Prop} (hp : Sharp db F p)
    (hpass : h .data = .raise .data) (hdata : E .data) (hhalt : E .halt)
    (hh : ∀ e, e ≠ .data → F e → Sharp db E (h e)) :
    Sharp db E (Remediator.rescue p h) := by
  intro R s s' l r hrun hpg
  rcases rescue_inv hrun with ⟨hend, hpr, hview⟩ | ⟨e, s₁, l₁, l₂, -, rfl, hpe, hrest, hview⟩
  · rw [hview] at hpg ⊢
    obtain ⟨hiff, -⟩ := hp R s s' l r hpr hpg
    refine ⟨hiff, fun e he => ?_⟩
    rcases hend with ⟨a, ha⟩ | hhalted
    · cases ha.symm.trans he
    · cases hhalted.symm.trans he
      exact hhalt
  · rw [hview] at hpg ⊢
    obtain ⟨hiff₁, hF⟩ := hp R s s₁ l₁ _ hpe (fun step hm => hpg step (List.mem_append_left _ hm))
    rw [broken_append]
    by_cases hd : e = .data
    · -- the exception of the rejected value passes
      subst hd
      rw [hpass] at hrest
      obtain ⟨-, rfl, -⟩ := hrest.raise_inv
      refine ⟨iff_of_true rfl (Or.inl (hiff₁.mp rfl)), fun e' he => ?_⟩
      cases he
      exact hdata
    · obtain ⟨hiff₂, hE⟩ := hh e hd (hF e rfl) R s₁ s' l₂ r hrest
        (fun step hm => hpg step (List.mem_append_right _ hm))
      refine ⟨?_, hE⟩
      have hwhole : ¬ Broken (p.stepsBy undisturbed l₁) := by
        intro hb
        cases hiff₁.mpr hb
        exact hd rfl
      rw [hiff₂]
      exact ⟨Or.inr, fun hb => hb.resolve_left hwhole⟩

/-- What follows an exception before it is raised again either succeeds or is rejected itself. -/
theorem Sharp.reraise {fin : P Unit} {e : Err} (hfin : Sharp db (· = .data) fin)
    {R : Store → Store → Prop} {s s' : Store} {l : List (Input × Store)} {r : Except Err α}
    (hrun : (fin >>= fun _ => .raise e).Runs Op.apply R s l r s')
    (hpg : ∀ step ∈ (fin >>= fun _ => (.raise e : P α)).stepsBy undisturbed l,
      Postgres db step) :
    (r = .error .data ∧ Broken ((fin >>= fun _ => (.raise e : P α)).stepsBy undisturbed l)) ∨
      (r = .error e ∧ ¬ Broken ((fin >>= fun _ => (.raise e : P α)).stepsBy undisturbed l)) := by
  rcases Prog.Runs.bind_inv hrun with ⟨e', rfl, hfe⟩ | ⟨u, s₁, l₁, l₂, rfl, hfa, hraise⟩
  · rw [Prog.bind_eq, hfe.stepsBy_bind_error] at hpg ⊢
    obtain ⟨hiff, hE⟩ := hfin R s s' l _ hfe hpg
    cases hE e' rfl
    exact Or.inl ⟨rfl, hiff.mp rfl⟩
  · obtain ⟨rfl, rfl, -⟩ := hraise.raise_inv
    rw [Prog.bind_eq, hfa.stepsBy_bind, Prog.stepsBy_nil, List.append_nil] at hpg ⊢
    obtain ⟨hiff, -⟩ := hfin R s s₁ l₁ _ hfa hpg
    exact Or.inr ⟨rfl, fun hb => nomatch hiff.mpr hb⟩

theorem Sharp.withFinally {p fin : P Unit} (hp : Sharp db E p)
    (hfin : Sharp db (· = .data) fin) (hdata : E .data) :
    Sharp db E (Remediator.withFinally p fin) := by
  have hcleanup : Sharp db E
      (Remediator.rescue p (fun e => fin >>= fun _ => throw e)) := by
    intro R s s' l r hrun hpg
    rcases rescue_inv hrun with ⟨hend, hpr, hview⟩ | ⟨e, s₁, l₁, l₂, -, rfl, hpe, hrest, hview⟩
    · rw [hview] at hpg ⊢
      exact hp R s s' l r hpr hpg
    · rw [hview] at hpg ⊢
      obtain ⟨hiff, hE⟩ := hp R s s₁ l₁ _ hpe
        (fun step hm => hpg step (List.mem_append_left _ hm))
      rw [broken_append]
      rcases Sharp.reraise hfin hrest (fun step hm => hpg step (List.mem_append_right _ hm)) with
        ⟨rfl, hbroken⟩ | ⟨rfl, hwhole⟩
      · refine ⟨iff_of_true rfl (Or.inr hbroken), fun e' he => ?_⟩
        cases he
        exact hdata
      · refine ⟨?_, fun e' he => ?_⟩
        · rw [← hiff]
          constructor
          · intro he
            cases he
            exact Or.inl rfl
          · rintro (he | hb)
            · cases he
              rfl
            · exact absurd hb hwhole
        · cases he
          exact hE e rfl
  refine Sharp.bind hcleanup (fun _ => ?_)
  intro R s s' l r hrun hpg
  obtain ⟨hiff, hE⟩ := hfin R s s' l r hrun hpg
  refine ⟨hiff, fun e he => ?_⟩
  rw [hE e he]
  exact hdata

end Sharp

/-! ## The first part of a program -/

section Front

variable {α β γ : Type}

/-- Every run of `q` begins with a run of `p`. -/
def Front (p : P α) (q : P β) : Prop :=
  ∀ (R : Store → Store → Prop) (s s' : Store) (l : List (Input × Store)) (r : Except Err β),
    q.Runs Op.apply R s l r s' →
    ∃ l₁ l₂ r₁ s₁, l = l₁ ++ l₂ ∧ p.Runs Op.apply R s l₁ r₁ s₁ ∧
      ∀ view, p.stepsBy view l₁ <+: q.stepsBy view l

theorem Front.bind (p : P α) (k : α → P β) : Front p (p >>= k) := by
  intro R s s' l r hrun
  rcases Prog.Runs.bind_inv hrun with ⟨e, -, hp⟩ | ⟨a, s₁, l₁, l₂, rfl, hp, -⟩
  · refine ⟨l, [], _, s', (List.append_nil l).symm, hp, fun view => ?_⟩
    have hview : (p >>= k).stepsBy view l = p.stepsBy view l := hp.stepsBy_bind_error
    exact hview ▸ List.prefix_refl _
  · refine ⟨l₁, l₂, _, s₁, rfl, hp, fun view => ?_⟩
    rw [Prog.bind_eq, hp.stepsBy_bind]
    exact List.prefix_append _ _

theorem Front.rescue (p : P α) (h : Err → P α) : Front p (Remediator.rescue p h) := by
  intro R s s' l r hrun
  rcases rescue_inv hrun with ⟨-, hp, hview⟩ | ⟨e, s₁, l₁, l₂, -, rfl, hp, -, hview⟩
  · exact ⟨l, [], _, s', (List.append_nil l).symm, hp, fun view => hview view ▸ List.prefix_refl _⟩
  · refine ⟨l₁, l₂, _, s₁, rfl, hp, fun view => ?_⟩
    rw [hview]
    exact List.prefix_append _ _

theorem Front.trans {p : P α} {q : P β} {t : P γ} (hpq : Front p q) (hqt : Front q t) :
    Front p t := by
  intro R s s' l r hrun
  obtain ⟨l₁, l₂, r₁, s₁, rfl, hq, hviewq⟩ := hqt R s s' l r hrun
  obtain ⟨l₃, l₄, r₃, s₃, rfl, hp, hviewp⟩ := hpq R s s₁ l₁ r₁ hq
  refine ⟨l₃, l₄ ++ l₂, r₃, s₃, List.append_assoc _ _ _, hp, fun view => ?_⟩
  exact (hviewp view).trans (hviewq view)

theorem runLoop_front (w : Worker) (event : Option Nat) :
    Front (rescue (w.runJob event) (w.onError event)) (w.runLoop (w.work event)) :=
  .trans (.trans (.rescue _ _) (.bind _ _)) (.rescue _ _)

end Front

/-! ## The handlers of the loop -/

section Worker

variable {db : Database} (w : Worker)

theorem releaseCase_sharp : Sharp db (· = .data) w.releaseCase :=
  .tx rfl (fun _ _ => ⟨_, _, rfl, rfl, rfl⟩)

theorem releaseEvent_sharp (id : Nat) : Sharp db (· = .data) (w.releaseEvent id) := by
  refine Sharp.bind (.tx rfl (fun _ _ => ⟨_, _, rfl, rfl, rfl⟩)) (fun hasCase => ?_)
  have hlast : Sharp db (· = .data) (tx w.owner (fun _ s => .ok ({ w.txn with
      eventWrites := ((s.events[id]?).bind (fun row =>
        if row.claimedBy = some w.owner then
          some (⟨id, row, { row with claimedBy := none, leaseExpiresAt := none }⟩ :
            Write WebhookEvent)
        else none)).toList }, ()))) := .tx rfl (fun _ _ => ⟨_, _, rfl, rfl, rfl⟩)
  exact .ite (.bind (releaseCase_sharp w) (fun _ => hlast)) hlast

/-- A failure that cannot be recorded is left out, so that the transaction is possible. -/
theorem markFailed_possible {t : Txn} {s : Store} (hm : t.moves = []) (hn : t.insert = none) :
    movesOk (w.markFailed t s).moves s.case = true ∧ (w.markFailed t s).insert = none := by
  have hinsert : (failCase (some w.owner) s.case.state t s).1.insert = none := by
    unfold failCase
    dsimp only
    split
    · exact hn
    · split
      · exact hn
      · split
        · exact hn
        · exact hn
  unfold Worker.markFailed
  dsimp only
  split
  · next hok => exact ⟨hok, hinsert⟩
  · rw [hm]
    exact ⟨rfl, hn⟩

/-- What leaves the handlers. -/
def Passed (e : Err) : Prop := e = .halt ∨ e = .integrity ∨ e = .data

theorem onCaseError_sharp {e : Err} (he : e ≠ .data) :
    Sharp db Passed (w.onCaseError e) := by
  have hdata : Passed .data := Or.inr (Or.inr rfl)
  unfold Worker.onCaseError
  split
  · refine Sharp.bind (.tx hdata (fun _ _ => ⟨_, _, rfl, rfl, rfl⟩)) (fun _ => ?_)
    exact .tx hdata (fun _ _ => ⟨_, _, rfl, rfl, rfl⟩)
  · exact .ret ()
  · exact absurd rfl he
  · exact .raise (Or.inr (Or.inl rfl)) (by decide)
  · refine Sharp.tx hdata (fun _ s => ⟨_, _, rfl, ?_⟩)
    exact markFailed_possible w rfl rfl

theorem onEventError_possible (id : Nat) : Possible (fun (_ : Input) (s : Store) =>
    match s.events[id]? with
    | none => Except.ok (w.txn, ())
    | some row =>
        let t := { w.runner.txn with eventWrites := [⟨id, row, { row with
          status := .failed, processedAt := some s.now }⟩] }
        Except.ok (if row.hasCase then w.markFailed t s else t, ())) := by
  intro i s
  dsimp only
  cases s.events[id]? with
  | none => exact ⟨_, _, rfl, rfl, rfl⟩
  | some row =>
      refine ⟨_, _, rfl, ?_⟩
      split
      · exact markFailed_possible w rfl rfl
      · exact ⟨rfl, rfl⟩

theorem onEventError_sharp (id : Nat) {e : Err} (he : e ≠ .data) :
    Sharp db Passed (w.onEventError id e) := by
  have hdata : Passed .data := Or.inr (Or.inr rfl)
  unfold Worker.onEventError
  split
  · refine Sharp.tx hdata (fun _ s => ?_)
    cases s.events[id]? with
    | none => exact ⟨_, _, rfl, rfl, rfl⟩
    | some row => exact ⟨_, _, rfl, rfl, rfl⟩
  · exact .ret ()
  · exact absurd rfl he
  · exact .raise (Or.inr (Or.inl rfl)) (by decide)
  · exact Sharp.tx hdata (onEventError_possible w id)

theorem runCase_breaks : Breaks w.runCase :=
  .bind .write (fun x => processCase_breaks w.runner x.1 x.2)

theorem runJob_breaks (event : Option Nat) : Breaks (w.runJob event) := by
  cases event with
  | none => exact runCase_breaks w
  | some id => exact processEvent_breaks w.runner id

theorem onError_sharp (event : Option Nat) {e : Err} (he : e ≠ .data) :
    Sharp db Passed (w.onError event e) := by
  cases event with
  | none => exact onCaseError_sharp w he
  | some id => exact onEventError_sharp w id he

theorem onError_data (event : Option Nat) : w.onError event .data = .raise .data := by
  cases event <;> rfl

theorem release_sharp (event : Option Nat) :
    Sharp db (· = .data) (w.release event) := by
  cases event with
  | none => exact releaseCase_sharp w
  | some id => exact releaseEvent_sharp w id

theorem work_sharp (event : Option Nat) : Sharp db Passed (w.work event) :=
  .withFinally (.rescue (.of_breaks (runJob_breaks w event)) (onError_data w event)
    (Or.inr (Or.inr rfl)) (Or.inl rfl) (fun _ he _ => onError_sharp w event he))
    (release_sharp w event) (Or.inr (Or.inr rfl))

theorem runLoop_sharp (event : Option Nat) :
    Sharp db Passed (w.runLoop (w.work event)) := by
  refine Sharp.rescue (work_sharp w event) rfl (Or.inr (Or.inr rfl)) (Or.inl rfl)
    (fun e he hpass => ?_)
  split
  · exact .ret ()
  · exact .raise hpass he

/-- A failure reads only the moves and the writes of the transaction that it is added to. -/
theorem failCase_moves {claim : Option Owner} {st : CaseState} {t t' : Txn} {s : Store}
    (hmoves : t.moves = t'.moves) (hwrites : t.writes = t'.writes) :
    (failCase claim st t s).1.moves = (failCase claim st t' s).1.moves := by
  by_cases hterminal : st.terminal = true
  · simp [failCase, hterminal, hmoves]
  · by_cases hlive : (parkWrites (flush Attempt.merge t'.writes s.core.attempts)).isEmpty = true
    · simp only [failCase, Txn.attempts, hterminal, hwrites, hlive, hmoves, if_true, if_false,
        Bool.false_eq_true]
    · by_cases hpending : st = (phaseForState st).terminationPending
      · simp only [failCase, Txn.attempts, hterminal, hwrites, hlive, hmoves, if_pos hpending,
          if_false, Bool.false_eq_true]
      · simp only [failCase, Txn.attempts, hterminal, hwrites, hlive, hmoves, if_neg hpending,
          if_false, Bool.false_eq_true]

theorem failCase_ends {claim : Option Owner} {st : CaseState} {t : Txn} {s : Store}
    (hmoves : t.moves = []) :
    st.terminal = true ∨ movesEnd (failCase claim st t s).1.moves st ∈
      [.failed, .remediationFailed, .terminationPending, .remediationTerminationPending] := by
  have hphase : phaseForState st = remediationPhase ∨ phaseForState st = triagePhase := by
    unfold phaseForState
    split
    · exact Or.inl rfl
    · exact Or.inr rfl
  unfold failCase
  dsimp only
  split
  · next hterminal => exact Or.inl hterminal
  · refine Or.inr ?_
    rw [hmoves]
    split
    · rcases hphase with h | h <;> rw [h] <;> simp [movesEnd, remediationPhase, triagePhase]
    · split
      · next hpending =>
          rcases hphase with h | h <;> rw [h] at hpending <;>
            simp [movesEnd, hpending, remediationPhase, triagePhase]
      · rcases hphase with h | h <;> rw [h] <;> simp [movesEnd, remediationPhase, triagePhase]

/-- The transaction that fails the case records it. -/
theorem markFailed_records {t : Txn} {s : Store} (hmoves : t.moves = []) (hwrites : t.writes = []) :
    FailureRecorded w s ((Op.commit w.owner (w.markFailed t s)).apply s) := by
  have hsame := @failCase_moves (some w.owner) s.case.state t w.runner.txn s hmoves hwrites
  by_cases hok : movesOk (failCase (some w.owner) s.case.state t s).1.moves s.case = true
  · have hmark : w.markFailed t s = (failCase (some w.owner) s.case.state t s).1 := if_pos hok
    rcases @failCase_ends (some w.owner) s.case.state t s hmoves with h | h
    · exact Or.inr (Or.inl h)
    · refine Or.inl ?_
      rw [hmark]
      exact h
  · refine Or.inr (Or.inr ?_)
    rw [← hsame]
    exact Bool.eq_false_iff.mpr hok

/-- An exception that the handlers have no branch of its own for. -/
def Unexpected (e : Err) : Prop := e = .other ∨ e = .capacityWait ∨ e = .transientVerification

/-- A failure that nothing else is known about is recorded. -/
theorem onError_records (event : Option Nat) {e : Err} (he : Unexpected e)
    {R : Store → Store → Prop} {s s' : Store} {l : List (Input × Store)} {r : Except Err Unit}
    (hrun : (w.onError event e).Runs Op.apply R s l r s')
    (hpg : ∀ step ∈ (w.onError event e).stepsBy undisturbed l, Postgres db step)
    (hwhole : ¬ Broken ((w.onError event e).stepsBy undisturbed l)) :
    ∃ i s₁, l = [(i, s₁)] ∧ r = .ok () ∧
      ((∀ id ∈ event, ∃ row, s₁.events[id]? = some row ∧ row.hasCase = true) →
        FailureRecorded w s₁ s') := by
  cases event with
  | none =>
      have heq : w.onError none e =
          tx w.owner (fun _ s => .ok (w.markFailed w.runner.txn s, ())) := by
        rcases he with rfl | rfl | rfl <;> rfl
      rw [heq] at hrun hpg hwhole
      obtain ⟨i, s₁, rfl, ⟨t, a, hbody, hr, rfl⟩ | ⟨hrejected, -⟩⟩ :=
        runs_possible (fun _ s => ⟨_, _, rfl, markFailed_possible w rfl rfl⟩) hrun hpg
      · cases hbody
        exact ⟨i, s₁, rfl, hr, fun _ => markFailed_records w rfl rfl⟩
      · exact absurd ⟨_, List.mem_cons_self, hrejected⟩ hwhole
  | some id =>
      have heq : w.onError (some id) e = tx w.owner (fun _ s =>
          match s.events[id]? with
          | none => .ok (w.txn, ())
          | some row =>
              let t := { w.runner.txn with eventWrites := [⟨id, row, { row with
                status := .failed, processedAt := some s.now }⟩] }
              .ok (if row.hasCase then w.markFailed t s else t, ())) := by
        rcases he with rfl | rfl | rfl <;> rfl
      rw [heq] at hrun hpg hwhole
      obtain ⟨i, s₁, rfl, ⟨t, a, hbody, hr, rfl⟩ | ⟨hrejected, -⟩⟩ :=
        runs_possible (onEventError_possible w id) hrun hpg
      · refine ⟨i, s₁, rfl, hr, fun hcase => ?_⟩
        obtain ⟨row, hrow, hhas⟩ := hcase id rfl
        simp only [hrow, hhas, if_true] at hbody
        cases hbody
        exact markFailed_records w rfl rfl
      · exact absurd ⟨_, List.mem_cons_self, hrejected⟩ hwhole

/-- A job that meets no rejected value leaves the case accounted for. -/
theorem job_accounted (event : Option Nat) {R : Store → Store → Prop} {s s' : Store}
    {l : List (Input × Store)} {r : Except Err Unit}
    (hrun : (rescue (w.runJob event) (w.onError event)).Runs Op.apply R s l r s')
    (hpg : ∀ step ∈ (rescue (w.runJob event) (w.onError event)).stepsBy undisturbed l,
      Postgres db step)
    (hwhole : ¬ Broken ((rescue (w.runJob event) (w.onError event)).stepsBy undisturbed l)) :
    ∃ l₁ l₂ job s₁, l = l₁ ++ l₂ ∧ (w.runJob event).Runs Op.apply R s l₁ job s₁ ∧
      Accounted w event R s₁ job := by
  rcases rescue_inv hrun with ⟨hend, hjob, -⟩ | ⟨e, s₁, l₁, l₂, -, rfl, hjob, hhandler, hview⟩
  · refine ⟨l, [], r, s', (List.append_nil l).symm, hjob, ?_⟩
    rcases hend with ⟨a, rfl⟩ | rfl
    · trivial
    · trivial
  · refine ⟨l₁, l₂, _, s₁, rfl, hjob, ?_⟩
    rw [hview] at hpg hwhole
    rw [broken_append, not_or] at hwhole
    have hrecords : Unexpected e → ∃ i s₂ s₃,
        (w.onError event e).Runs Op.apply R s₁ [(i, s₂)] (.ok ()) s₃ ∧
        ((∀ id ∈ event, ∃ row, s₂.events[id]? = some row ∧ row.hasCase = true) →
          FailureRecorded w s₂ s₃) := by
      intro he
      obtain ⟨i, s₂, rfl, rfl, hrecorded⟩ := onError_records w event he hhandler
        (fun step hm => hpg step (List.mem_append_right _ hm)) hwhole.2
      exact ⟨i, s₂, s', hhandler, hrecorded⟩
    cases e with
    | data => exact hwhole.1 (((runJob_breaks w event).runs_iff hjob undisturbed).mp rfl)
    | invalidTransition => trivial
    | transientDb => trivial
    | integrity => trivial
    | halt => trivial
    | capacityWait => exact hrecords (Or.inr (Or.inl rfl))
    | transientVerification => exact hrecords (Or.inr (Or.inr rfl))
    | other => exact hrecords (Or.inl rfl)

end Worker

/-! ## The round of the loop -/

/-- **A value that is refused stops the worker, and only it does.** On a database that refuses
texts with U+0000, and whatever else it refuses, the loop goes on after the work on a claimed case
or event, with the case accounted for, if and only if no transaction of the round sets out to
store a value that is refused. -/
theorem loop_survives_iff {db : Database} {w : Worker} {event : Option Nat}
    {R : Store → Store → Prop} {s s' : Store} {l : List (Input × Store)} {r : Except Err Unit}
    (hrun : (w.runLoop (w.work event)).Runs Op.apply R s l r s')
    (hpg : ∀ step ∈ (w.runLoop (w.work event)).stepsBy undisturbed l,
      Postgres db step) :
    Contained w event R s l r ↔ ∀ step ∈ (w.runLoop (w.work event)).stepsBy undisturbed l,
      ∀ cell ∈ db.stored step, ¬ db.refuses cell := by
  obtain ⟨hiff, hpassed⟩ := runLoop_sharp w event R s s' l r hrun hpg
  constructor
  · intro h step hstep cell hcell hrefused
    have hrejected : Rejected step.answer :=
      (rejects_iff _).mpr ((hpg step hstep).rejects.mpr ⟨cell, hcell, hrefused⟩)
    rcases h.survives .data (hiff.mpr ⟨step, hstep, hrejected⟩) with he | he
    · cases he
    · cases he
  · intro hclean
    have hwhole : ¬ Broken ((w.runLoop (w.work event)).stepsBy undisturbed l) := by
      rintro ⟨step, hstep, hrejected⟩
      obtain ⟨cell, hcell, hrefused⟩ := (hpg step hstep).rejects.mp ((rejects_iff _).mp hrejected)
      exact hclean step hstep cell hcell hrefused
    refine ⟨fun e he => ?_, ?_⟩
    · rcases hpassed e he with hhalt | hintegrity | hdata
      · exact Or.inl hhalt
      · exact Or.inr hintegrity
      · rw [hdata] at he
        exact absurd (hiff.mp he) hwhole
    · obtain ⟨l₁, l₂, r₁, s₁, rfl, hjob, hstarts⟩ := runLoop_front w event R s s' l r hrun
      have hsub : ∀ step ∈ (rescue (w.runJob event) (w.onError event)).stepsBy undisturbed l₁,
          step ∈ (w.runLoop (w.work event)).stepsBy undisturbed (l₁ ++ l₂) :=
        fun step hm => (hstarts undisturbed).subset hm
      obtain ⟨l₃, l₄, job, s₃, rfl, hrunJob, haccounted⟩ := job_accounted w event hjob
        (fun step hm => hpg step (hsub step hm))
        (fun ⟨step, hm, hrejected⟩ => hwhole ⟨step, hsub step hm, hrejected⟩)
      exact ⟨l₃, l₄ ++ l₂, job, s₃, List.append_assoc _ _ _, hrunJob, haccounted⟩

/-! ## A session that submits U+0000 -/

/-- A blocked case whose session is retained. -/
def demoBlocked : Store where
  case := { created := true, state := .humanBlocked, claimedBy := some 1 }
  core := { attempts := [{
    kind := .triage, ordinal := 1, operationKey := .triage 1, startedAt := 0, status := .blocked
    createState := .created, createSentAt := some 1, devinSessionId := some 0
    timeoutAt := some 9000, finishedAt := some 5 }] }
  sessions := [{ attempt := 0 }]

def demoLoop : Worker where
  cfg := demoSettings
  owner := 1
  process := 1
  rounds := 1

def demoSubmission : Devin.SessionSnapshot where
  status := "running"
  statusDetail := "waiting_for_user"
  structuredOutput := some "\x00"
  pullRequests := []

/-- PostgreSQL, for documents of one text. -/
def demoDatabase : Database where
  points text := text.toList.map Char.toNat
  document d := [.text none (d.toList.map Char.toNat)]
  columns _ := []
  refuses := Refused
  nul _ _ h := Or.inl h

theorem Postgres.of_clean {db : Database} {step : Prog.Step Store Input Op} (hfault : step.answer.fault = none)
    (hclean : db.stored step = []) : Postgres db step where
  connected := by
    rw [hfault]
    nofun
  expected := fun _ => by
    rw [hfault]
    nofun
  rejects := by
    rw [hfault, hclean]
    constructor
    · rintro ⟨e, -, he⟩
      cases he
    · rintro ⟨cell, hcell, -⟩
      cases hcell

theorem Postgres.of_refused {db : Database} {step : Prog.Step Store Input Op} {cell : Cell}
    (hfault : step.answer.fault = some .data) (hcell : cell ∈ db.stored step)
    (hrefused : db.refuses cell) : Postgres db step where
  connected := by
    rw [hfault]
    nofun
  expected := fun _ => by
    rw [hfault]
    nofun
  rejects := iff_of_true ((rejects_iff _).mp hfault) ⟨cell, hcell, hrefused⟩

/-- The session cannot be read, and the case stays as it is. -/
theorem loop_survives_iff_demo :
    ∃ l s', (demoLoop.runLoop (demoLoop.work none)).Runs Op.apply (· = ·) demoBlocked l
      (.ok ()) s' ∧ Contained demoLoop none (· = ·) demoBlocked l (.ok ()) := by
  obtain ⟨l, s', hrun, hclean⟩ : ∃ l s',
      (demoLoop.runLoop (demoLoop.work none)).Runs Op.apply (· = ·) demoBlocked l (.ok ()) s' ∧
      ∀ step ∈ (demoLoop.runLoop (demoLoop.work none)).stepsBy undisturbed l,
        step.answer.fault = none ∧ demoDatabase.stored step = [] := by
    have hrun : (demoLoop.runLoop (demoLoop.work none)).Runs Op.apply (· = ·) demoBlocked
        _ (.ok ()) _ :=
      .act {} rfl (.act {} rfl (.act {} rfl (.act {} rfl (.act {} rfl (.ret () _)))))
    refine ⟨_, _, hrun, fun step hstep => ?_⟩
    change step ∈ [_, _, _, _, _] at hstep
    simp only [List.mem_cons, List.not_mem_nil, or_false] at hstep
    rcases hstep with rfl | rfl | rfl | rfl | rfl <;> exact ⟨rfl, rfl⟩
  refine ⟨l, s', hrun, (loop_survives_iff hrun (fun step hstep =>
    .of_clean (hclean step hstep).1 (hclean step hstep).2)).mpr ?_⟩
  intro step hstep cell hcell
  rw [(hclean step hstep).2] at hcell
  cases hcell

/-- The session has submitted a document with U+0000 in a text: the worker stops. -/
theorem nul_stops_worker :
    ∃ l s', (demoLoop.runLoop (demoLoop.work none)).Runs Op.apply (· = ·) demoBlocked l
      (.error .data) s' ∧
    (∀ step ∈ (demoLoop.runLoop (demoLoop.work none)).stepsBy undisturbed l,
      Postgres demoDatabase step) ∧
    ¬ Contained demoLoop none (· = ·) demoBlocked l (.error .data) := by
  have hrun : (demoLoop.runLoop (demoLoop.work none)).Runs Op.apply (· = ·) demoBlocked
      _ (.error Err.data) _ :=
    .act {} rfl (.act {} rfl (.act { get := .snapshot demoSubmission } rfl (.act {} rfl
      (.act { fault := some .data } rfl (.act {} rfl (.raise Err.data _))))))
  refine ⟨_, _, hrun, ?_, ?_⟩
  · intro step hstep
    change step ∈ [_, _, _, _, _, _] at hstep
    simp only [List.mem_cons, List.not_mem_nil, or_false] at hstep
    rcases hstep with rfl | rfl | rfl | rfl | rfl | rfl
    · exact .of_clean rfl rfl
    · exact .of_clean rfl rfl
    · exact .of_clean rfl rfl
    · exact .of_clean rfl rfl
    · exact .of_refused rfl List.mem_cons_self (Or.inl (by decide +kernel))
    · exact .of_clean rfl rfl
  · intro h
    rcases h.survives .data rfl with he | he
    · cases he
    · cases he

end Remediator
