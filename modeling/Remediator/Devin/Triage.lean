import Remediator.Devin.Contracts

set_option autoImplicit false

/-! # The triage contract

`remediator/devin/triage.py`. An accepted output is, up to the order of its keys, the encoding of a
typed document, and what the worker reads from it is what the document says.
-/

namespace Remediator.Contracts

open Json

/-! ## `triage.v1` -/

/-- `TRIAGE_OUTCOMES`. -/
def triageOutcomes : List String :=
  ["remediation_candidate", "needs_human", "no_change_needed", "deterministic_automation",
    "invalid_issue"]

/-- `SEVERITIES`. -/
def severities : List String := ["critical", "high", "medium", "low"]

/-- `PRIORITIES`. -/
def priorities : List String := ["p0", "p1", "p2", "p3"]

def riskLevels : List String := ["low", "medium", "high"]

def confidenceSchema : Schema := .all [.type [.number], .minimum 0, .maximum 1]

def exitCodeSchema : Schema := .all [.type [.integer], .minimum 0, .maximum 255]

def probeSchema : Schema :=
  .object ["command", "expected_base_exit_code"]
    [("command", textSchema 2000), ("expected_base_exit_code", exitCodeSchema),
      ("rationale", textSchema 2000)]

def riskSchema : Schema :=
  .object ["level", "notes"] [("level", enumSchema riskLevels), ("notes", textSchema 4000)]

def triageRequired : List String :=
  ["schema_version", "outcome", "reproducible", "summary", "severity", "priority", "confidence",
    "evidence", "affected_files", "acceptance_criteria", "probe", "focused_tests", "scope", "risk",
    "blocking_questions"]

def triageFields : List (String × Schema) :=
  [("schema_version", .all [.type [.string], .const "triage.v1"]),
    ("outcome", enumSchema triageOutcomes),
    ("reproducible", .all [.type [.boolean]]),
    ("summary", .all [.type [.string], .minLength 1, .maxLength 4000]),
    ("severity", enumSchema severities),
    ("priority", enumSchema priorities),
    ("confidence", confidenceSchema),
    ("evidence", stringList 50),
    ("affected_files", stringList 50),
    ("acceptance_criteria", stringList 50),
    ("probe", probeSchema),
    ("focused_tests", stringList 50),
    ("scope", textSchema 4000),
    ("risk", riskSchema),
    ("blocking_questions", stringList 50)]

/-- `TRIAGE_OUTPUT_SCHEMA`. -/
def triageSchema : Schema := .object triageRequired triageFields

/-- `TriageResult`. -/
structure TriageResult where
  outcome : String
  reproducible : Bool
  summary : String
  severity : String
  priority : String
  confidence : Number
  probeCommand : String
  expectedBaseExitCode : Int
  blockingQuestions : List String
  raw : Value

/-- `validate_triage_output`. -/
def validateTriageOutput (iterErrors : Validator) (repr : Value → String) (output : Value) :
    Except Refusal TriageResult := do
  let fields ← checked iterErrors triageSchema output
  let probe ← field "probe" fields
  let outcome ← field "outcome" fields
  let reproducible ← field "reproducible" fields
  let summary ← field "summary" fields
  let severity ← field "severity" fields
  let priority ← field "priority" fields
  let confidence ← field "confidence" fields
  let confidence ← float confidence
  let command ← fieldOf "command" probe
  let exitCode ← fieldOf "expected_base_exit_code" probe
  let exitCode ← int exitCode
  let questions ← field "blocking_questions" fields
  let questions ← texts repr questions
  .ok {
    outcome := outcome.text repr
    reproducible := reproducible.truthy
    summary := summary.text repr
    severity := severity.text repr
    priority := priority.text repr
    confidence := confidence
    probeCommand := command.text repr
    expectedBaseExitCode := exitCode
    blockingQuestions := questions
    raw := output }

/-! ## Typed documents -/

/-- A number between 0 and 1, or NaN, which compares with neither. -/
abbrev Confidence : Type := {x : Number // x.below 0 = false ∧ x.above 1 = false}

/-- The integer that a number is: a float without a fraction is one, too. -/
def integerOf : Number → Option Int
  | .int n => some n
  | .finite q => if q.den = 1 then some q.num else none
  | .negativeZero => some 0
  | .infinite _ => none
  | .nan => none

/-- An exit code, as it is written. -/
structure ExitCode where
  number : Number
  code : Nat
  isLe : code ≤ 255
  reads : integerOf number = some (code : ℤ)

/-- The probe that a session proposes. -/
structure ProbeProposal where
  command : TextUpTo 2000
  expectedBaseExitCode : ExitCode
  rationale : Option (TextUpTo 2000)

structure Risk where
  level : OneOf riskLevels
  notes : TextUpTo 4000

/-- What a triage says. -/
structure TriageDocument where
  outcome : OneOf triageOutcomes
  reproducible : Bool
  summary : {s : String // 1 ≤ s.length ∧ s.length ≤ 4000}
  severity : OneOf severities
  priority : OneOf priorities
  confidence : Confidence
  evidence : Texts 50
  affectedFiles : Texts 50
  acceptanceCriteria : Texts 50
  probe : ProbeProposal
  focusedTests : Texts 50
  scope : TextUpTo 4000
  risk : Risk
  blockingQuestions : Texts 50

def ProbeProposal.fields (p : ProbeProposal) : List (String × Value) :=
  [("command", .str p.command.1), ("expected_base_exit_code", .number p.expectedBaseExitCode.number)] ++
    (p.rationale.map fun r => ("rationale", Value.str r.1)).toList

def Risk.fields (r : Risk) : List (String × Value) :=
  [("level", .str r.level.1), ("notes", .str r.notes.1)]

def TriageDocument.fields (t : TriageDocument) : List (String × Value) :=
  [("schema_version", .str "triage.v1"),
    ("outcome", .str t.outcome.1),
    ("reproducible", .bool t.reproducible),
    ("summary", .str t.summary.1),
    ("severity", .str t.severity.1),
    ("priority", .str t.priority.1),
    ("confidence", .number t.confidence.1),
    ("evidence", .list (t.evidence.1.map .str)),
    ("affected_files", .list (t.affectedFiles.1.map .str)),
    ("acceptance_criteria", .list (t.acceptanceCriteria.1.map .str)),
    ("probe", .dict t.probe.fields),
    ("focused_tests", .list (t.focusedTests.1.map .str)),
    ("scope", .str t.scope.1),
    ("risk", .dict t.risk.fields),
    ("blocking_questions", .list (t.blockingQuestions.1.map .str))]

/-- The document as JSON, in the order of the schema. -/
def TriageDocument.encode (t : TriageDocument) : Value := .dict t.fields

/-- What the worker takes from the document, which it has read from `raw`. -/
def TriageDocument.result (t : TriageDocument) (raw : Value) : TriageResult where
  outcome := t.outcome.1
  reproducible := t.reproducible
  summary := t.summary.1
  severity := t.severity.1
  priority := t.priority.1
  confidence := match t.confidence.1 with
    | .int n => .finite n
    | x => x
  probeCommand := t.probe.command.1
  expectedBaseExitCode := t.probe.expectedBaseExitCode.code
  blockingQuestions := t.blockingQuestions.1
  raw := raw

/-! ## The numbers -/

theorem valid_confidence {v : Value} :
    confidenceSchema.Valid v ↔ ∃ x : Confidence, v = .number x.1 := by
  unfold confidenceSchema
  simp only [Schema.valid_all, List.forall_mem_cons, valid_type, List.not_mem_nil, false_implies,
    implies_true, and_true]
  constructor
  · rintro ⟨hkind, hmin, hmax⟩
    cases v with
    | number x => exact ⟨⟨x, hmin x rfl, hmax x rfl⟩, rfl⟩
    | _ => cases hkind
  · rintro ⟨x, rfl⟩
    refine ⟨?_, ?_, ?_⟩
    · cases x.1 <;> rfl
    · exact (about_iff fun _ _ => Value.number.inj).mpr x.2.1
    · exact (about_iff fun _ _ => Value.number.inj).mpr x.2.2

/-- What an integer says about its number. -/
theorem integerOf_spec {x : Number} {n : ℤ} (h : integerOf x = some n) :
    (Value.number x).isKind .integer = true ∧ (∀ q, x.below q = decide ((n : ℚ) < q)) ∧
      (∀ q, x.above q = decide (q < (n : ℚ))) ∧ int (.number x) = .ok n := by
  cases x with
  | int m =>
      obtain rfl := Option.some.inj h
      exact ⟨rfl, fun _ => rfl, fun _ => rfl, rfl⟩
  | finite r =>
      change (if r.den = 1 then some r.num else none) = some n at h
      split_ifs at h with hden
      obtain rfl := Option.some.inj h
      have hr : (r.num : ℚ) = r := Rat.den_eq_one_iff r |>.mp hden
      refine ⟨decide_eq_true hden, fun q => ?_, fun q => ?_, ?_⟩
      · rw [hr]
        rfl
      · rw [hr]
        rfl
      · change Except.ok (if 0 ≤ r then r.floor else r.ceil) = _
        rw [← hr]
        have hfloor : ((r.num : ℤ) : ℚ).floor = r.num := Rat.floor_intCast r.num
        have hceil : ((r.num : ℤ) : ℚ).ceil = r.num := Rat.ceil_intCast r.num
        split_ifs
        · rw [hfloor, hr]
        · rw [hceil, hr]
  | negativeZero =>
      obtain rfl := Option.some.inj h
      exact ⟨rfl, fun q => rfl, fun q => rfl, rfl⟩
  | infinite negative => cases h
  | nan => cases h

theorem integerOf_isSome {x : Number} (h : (Value.number x).isKind .integer = true) :
    ∃ n, integerOf x = some n := by
  cases x with
  | int n => exact ⟨n, rfl⟩
  | finite q => exact ⟨q.num, if_pos (of_decide_eq_true h)⟩
  | negativeZero => exact ⟨0, rfl⟩
  | infinite negative => cases h
  | nan => cases h

theorem valid_exitCode {v : Value} :
    exitCodeSchema.Valid v ↔ ∃ c : ExitCode, v = .number c.number := by
  unfold exitCodeSchema
  simp only [Schema.valid_all, List.forall_mem_cons, valid_type, List.not_mem_nil, false_implies,
    implies_true, and_true]
  constructor
  · rintro ⟨hkind, hmin, hmax⟩
    cases v with
    | number x =>
        obtain ⟨n, hn⟩ := integerOf_isSome hkind
        obtain ⟨-, hbelow, habove, -⟩ := integerOf_spec hn
        have hlow := hmin x rfl
        have hhigh := hmax x rfl
        rw [hbelow] at hlow
        rw [habove] at hhigh
        have h0 : 0 ≤ n := by exact_mod_cast not_lt.mp (of_decide_eq_false hlow)
        have h255 : n ≤ 255 := by exact_mod_cast not_lt.mp (of_decide_eq_false hhigh)
        exact ⟨⟨x, n.toNat, by omega, by rw [Int.toNat_of_nonneg h0, hn]⟩, rfl⟩
    | _ => cases hkind
  · rintro ⟨c, rfl⟩
    obtain ⟨hkind, hbelow, habove, -⟩ := integerOf_spec c.reads
    have hle : ((c.code : ℤ) : ℚ) ≤ 255 := by exact_mod_cast c.isLe
    have hpos : (0 : ℚ) ≤ ((c.code : ℤ) : ℚ) := by exact_mod_cast Nat.zero_le c.code
    refine ⟨hkind, ?_, ?_⟩
    · refine (about_iff fun _ _ => Value.number.inj).mpr ?_
      rw [hbelow]
      exact decide_eq_false (not_lt.mpr hpos)
    · refine (about_iff fun _ _ => Value.number.inj).mpr ?_
      rw [habove]
      exact decide_eq_false (not_lt.mpr hle)

/-! ## The parts -/

theorem ProbeProposal.keys (p : ProbeProposal) :
    p.fields.map Prod.fst = ["command", "expected_base_exit_code"] ∨
      p.fields.map Prod.fst = ["command", "expected_base_exit_code", "rationale"] := by
  unfold ProbeProposal.fields
  cases p.rationale with
  | none => exact Or.inl rfl
  | some r => exact Or.inr rfl

theorem ProbeProposal.unique (p : ProbeProposal) : UniqueKeys p.fields := by
  unfold UniqueKeys
  rcases p.keys with h | h <;> (rw [h]; decide)

theorem ProbeProposal.distinct (p : ProbeProposal) : (Value.dict p.fields).Distinct := by
  refine ⟨p.unique, ?_⟩
  unfold ProbeProposal.fields
  cases p.rationale with
  | none => exact ⟨trivial, trivial, trivial⟩
  | some r => exact ⟨trivial, trivial, trivial, trivial⟩

theorem ProbeProposal.valid (p : ProbeProposal) : probeSchema.Valid (.dict p.fields) := by
  refine Schema.object_iff.mpr ⟨_, rfl, conforms_of_fields ?_ ?_ ?_⟩
  · rcases p.keys with h | h <;> (rw [h]; decide)
  · rcases p.keys with h | h <;> (rw [h]; decide)
  · simp only [List.forall_mem_cons, List.not_mem_nil, false_implies, implies_true, and_true]
    refine ⟨valid_at rfl (valid_text.mpr ⟨_, rfl, p.command.2⟩),
      valid_at rfl (valid_exitCode.mpr ⟨p.expectedBaseExitCode, rfl⟩), ?_⟩
    cases hr : p.rationale with
    | none =>
        intro x hx
        unfold ProbeProposal.fields at hx
        rw [hr] at hx
        cases hx
    | some r =>
        refine valid_at ?_ (valid_text.mpr ⟨_, rfl, r.2⟩)
        unfold ProbeProposal.fields
        rw [hr]
        rfl

theorem exists_probe {v : Value} (hv : v.Distinct) (h : probeSchema.Valid v) :
    ∃ p : ProbeProposal, v.Same (.dict p.fields) := by
  obtain ⟨fields, rfl, hc⟩ := Schema.object_iff.mp h
  obtain ⟨command, hcommand, hvalid⟩ := conforms_get hc 0 rfl (by decide)
  obtain ⟨command, rfl, hlength⟩ := valid_text.mp hvalid
  obtain ⟨code, hcode, hvalid⟩ := conforms_get hc 1 rfl (by decide)
  obtain ⟨code, rfl⟩ := valid_exitCode.mp hvalid
  -- the rationale is the only field that may be left out
  cases hrationale : List.lookup "rationale" fields with
  | none =>
      let p : ProbeProposal := ⟨⟨command, hlength⟩, code, none⟩
      refine ⟨p, same_of_fields hv.1 p.unique ?_ ?_⟩
      · intro q hq
        have hname := hc.closed q hq
        have hnot : q.1 ≠ "rationale" := by
          intro heq
          have hsome := lookup_isSome_iff.mpr (List.mem_map.mpr ⟨q, hq, heq⟩)
          rw [hrationale] at hsome
          cases hsome
        change q.1 ∈ ["command", "expected_base_exit_code", "rationale"] at hname
        change q.1 ∈ ["command", "expected_base_exit_code"]
        simp only [List.mem_cons, List.not_mem_nil, or_false] at hname ⊢
        exact hname.imp_right fun h => h.resolve_right hnot
      · simp only [p, ProbeProposal.fields, Option.map_none, Option.toList_none, List.append_nil,
          List.forall_mem_cons, List.not_mem_nil, false_implies, implies_true, and_true]
        exact ⟨⟨_, hcommand, rfl⟩, _, hcode, rfl⟩
  | some x =>
      obtain ⟨r, rfl, hr⟩ := valid_text.mp
        (hc.valid _ (List.mem_of_getElem? (i := 2) rfl) x hrationale)
      let p : ProbeProposal := ⟨⟨command, hlength⟩, code, some ⟨r, hr⟩⟩
      refine ⟨p, same_of_fields hv.1 p.unique hc.closed ?_⟩
      simp only [p, ProbeProposal.fields, Option.map_some, Option.toList_some, List.cons_append,
        List.nil_append, List.forall_mem_cons, List.not_mem_nil, false_implies, implies_true,
        and_true]
      exact ⟨⟨_, hcommand, rfl⟩, ⟨_, hcode, rfl⟩, _, hrationale, rfl⟩

theorem Risk.unique (r : Risk) : UniqueKeys r.fields := by
  change ["level", "notes"].Nodup
  decide

theorem Risk.valid (r : Risk) : riskSchema.Valid (.dict r.fields) := by
  refine Schema.object_iff.mpr ⟨_, rfl, conforms_of_fields ?_ ?_ ?_⟩
  · change ∀ name ∈ ["level", "notes"], name ∈ ["level", "notes"]
    exact fun _ h => h
  · change ∀ name ∈ ["level", "notes"], name ∈ ["level", "notes"]
    exact fun _ h => h
  · simp only [List.forall_mem_cons, List.not_mem_nil, false_implies, implies_true, and_true]
    exact ⟨valid_at rfl (valid_enum.mpr ⟨_, rfl, r.level.2⟩),
      valid_at rfl (valid_text.mpr ⟨_, rfl, r.notes.2⟩)⟩

theorem exists_risk {v : Value} (hv : v.Distinct) (h : riskSchema.Valid v) :
    ∃ r : Risk, v.Same (.dict r.fields) := by
  obtain ⟨fields, rfl, hc⟩ := Schema.object_iff.mp h
  obtain ⟨level, hlevel, hvalid⟩ := conforms_get hc 0 rfl (by decide)
  obtain ⟨level, rfl, hmem⟩ := valid_enum.mp hvalid
  obtain ⟨notes, hnotes, hvalid⟩ := conforms_get hc 1 rfl (by decide)
  obtain ⟨notes, rfl, hlength⟩ := valid_text.mp hvalid
  let r : Risk := ⟨⟨level, hmem⟩, ⟨notes, hlength⟩⟩
  refine ⟨r, same_of_fields hv.1 r.unique hc.closed ?_⟩
  simp only [r, Risk.fields, List.forall_mem_cons, List.not_mem_nil, false_implies, implies_true,
    and_true]
  exact ⟨⟨_, hlevel, rfl⟩, _, hnotes, rfl⟩

/-! ## The document -/

theorem TriageDocument.unique (t : TriageDocument) : UniqueKeys t.fields := by
  change triageRequired.Nodup
  decide

theorem TriageDocument.distinct (t : TriageDocument) : t.encode.Distinct :=
  ⟨t.unique, trivial, trivial, trivial, trivial, trivial, trivial, trivial, distinct_texts _,
    distinct_texts _, distinct_texts _, t.probe.distinct, distinct_texts _, trivial,
    ⟨t.risk.unique, trivial, trivial, trivial⟩, distinct_texts _, trivial⟩

/-- Every document meets the schema. -/
theorem TriageDocument.valid (t : TriageDocument) : triageSchema.Valid t.encode := by
  refine Schema.object_iff.mpr ⟨_, rfl, conforms_of_fields ?_ ?_ ?_⟩
  · change ∀ name ∈ triageRequired, name ∈ triageRequired
    exact fun _ h => h
  · change ∀ name ∈ triageRequired, name ∈ triageRequired
    exact fun _ h => h
  · simp only [triageFields, List.forall_mem_cons, List.not_mem_nil, false_implies, implies_true,
      and_true]
    refine ⟨?_, ?_, ?_, ?_, ?_, ?_, ?_, ?_, ?_, ?_, ?_, ?_, ?_, ?_, ?_⟩
    · exact valid_at rfl (valid_string.mpr ⟨_, rfl, by simp [Schema.Valid]⟩)
    · exact valid_at rfl (valid_enum.mpr ⟨_, rfl, t.outcome.2⟩)
    · exact valid_at rfl (Schema.valid_all.mpr (by
        rw [List.forall_mem_cons, valid_type]
        exact ⟨rfl, nofun⟩))
    · refine valid_at rfl (valid_string.mpr ⟨_, rfl, ?_⟩)
      simp only [List.forall_mem_cons, List.not_mem_nil, false_implies, implies_true, and_true,
        valid_minLength, valid_maxLength]
      exact t.summary.2
    · exact valid_at rfl (valid_enum.mpr ⟨_, rfl, t.severity.2⟩)
    · exact valid_at rfl (valid_enum.mpr ⟨_, rfl, t.priority.2⟩)
    · exact valid_at rfl (valid_confidence.mpr ⟨t.confidence, rfl⟩)
    · exact valid_at rfl (valid_stringList.mpr ⟨_, rfl, t.evidence.2⟩)
    · exact valid_at rfl (valid_stringList.mpr ⟨_, rfl, t.affectedFiles.2⟩)
    · exact valid_at rfl (valid_stringList.mpr ⟨_, rfl, t.acceptanceCriteria.2⟩)
    · exact valid_at rfl t.probe.valid
    · exact valid_at rfl (valid_stringList.mpr ⟨_, rfl, t.focusedTests.2⟩)
    · exact valid_at rfl (valid_text.mpr ⟨_, rfl, t.scope.2⟩)
    · exact valid_at rfl t.risk.valid
    · exact valid_at rfl (valid_stringList.mpr ⟨_, rfl, t.blockingQuestions.2⟩)

/-- What meets the schema is a document. -/
theorem exists_document {v : Value} (hv : v.Distinct) (h : triageSchema.Valid v) :
    ∃ t : TriageDocument, v.Same t.encode := by
  obtain ⟨fields, rfl, hc⟩ := Schema.object_iff.mp h
  obtain ⟨version, hversion, hvalid⟩ := conforms_get hc 0 rfl (by decide)
  obtain ⟨version, rfl, hconst⟩ := valid_string.mp hvalid
  obtain rfl := Value.str.inj (hconst _ (List.mem_singleton.mpr rfl))
  obtain ⟨outcome, houtcome, hvalid⟩ := conforms_get hc 1 rfl (by decide)
  obtain ⟨outcome, rfl, houtcomes⟩ := valid_enum.mp hvalid
  obtain ⟨reproducible, hreproducible, hvalid⟩ := conforms_get hc 2 rfl (by decide)
  obtain ⟨b, rfl⟩ : ∃ b, reproducible = .bool b := by
    have hkind := valid_type.mp (Schema.valid_all.mp hvalid _ List.mem_cons_self)
    cases reproducible with
    | bool b => exact ⟨b, rfl⟩
    | number n => cases n <;> cases hkind
    | _ => cases hkind
  obtain ⟨summary, hsummary, hvalid⟩ := conforms_get hc 3 rfl (by decide)
  obtain ⟨summary, rfl, hbounds⟩ := valid_string.mp hvalid
  simp only [List.forall_mem_cons, List.not_mem_nil, false_implies, implies_true, and_true,
    valid_minLength, valid_maxLength] at hbounds
  obtain ⟨severity, hseverity, hvalid⟩ := conforms_get hc 4 rfl (by decide)
  obtain ⟨severity, rfl, hseverities⟩ := valid_enum.mp hvalid
  obtain ⟨priority, hpriority, hvalid⟩ := conforms_get hc 5 rfl (by decide)
  obtain ⟨priority, rfl, hpriorities⟩ := valid_enum.mp hvalid
  obtain ⟨confidence, hconfidence, hvalid⟩ := conforms_get hc 6 rfl (by decide)
  obtain ⟨confidence, rfl⟩ := valid_confidence.mp hvalid
  obtain ⟨evidence, hevidence, hvalid⟩ := conforms_get hc 7 rfl (by decide)
  obtain ⟨evidence, rfl, hevidences⟩ := valid_stringList.mp hvalid
  obtain ⟨files, hfiles, hvalid⟩ := conforms_get hc 8 rfl (by decide)
  obtain ⟨files, rfl, hfiless⟩ := valid_stringList.mp hvalid
  obtain ⟨criteria, hcriteria, hvalid⟩ := conforms_get hc 9 rfl (by decide)
  obtain ⟨criteria, rfl, hcriterias⟩ := valid_stringList.mp hvalid
  obtain ⟨probe, hprobe, hvalid⟩ := conforms_get hc 10 rfl (by decide)
  obtain ⟨p, hp⟩ := exists_probe (DistinctFields.of_lookup hv.2 hprobe) hvalid
  obtain ⟨tests, htests, hvalid⟩ := conforms_get hc 11 rfl (by decide)
  obtain ⟨tests, rfl, htestss⟩ := valid_stringList.mp hvalid
  obtain ⟨scope, hscope, hvalid⟩ := conforms_get hc 12 rfl (by decide)
  obtain ⟨scope, rfl, hscopes⟩ := valid_text.mp hvalid
  obtain ⟨risk, hrisk, hvalid⟩ := conforms_get hc 13 rfl (by decide)
  obtain ⟨r, hr⟩ := exists_risk (DistinctFields.of_lookup hv.2 hrisk) hvalid
  obtain ⟨questions, hquestions, hvalid⟩ := conforms_get hc 14 rfl (by decide)
  obtain ⟨questions, rfl, hquestionss⟩ := valid_stringList.mp hvalid
  let t : TriageDocument :=
    { outcome := ⟨outcome, houtcomes⟩
      reproducible := b
      summary := ⟨summary, hbounds⟩
      severity := ⟨severity, hseverities⟩
      priority := ⟨priority, hpriorities⟩
      confidence := confidence
      evidence := ⟨evidence, hevidences⟩
      affectedFiles := ⟨files, hfiless⟩
      acceptanceCriteria := ⟨criteria, hcriterias⟩
      probe := p
      focusedTests := ⟨tests, htestss⟩
      scope := ⟨scope, hscopes⟩
      risk := r
      blockingQuestions := ⟨questions, hquestionss⟩ }
  refine ⟨t, same_of_fields hv.1 t.unique hc.closed ?_⟩
  simp only [TriageDocument.fields, List.forall_mem_cons, List.not_mem_nil, false_implies,
    implies_true, and_true]
  exact ⟨⟨_, hversion, rfl⟩, ⟨_, houtcome, rfl⟩, ⟨_, hreproducible, rfl⟩, ⟨_, hsummary, rfl⟩,
    ⟨_, hseverity, rfl⟩, ⟨_, hpriority, rfl⟩, ⟨_, hconfidence, rfl⟩, ⟨_, hevidence, rfl⟩,
    ⟨_, hfiles, rfl⟩, ⟨_, hcriteria, rfl⟩, ⟨_, hprobe, hp⟩, ⟨_, htests, rfl⟩, ⟨_, hscope, rfl⟩,
    ⟨_, hrisk, hr⟩, _, hquestions, rfl⟩

/-! ## Reading -/

theorem ExitCode.int_eq (c : ExitCode) : int (.number c.number) = .ok (c.code : ℤ) :=
  (integerOf_spec c.reads).2.2.2

theorem Confidence.float_eq (x : Confidence) :
    float (.number x.1) = .ok (match x.1 with
      | .int n => .finite n
      | y => y) := by
  obtain ⟨x, hmin, hmax⟩ := x
  cases x with
  | int n =>
      have h0 : 0 ≤ n := by exact_mod_cast not_lt.mp (of_decide_eq_false hmin)
      have h1 : n ≤ 1 := by exact_mod_cast not_lt.mp (of_decide_eq_false hmax)
      have hsmall : n.natAbs < 2 ^ 1024 - 2 ^ 970 :=
        lt_of_le_of_lt (by omega : n.natAbs ≤ 1) (by decide +kernel)
      unfold float
      dsimp only
      rw [if_pos hsmall]
  | _ => rfl

section Validating

variable {iterErrors : Validator} {repr : Value → String}

/-- The worker reads from an output what the document says, whatever the order of its keys. -/
theorem validate_of_document (hdraft : iterErrors.Draft7) {v : Value} (hv : v.Distinct)
    {t : TriageDocument} (h : v.Same t.encode) :
    validateTriageOutput iterErrors repr v = .ok (t.result v) := by
  have hvalid := (Schema.valid_of_same hv t.distinct h).mpr t.valid
  obtain ⟨fields, rfl, hget⟩ := same_dict hv t.unique h
  have hstr : ∀ key s, List.lookup key t.fields = some (.str s) →
      field key fields = .ok (.str s) := by
    intro key s hkey
    obtain ⟨x, hx, hsame⟩ := hget key _ hkey
    rw [sortKeys_eq_str.mp hsame] at hx
    exact field_eq hx
  have hchecked : checked iterErrors triageSchema (.dict fields) = .ok fields :=
    (checked_eq_ok hdraft).mpr ⟨rfl, hvalid⟩
  have hreproducible : field "reproducible" fields = .ok (.bool t.reproducible) := by
    obtain ⟨x, hx, hsame⟩ := hget "reproducible" _ rfl
    rw [sortKeys_eq_bool.mp hsame] at hx
    exact field_eq hx
  have hconfidence : field "confidence" fields = .ok (.number t.confidence.1) := by
    obtain ⟨x, hx, hsame⟩ := hget "confidence" _ rfl
    rw [sortKeys_eq_number.mp hsame] at hx
    exact field_eq hx
  have hquestions : field "blocking_questions" fields =
      .ok (.list (t.blockingQuestions.1.map .str)) := by
    obtain ⟨x, hx, hsame⟩ := hget "blocking_questions" _ rfl
    have hlist : x.sortKeys = .list (t.blockingQuestions.1.map .str) :=
      hsame.trans (sortKeys_eq_texts.mpr rfl)
    rw [sortKeys_eq_texts.mp hlist] at hx
    exact field_eq hx
  obtain ⟨probe, hprobe, hprobeSame⟩ := hget "probe" _ rfl
  obtain ⟨items, rfl, hitems⟩ :=
    same_dict (DistinctFields.of_lookup hv.2 hprobe) t.probe.unique hprobeSame
  have hcommand : field "command" items = .ok (.str t.probe.command.1) := by
    obtain ⟨x, hx, hsame⟩ := hitems "command" _ rfl
    rw [sortKeys_eq_str.mp hsame] at hx
    exact field_eq hx
  have hcode : field "expected_base_exit_code" items =
      .ok (.number t.probe.expectedBaseExitCode.number) := by
    obtain ⟨x, hx, hsame⟩ := hitems "expected_base_exit_code" _ rfl
    rw [sortKeys_eq_number.mp hsame] at hx
    exact field_eq hx
  unfold validateTriageOutput
  simp only [hchecked, field_eq hprobe, hstr "outcome" _ rfl, hreproducible, hstr "summary" _ rfl,
    hstr "severity" _ rfl, hstr "priority" _ rfl, hconfidence, Confidence.float_eq, fieldOf,
    hcommand, hcode, ExitCode.int_eq, hquestions, texts_list, bind, Except.bind]
  rfl

theorem document_of_validated (hdraft : iterErrors.Draft7) {v : Value} (hv : v.Distinct)
    {r : TriageResult} (h : validateTriageOutput iterErrors repr v = .ok r) :
    ∃ t : TriageDocument, v.Same t.encode ∧ r = t.result v := by
  have hvalid : triageSchema.Valid v := by
    cases hchecked : checked iterErrors triageSchema v with
    | ok fields => exact ((checked_eq_ok hdraft).mp hchecked).2
    | error e =>
        unfold validateTriageOutput at h
        rw [hchecked] at h
        cases h
  obtain ⟨t, ht⟩ := exists_document hv hvalid
  rw [validate_of_document hdraft hv ht] at h
  exact ⟨t, ht, (Except.ok.inj h).symm⟩

end Validating

/-- `validate_triage_output` accepts an output exactly if it encodes a document of the contract, in
whatever order of keys, and then returns what the document says. -/
theorem triage_accepted_iff {iterErrors : Validator} (hdraft : iterErrors.Draft7)
    (repr : Value → String) {v : Value} (hv : v.Distinct) (r : TriageResult) :
    validateTriageOutput iterErrors repr v = .ok r ↔
      ∃ t : TriageDocument, v.Same t.encode ∧ r = t.result v := by
  constructor
  · exact document_of_validated hdraft hv
  · rintro ⟨t, ht, rfl⟩
    exact validate_of_document hdraft hv ht

/-! ### A triage in the order of another writer -/

def demoTriage : TriageDocument where
  outcome := ⟨"remediation_candidate", by decide⟩
  reproducible := true
  summary := ⟨"The filter drops a row.", by decide⟩
  severity := ⟨"high", by decide⟩
  priority := ⟨"p1", by decide⟩
  confidence := ⟨.int 1, by decide⟩
  evidence := ⟨["trace"], by decide⟩
  affectedFiles := ⟨[], by decide⟩
  acceptanceCriteria := ⟨[], by decide⟩
  probe := ⟨⟨"pytest", by decide⟩, ⟨.int 1, 1, by decide, rfl⟩, none⟩
  focusedTests := ⟨[], by decide⟩
  scope := ⟨"one query", by decide⟩
  risk := ⟨⟨"low", by decide⟩, ⟨"", by decide⟩⟩
  blockingQuestions := ⟨["Which version?"], by decide⟩

def reordered : Value := .dict demoTriage.fields.reverse

theorem reordered_distinct : reordered.Distinct :=
  distinct_of_perm (List.reverse_perm demoTriage.fields).symm demoTriage.distinct

theorem reordered_same : reordered.Same demoTriage.encode :=
  same_of_perm reordered_distinct.1 (List.reverse_perm demoTriage.fields)

theorem triage_accepted_iff_demo :
    validateTriageOutput (fun schema v => .ok (schema.errors v)) (fun _ => "") reordered =
      .ok (demoTriage.result reordered) :=
  (triage_accepted_iff draft7_errors (fun _ => "") reordered_distinct _).mpr
    ⟨demoTriage, reordered_same, rfl⟩

/-- Whatever a session returns, it is accepted or refused with an explanation: the message says that
there is nothing, or no object, or names the first place of the output where the contract is not
met. No other exception leaves the code of the worker. -/
theorem triage_refused {iterErrors : Validator} (hdraft : iterErrors.Draft7)
    (repr : Value → String) {v : Value} (hv : v.Distinct) {e : Refusal}
    (h : validateTriageOutput iterErrors repr v = .error e) :
    Explains iterErrors triageSchema v e := by
  cases hchecked : checked iterErrors triageSchema v with
  | error d =>
      have hexplains := checked_error hdraft hchecked
      unfold validateTriageOutput at h
      rw [hchecked] at h
      rw [← Except.error.inj h]
      exact hexplains
  | ok fields =>
      obtain ⟨t, ht⟩ := exists_document hv ((checked_eq_ok hdraft).mp hchecked).2
      rw [validate_of_document hdraft hv ht] at h
      cases h

theorem triage_refused_demo :
    Explains (fun schema v => .ok (schema.errors v)) triageSchema (.dict [("outcome", .str "maybe")])
      (.invalid [] "required") := by
  have hrefused : validateTriageOutput (fun schema v => .ok (schema.errors v)) (fun _ => "")
      (.dict [("outcome", .str "maybe")]) = .error (.invalid [] "required") := rfl
  have hdistinct : (Value.dict [("outcome", .str "maybe")]).Distinct :=
    ⟨List.nodup_singleton _, trivial, trivial⟩
  exact triage_refused draft7_errors (fun _ => "") hdistinct hrefused

/-! ## The approved document -/

section Approved

variable (iterErrors : Validator) (repr : Value → String) (sha256 : Text → Text) (real : ℚ → Text)

/-- `triage_result_hash`. -/
def triageResultHash (raw : Value) : Text := sha256 (raw.canonical real)

/-- The refusals of `_validated_triage`. -/
inductive StaleTriage
  | noOutput
  | noLongerValid (e : Refusal)
  | otherHash

/-- `_validated_triage`, for the output that the database holds and the hash of the request. -/
def validatedTriage (approvedHash : Text) : Option Value → Except StaleTriage Value
  | none => .error .noOutput
  | some output =>
      match validateTriageOutput iterErrors repr output with
      | .error e => .error (.noLongerValid e)
      | .ok result =>
          if triageResultHash sha256 real result.raw ≠ approvedHash then .error .otherHash
          else .ok result.raw

variable {iterErrors repr sha256 real}

/-- A remediation is dispatched with a stored output exactly when this is, up to the order of keys,
the document that the request was opened for. The database may reorder the keys of a document, and
may change nothing else of it. -/
theorem dispatched_iff_approved (hdraft : iterErrors.Draft7) (hreal : FloatText real)
    {approved stored : Value}
    (happroved : approved.Distinct) (hstored : stored.Distinct)
    (hsha : sha256 (stored.canonical real) = sha256 (approved.canonical real) →
      stored.canonical real = approved.canonical real)
    {r : TriageResult} (hopened : validateTriageOutput iterErrors repr approved = .ok r) :
    (∃ raw, validatedTriage iterErrors repr sha256 real (triageResultHash sha256 real r.raw)
        (some stored) = .ok raw) ↔ stored.Same approved := by
  obtain ⟨t, ht, rfl⟩ := document_of_validated hdraft happroved hopened
  change (∃ raw, validatedTriage iterErrors repr sha256 real (triageResultHash sha256 real approved)
    (some stored) = .ok raw) ↔ _
  constructor
  · rintro ⟨raw, h⟩
    unfold validatedTriage at h
    dsimp only at h
    split at h
    · cases h
    · next result hresult =>
        obtain ⟨u, -, rfl⟩ := document_of_validated hdraft hstored hresult
        split_ifs at h with hhash
        exact (canonical_eq_iff hreal).mp (hsha (not_not.mp hhash))
  · intro h
    have hread : validateTriageOutput iterErrors repr stored = _ :=
      validate_of_document hdraft hstored (h.trans ht)
    have hhash : triageResultHash sha256 real (t.result stored).raw =
        triageResultHash sha256 real approved :=
      congrArg sha256 ((canonical_eq_iff hreal).mpr h)
    refine ⟨stored, ?_⟩
    unfold validatedTriage
    dsimp only
    rw [hread]
    dsimp only
    rw [if_neg (not_not.mpr hhash)]
    rfl

end Approved

/-- A text for every rational number; the document below has no float. -/
def fractionText (q : ℚ) : Text := intText q.num ++ 'e' :: Nat.toDigits 10 q.den

theorem floatText_fractionText : FloatText fractionText where
  unsigned q h := by
    have he : 'e' ∉ "-0.0".toList := by decide
    rw [← h] at he
    exact he (List.mem_append_right _ List.mem_cons_self)
  inj q r h := by
    have hinteger : ∀ n : ℤ, 'e' ∉ intText n := fun n hn => by
      rcases intText_chars hn with hd | hd <;> exact absurd hd (by decide)
    have hsplit := List.append_eq_append_iff.mp h
    have hnum : intText q.num = intText r.num := by
      rcases hsplit with ⟨m, hm, htail⟩ | ⟨m, hm, htail⟩
      · cases m with
        | nil => rw [hm, List.append_nil]
        | cons c m =>
            rw [(List.cons.inj htail).1.symm] at hm
            exact absurd (hm ▸ List.mem_append_right _ List.mem_cons_self) (hinteger r.num)
      · cases m with
        | nil => rw [hm, List.append_nil]
        | cons c m =>
            rw [(List.cons.inj htail).1.symm] at hm
            exact absurd (hm ▸ List.mem_append_right _ List.mem_cons_self) (hinteger q.num)
    have hden : q.den = r.den := by
      unfold fractionText at h
      rw [hnum] at h
      exact toDigits_inj (List.cons.inj (List.append_cancel_left h)).2
    exact Rat.ext (intText_inj hnum) hden
  chars q c hc := by
    rcases List.mem_append.mp hc with hc | hc
    · exact (intText_chars hc).imp_right fun h => Or.inr (Or.inl h)
    · rcases List.mem_cons.mp hc with rfl | hc
      · exact Or.inr (Or.inr (Or.inr (Or.inr rfl)))
      · exact Or.inl (Nat.isDigit_of_mem_toDigits (by decide) (by decide) hc)
  fraction q := Or.inr (List.mem_append_right _ List.mem_cons_self)

/-- The digest of the one text that is hashed. -/
def demoDigest (_ : Text) : Text :=
  "5fc5785471fb5ef7d34c81b30b8ca258e81b6b2436e68794e3cf5b5f327f6a16".toList

theorem dispatched_iff_approved_demo :
    (∃ raw, validatedTriage (fun schema v => .ok (schema.errors v)) (fun _ => "") demoDigest
        fractionText (triageResultHash demoDigest fractionText demoTriage.encode)
        (some reordered) = .ok raw) ↔ reordered.Same demoTriage.encode :=
  dispatched_iff_approved draft7_errors floatText_fractionText demoTriage.distinct
    reordered_distinct (fun _ => (canonical_eq_iff floatText_fractionText).mpr reordered_same)
    (validate_of_document draft7_errors demoTriage.distinct rfl)

end Remediator.Contracts
