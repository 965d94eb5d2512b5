import Remediator.Devin.Contracts

set_option autoImplicit false

/-! # The remediation contract

`remediator/devin/remediation.py`, with and without the identity of a probe.
-/

namespace Remediator.Contracts

open Json Probes

/-! ## `remediation.v1` -/

/-- `REMEDIATION_OUTCOMES`. -/
def remediationOutcomes : List String := ["pr_created", "no_change_needed", "needs_human", "failed"]

/-- `{"type": ["string", "null"], keyword}`. -/
def nullable (keyword : Schema) : Schema := .all [.type [.string, .null], keyword]

def commitsSchema : Schema :=
  .all [.type [.array], .maxItems 100, .items (patternSchema shaRe)]

def remediationRequired : List String :=
  ["schema_version", "outcome", "summary", "base_sha", "head_sha", "branch", "pr_url",
    "issue_reference", "changed_files", "commits", "tests_run", "probe_identifier", "probe_hash",
    "risks", "blocking_questions"]

def remediationFields : List (String × Schema) :=
  [("schema_version", .all [.type [.string], .const "remediation.v1"]),
    ("outcome", enumSchema remediationOutcomes),
    ("summary", .all [.type [.string], .minLength 1, .maxLength 4000]),
    ("base_sha", patternSchema shaRe),
    ("head_sha", nullable (.pattern shaRe)),
    ("branch", nullable (.maxLength 255)),
    ("pr_url", nullable (.maxLength 500)),
    ("issue_reference", textSchema 200),
    ("changed_files", stringList 100),
    ("commits", commitsSchema),
    ("tests_run", stringList 100),
    ("probe_identifier", textSchema 300),
    ("probe_hash", patternSchema hex256Re),
    ("risks", stringList 100),
    ("blocking_questions", stringList 100)]

def probeNames : List String := ["probe_identifier", "probe_hash"]

/-- What `_without_probe_fields` leaves of the required fields and of the properties. -/
def commonRequired : List String :=
  remediationRequired.filter fun name => !probeNames.contains name

def commonSchemas : List (String × Schema) :=
  remediationFields.filter fun entry => !probeNames.contains entry.1

def requiredFor (probe : Bool) : List String := if probe then remediationRequired else commonRequired

def schemasFor (probe : Bool) : List (String × Schema) :=
  if probe then remediationFields else commonSchemas

/-- `REMEDIATION_OUTPUT_SCHEMA` and `REMEDIATION_OUTPUT_SCHEMA_WITHOUT_PROBE`. -/
def remediationSchema (probe : Bool) : Schema := .object (requiredFor probe) (schemasFor probe)

/-- `RemediationResult`. The fields that may be `None` are kept as they are. -/
structure RemediationResult where
  outcome : String
  summary : String
  baseSha : String
  headSha : Value
  branch : Value
  prUrl : Value
  issueReference : String
  changedFiles : List String
  commits : List String
  testsRun : List String
  probeIdentifier : Option String
  probeHash : Option String
  risks : List String
  blockingQuestions : List String
  raw : Value

/-- `pr_created`. -/
def RemediationResult.prCreated (r : RemediationResult) : Bool :=
  decide (r.outcome = "pr_created")

/-- `str(output[key]) if probe else None`. -/
def probeField (repr : Value → String) (probe : Bool) (key : String)
    (fields : List (String × Value)) : Except Refusal (Option String) :=
  if probe then do
    let value ← field key fields
    .ok (some (value.text repr))
  else .ok none

/-- `validate_remediation_output`. -/
def validateRemediationOutput (iterErrors : Validator) (repr : Value → String) (probe : Bool)
    (output : Value) : Except Refusal RemediationResult := do
  let fields ← checked iterErrors (remediationSchema probe) output
  let outcome ← field "outcome" fields
  let summary ← field "summary" fields
  let baseSha ← field "base_sha" fields
  let headSha ← field "head_sha" fields
  let branch ← field "branch" fields
  let prUrl ← field "pr_url" fields
  let issueReference ← field "issue_reference" fields
  let changedFiles ← field "changed_files" fields
  let changedFiles ← texts repr changedFiles
  let commits ← field "commits" fields
  let commits ← texts repr commits
  let testsRun ← field "tests_run" fields
  let testsRun ← texts repr testsRun
  let probeIdentifier ← probeField repr probe "probe_identifier" fields
  let probeHash ← probeField repr probe "probe_hash" fields
  let risks ← field "risks" fields
  let risks ← texts repr risks
  let questions ← field "blocking_questions" fields
  let questions ← texts repr questions
  let result : RemediationResult := {
    outcome := outcome.text repr
    summary := summary.text repr
    baseSha := baseSha.text repr
    headSha := headSha
    branch := branch
    prUrl := prUrl
    issueReference := issueReference.text repr
    changedFiles := changedFiles
    commits := commits
    testsRun := testsRun
    probeIdentifier := probeIdentifier
    probeHash := probeHash
    risks := risks
    blockingQuestions := questions
    raw := output }
  if result.prCreated && !(result.prUrl.truthy && result.headSha.truthy && result.branch.truthy) then
    .error .incomplete
  else .ok result

/-! ## Typed documents -/

structure ProbeIdentity where
  identifier : TextUpTo 300
  hash : Matching hex256Re

/-- What a remediation reports. -/
structure RemediationDocument where
  outcome : OneOf remediationOutcomes
  summary : {s : String // 1 ≤ s.length ∧ s.length ≤ 4000}
  baseSha : Matching shaRe
  headSha : Option (Matching shaRe)
  branch : Option (TextUpTo 255)
  prUrl : Option (TextUpTo 500)
  issueReference : TextUpTo 200
  changedFiles : Texts 100
  commits : {ts : List String // ts.length ≤ 100 ∧ ∀ t ∈ ts, shaRe t.toList = true}
  testsRun : Texts 100
  risks : Texts 100
  blockingQuestions : Texts 100
  probe : Option ProbeIdentity

/-- A text, or `null`. -/
def orNull {P : String → Prop} : Option {s : String // P s} → Value
  | some s => .str s.1
  | none => .null

def ProbeIdentity.fields (p : ProbeIdentity) : List (String × Value) :=
  [("probe_identifier", .str p.identifier.1), ("probe_hash", .str p.hash.1)]

/-- The fields but for those of the probe. -/
def RemediationDocument.commonFields (t : RemediationDocument) : List (String × Value) :=
  [("schema_version", .str "remediation.v1"),
    ("outcome", .str t.outcome.1),
    ("summary", .str t.summary.1),
    ("base_sha", .str t.baseSha.1),
    ("head_sha", orNull t.headSha),
    ("branch", orNull t.branch),
    ("pr_url", orNull t.prUrl),
    ("issue_reference", .str t.issueReference.1),
    ("changed_files", .list (t.changedFiles.1.map .str)),
    ("commits", .list (t.commits.1.map .str)),
    ("tests_run", .list (t.testsRun.1.map .str)),
    ("risks", .list (t.risks.1.map .str)),
    ("blocking_questions", .list (t.blockingQuestions.1.map .str))]

def RemediationDocument.fields (t : RemediationDocument) : List (String × Value) :=
  t.commonFields ++ (t.probe.map ProbeIdentity.fields).getD []

/-- The document as JSON. -/
def RemediationDocument.encode (t : RemediationDocument) : Value := .dict t.fields

/-- A pull request is reported with its URL, its head and its branch. -/
def RemediationDocument.Complete (t : RemediationDocument) : Prop :=
  t.outcome.1 = "pr_created" →
    (∃ url, t.prUrl = some url ∧ url.1 ≠ "") ∧ t.headSha.isSome = true ∧
      ∃ branch, t.branch = some branch ∧ branch.1 ≠ ""

/-- What the worker takes from the document, which it has read from `raw`. -/
def RemediationDocument.result (t : RemediationDocument) (raw : Value) : RemediationResult where
  outcome := t.outcome.1
  summary := t.summary.1
  baseSha := t.baseSha.1
  headSha := orNull t.headSha
  branch := orNull t.branch
  prUrl := orNull t.prUrl
  issueReference := t.issueReference.1
  changedFiles := t.changedFiles.1
  commits := t.commits.1
  testsRun := t.testsRun.1
  probeIdentifier := t.probe.map fun p => p.identifier.1
  probeHash := t.probe.map fun p => p.hash.1
  risks := t.risks.1
  blockingQuestions := t.blockingQuestions.1
  raw := raw

/-! ## The parts -/

theorem valid_nullable {keyword : Schema} {P : String → Prop} (hnull : keyword.Valid .null)
    (hstr : ∀ s, keyword.Valid (.str s) ↔ P s) {v : Value} :
    (nullable keyword).Valid v ↔ ∃ o : Option {s : String // P s}, v = orNull o := by
  unfold nullable
  simp only [Schema.valid_all, List.forall_mem_cons, List.not_mem_nil, false_implies, implies_true,
    and_true]
  constructor
  · rintro ⟨⟨kind, hkind, hv⟩, hkeyword⟩
    simp only [List.mem_cons, List.not_mem_nil, or_false] at hkind
    cases v with
    | null => exact ⟨none, rfl⟩
    | str s => exact ⟨some ⟨s, (hstr s).mp hkeyword⟩, rfl⟩
    | number n => rcases hkind with rfl | rfl <;> cases n <;> cases hv
    | _ => rcases hkind with rfl | rfl <;> cases hv
  · rintro ⟨o, rfl⟩
    cases o with
    | none => exact ⟨⟨.null, List.mem_cons_of_mem _ List.mem_cons_self, rfl⟩, hnull⟩
    | some s => exact ⟨⟨.string, List.mem_cons_self, rfl⟩, (hstr s.1).mpr s.2⟩

theorem valid_head {v : Value} :
    (nullable (.pattern shaRe)).Valid v ↔ ∃ o : Option (Matching shaRe), v = orNull o :=
  valid_nullable (show (Schema.pattern shaRe).Valid .null from fun _ h => nomatch h)
    fun _ => valid_pattern

theorem valid_shortOrNull {n : Nat} {v : Value} :
    (nullable (.maxLength n)).Valid v ↔ ∃ o : Option (TextUpTo n), v = orNull o :=
  valid_nullable (show (Schema.maxLength n).Valid .null from fun _ h => nomatch h)
    fun _ => valid_maxLength

theorem valid_commits {v : Value} :
    commitsSchema.Valid v ↔ ∃ ts : List String, v = .list (ts.map .str) ∧ ts.length ≤ 100 ∧
      ∀ t ∈ ts, shaRe t.toList = true := by
  refine valid_texts (fun _ => valid_patternSchema) fun w => ?_
  simp only [List.forall_mem_cons, List.not_mem_nil, false_implies, implies_true, and_true]
  exact and_comm

/-- The names of the fields of a document. -/
def namesFor (probe : Bool) : List String :=
  commonSchemas.map Prod.fst ++ if probe then probeNames else []

theorem RemediationDocument.keys (t : RemediationDocument) :
    t.fields.map Prod.fst = namesFor t.probe.isSome := by
  unfold RemediationDocument.fields
  cases t.probe with
  | none => rfl
  | some p => rfl

theorem RemediationDocument.unique (t : RemediationDocument) : UniqueKeys t.fields := by
  have hnames : ∀ probe, (namesFor probe).Nodup := by decide
  unfold UniqueKeys
  rw [t.keys]
  exact hnames _

theorem distinct_orNull {P : String → Prop} (o : Option {s : String // P s}) :
    (orNull o).Distinct := by
  cases o <;> trivial

theorem RemediationDocument.distinct (t : RemediationDocument) : t.encode.Distinct := by
  refine ⟨t.unique, ?_⟩
  unfold RemediationDocument.fields
  cases t.probe with
  | none =>
      exact ⟨trivial, trivial, trivial, trivial, distinct_orNull _, distinct_orNull _,
        distinct_orNull _, trivial, distinct_texts _, distinct_texts _, distinct_texts _,
        distinct_texts _, distinct_texts _, trivial⟩
  | some p =>
      exact ⟨trivial, trivial, trivial, trivial, distinct_orNull _, distinct_orNull _,
        distinct_orNull _, trivial, distinct_texts _, distinct_texts _, distinct_texts _,
        distinct_texts _, distinct_texts _, trivial, trivial, trivial⟩

/-! ## The document -/

/-- The properties of either schema. -/
theorem mem_schemasFor {probe : Bool} {entry : String × Schema} :
    entry ∈ schemasFor probe ↔ entry ∈ commonSchemas ∨ probe = true ∧
      (entry = ("probe_identifier", textSchema 300) ∨
        entry = ("probe_hash", patternSchema hex256Re)) := by
  cases probe with
  | false =>
      constructor
      · exact Or.inl
      · rintro (h | ⟨h, -⟩)
        · exact h
        · cases h
  | true =>
      have hperm : remediationFields.Perm (commonSchemas ++
          [("probe_identifier", textSchema 300), ("probe_hash", patternSchema hex256Re)]) := by
        exact (List.filter_append_perm (fun entry => !probeNames.contains entry.1)
          remediationFields).symm
      change entry ∈ remediationFields ↔ _
      rw [hperm.mem_iff, List.mem_append]
      simp only [List.mem_cons, List.not_mem_nil, or_false, true_and]

/-- The common properties and those of a probe, at a document. -/
theorem RemediationDocument.valid_entry (t : RemediationDocument) {entry : String × Schema}
    (hentry : entry ∈ schemasFor t.probe.isSome) :
    ∀ x, List.lookup entry.1 t.fields = some x → entry.2.Valid x := by
  rcases mem_schemasFor.mp hentry with hcommon | ⟨hprobe, hentry⟩
  · clear hentry
    revert entry
    change ∀ entry ∈ commonSchemas, _
    simp only [show commonSchemas = [("schema_version", Schema.all [.type [.string],
        .const "remediation.v1"]), ("outcome", enumSchema remediationOutcomes),
      ("summary", .all [.type [.string], .minLength 1, .maxLength 4000]),
      ("base_sha", patternSchema shaRe), ("head_sha", nullable (.pattern shaRe)),
      ("branch", nullable (.maxLength 255)), ("pr_url", nullable (.maxLength 500)),
      ("issue_reference", textSchema 200), ("changed_files", stringList 100),
      ("commits", commitsSchema), ("tests_run", stringList 100), ("risks", stringList 100),
      ("blocking_questions", stringList 100)] from rfl, List.forall_mem_cons, List.not_mem_nil,
      false_implies, implies_true, and_true]
    refine ⟨?_, ?_, ?_, ?_, ?_, ?_, ?_, ?_, ?_, ?_, ?_, ?_, ?_⟩
    · exact valid_at rfl (valid_string.mpr ⟨_, rfl, by simp [Schema.Valid]⟩)
    · exact valid_at rfl (valid_enum.mpr ⟨_, rfl, t.outcome.2⟩)
    · refine valid_at rfl (valid_string.mpr ⟨_, rfl, ?_⟩)
      simp only [List.forall_mem_cons, List.not_mem_nil, false_implies, implies_true, and_true,
        valid_minLength, valid_maxLength]
      exact t.summary.2
    · exact valid_at rfl (valid_patternSchema.mpr ⟨_, rfl, t.baseSha.2⟩)
    · exact valid_at rfl (valid_head.mpr ⟨t.headSha, rfl⟩)
    · exact valid_at rfl (valid_shortOrNull.mpr ⟨t.branch, rfl⟩)
    · exact valid_at rfl (valid_shortOrNull.mpr ⟨t.prUrl, rfl⟩)
    · exact valid_at rfl (valid_text.mpr ⟨_, rfl, t.issueReference.2⟩)
    · exact valid_at rfl (valid_stringList.mpr ⟨_, rfl, t.changedFiles.2⟩)
    · exact valid_at rfl (valid_commits.mpr ⟨_, rfl, t.commits.2⟩)
    · exact valid_at rfl (valid_stringList.mpr ⟨_, rfl, t.testsRun.2⟩)
    · exact valid_at rfl (valid_stringList.mpr ⟨_, rfl, t.risks.2⟩)
    · exact valid_at rfl (valid_stringList.mpr ⟨_, rfl, t.blockingQuestions.2⟩)
  · obtain ⟨p, hp⟩ := Option.isSome_iff_exists.mp hprobe
    have hfields : t.fields = t.commonFields ++ p.fields := by
      unfold RemediationDocument.fields
      rw [hp]
      rfl
    rw [hfields]
    rcases hentry with rfl | rfl
    · exact valid_at rfl (valid_text.mpr ⟨_, rfl, p.identifier.2⟩)
    · exact valid_at rfl (valid_patternSchema.mpr ⟨_, rfl, p.hash.2⟩)

/-- Every document meets the schema of its kind. -/
theorem RemediationDocument.valid (t : RemediationDocument) :
    (remediationSchema t.probe.isSome).Valid t.encode := by
  have hknown : ∀ probe, ∀ name ∈ namesFor probe, name ∈ (schemasFor probe).map Prod.fst := by
    intro probe
    cases probe <;> decide
  have hpresent : ∀ probe, ∀ name ∈ requiredFor probe, name ∈ namesFor probe := by
    intro probe
    cases probe <;> decide
  refine Schema.object_iff.mpr ⟨_, rfl, conforms_of_fields ?_ ?_ fun entry => t.valid_entry⟩
  · rw [t.keys]
    exact hknown _
  · rw [t.keys]
    exact hpresent _

/-- A field that both schemas require. -/
theorem common_get {probe : Bool} {fields : List (String × Value)}
    (h : Conforms (requiredFor probe) (schemasFor probe) fields) (i : Nat) {name : String}
    {schema : Schema} (hi : commonSchemas[i]? = some (name, schema)) :
    ∃ x, List.lookup name fields = some x ∧ schema.Valid x := by
  have hrequired : ∀ probe, ∀ n ∈ commonSchemas.map Prod.fst, n ∈ requiredFor probe := by
    intro probe
    cases probe <;> decide
  have hmem := List.mem_of_getElem? hi
  obtain ⟨x, hx⟩ := Option.isSome_iff_exists.mp
    (h.present name (hrequired probe name (List.mem_map.mpr ⟨_, hmem, rfl⟩)))
  exact ⟨x, hx, h.valid _ (mem_schemasFor.mpr (Or.inl hmem)) x hx⟩

/-- The identity of the probe, where the schema asks for it. -/
theorem exists_identity {probe : Bool} {fields : List (String × Value)}
    (h : Conforms (requiredFor probe) (schemasFor probe) fields) :
    ∃ p : Option ProbeIdentity, p.isSome = probe ∧
      ∀ field ∈ (p.map ProbeIdentity.fields).getD [],
        ∃ x, List.lookup field.1 fields = some x ∧ x.Same field.2 := by
  cases probe with
  | false => exact ⟨none, rfl, nofun⟩
  | true =>
      obtain ⟨identifier, hidentifier, hvalid⟩ := conforms_get h 11 rfl (by decide)
      obtain ⟨identifier, rfl, hlength⟩ := valid_text.mp hvalid
      obtain ⟨hash, hhash, hvalid⟩ := conforms_get h 12 rfl (by decide)
      obtain ⟨hash, rfl, hhex⟩ := valid_patternSchema.mp hvalid
      refine ⟨some ⟨⟨identifier, hlength⟩, ⟨hash, hhex⟩⟩, rfl, ?_⟩
      simp only [Option.map_some, Option.getD_some, ProbeIdentity.fields, List.forall_mem_cons,
        List.not_mem_nil, false_implies, implies_true, and_true]
      exact ⟨⟨_, hidentifier, rfl⟩, _, hhash, rfl⟩

/-- What meets a schema is a document of its kind. -/
theorem exists_remediation {probe : Bool} {v : Value} (hv : v.Distinct)
    (h : (remediationSchema probe).Valid v) :
    ∃ t : RemediationDocument, t.probe.isSome = probe ∧ v.Same t.encode := by
  obtain ⟨fields, rfl, hc⟩ := Schema.object_iff.mp h
  obtain ⟨version, hversion, hvalid⟩ := common_get hc 0 rfl
  obtain ⟨version, rfl, hconst⟩ := valid_string.mp hvalid
  obtain rfl := Value.str.inj (hconst _ (List.mem_singleton.mpr rfl))
  obtain ⟨outcome, houtcome, hvalid⟩ := common_get hc 1 rfl
  obtain ⟨outcome, rfl, houtcomes⟩ := valid_enum.mp hvalid
  obtain ⟨summary, hsummary, hvalid⟩ := common_get hc 2 rfl
  obtain ⟨summary, rfl, hbounds⟩ := valid_string.mp hvalid
  simp only [List.forall_mem_cons, List.not_mem_nil, false_implies, implies_true, and_true,
    valid_minLength, valid_maxLength] at hbounds
  obtain ⟨base, hbase, hvalid⟩ := common_get hc 3 rfl
  obtain ⟨base, rfl, hbaseHex⟩ := valid_patternSchema.mp hvalid
  obtain ⟨head, hhead, hvalid⟩ := common_get hc 4 rfl
  obtain ⟨head, rfl⟩ := valid_head.mp hvalid
  obtain ⟨branch, hbranch, hvalid⟩ := common_get hc 5 rfl
  obtain ⟨branch, rfl⟩ := valid_shortOrNull.mp hvalid
  obtain ⟨url, hurl, hvalid⟩ := common_get hc 6 rfl
  obtain ⟨url, rfl⟩ := valid_shortOrNull.mp hvalid
  obtain ⟨issue, hissue, hvalid⟩ := common_get hc 7 rfl
  obtain ⟨issue, rfl, hissueLength⟩ := valid_text.mp hvalid
  obtain ⟨files, hfiles, hvalid⟩ := common_get hc 8 rfl
  obtain ⟨files, rfl, hfilesBounds⟩ := valid_stringList.mp hvalid
  obtain ⟨commits, hcommits, hvalid⟩ := common_get hc 9 rfl
  obtain ⟨commits, rfl, hcommitsBounds⟩ := valid_commits.mp hvalid
  obtain ⟨tests, htests, hvalid⟩ := common_get hc 10 rfl
  obtain ⟨tests, rfl, htestsBounds⟩ := valid_stringList.mp hvalid
  obtain ⟨risks, hrisks, hvalid⟩ := common_get hc 11 rfl
  obtain ⟨risks, rfl, hrisksBounds⟩ := valid_stringList.mp hvalid
  obtain ⟨questions, hquestions, hvalid⟩ := common_get hc 12 rfl
  obtain ⟨questions, rfl, hquestionsBounds⟩ := valid_stringList.mp hvalid
  obtain ⟨p, hp, hidentity⟩ := exists_identity hc
  let t : RemediationDocument :=
    { outcome := ⟨outcome, houtcomes⟩
      summary := ⟨summary, hbounds⟩
      baseSha := ⟨base, hbaseHex⟩
      headSha := head
      branch := branch
      prUrl := url
      issueReference := ⟨issue, hissueLength⟩
      changedFiles := ⟨files, hfilesBounds⟩
      commits := ⟨commits, hcommitsBounds⟩
      testsRun := ⟨tests, htestsBounds⟩
      risks := ⟨risks, hrisksBounds⟩
      blockingQuestions := ⟨questions, hquestionsBounds⟩
      probe := p }
  have hknown : ∀ probe, ∀ name ∈ (schemasFor probe).map Prod.fst, name ∈ namesFor probe := by
    intro probe
    cases probe <;> decide
  refine ⟨t, hp, same_of_fields hv.1 t.unique ?_ ?_⟩
  · intro field hfield
    rw [t.keys, show t.probe.isSome = probe from hp]
    exact hknown probe _ (hc.closed field hfield)
  · unfold RemediationDocument.fields
    simp only [List.forall_mem_append]
    refine ⟨?_, hidentity⟩
    simp only [RemediationDocument.commonFields, List.forall_mem_cons, List.not_mem_nil,
      false_implies, implies_true, and_true]
    exact ⟨⟨_, hversion, rfl⟩, ⟨_, houtcome, rfl⟩, ⟨_, hsummary, rfl⟩, ⟨_, hbase, rfl⟩,
      ⟨_, hhead, rfl⟩, ⟨_, hbranch, rfl⟩, ⟨_, hurl, rfl⟩, ⟨_, hissue, rfl⟩, ⟨_, hfiles, rfl⟩,
      ⟨_, hcommits, rfl⟩, ⟨_, htests, rfl⟩, ⟨_, hrisks, rfl⟩, _, hquestions, rfl⟩

/-! ## Reading -/

theorem eq_of_same_orNull {P : String → Prop} {v : Value} {o : Option {s : String // P s}}
    (h : v.Same (orNull o)) : v = orNull o := by
  cases o with
  | none => exact sortKeys_eq_null.mp h
  | some s => exact sortKeys_eq_str.mp h

theorem truthy_orNull {P : String → Prop} {o : Option {s : String // P s}} :
    (orNull o).truthy = true ↔ ∃ s, o = some s ∧ s.1 ≠ "" := by
  cases o with
  | none => exact ⟨nofun, fun ⟨s, h, _⟩ => by cases h⟩
  | some s =>
      change decide (s.1 ≠ "") = true ↔ _
      rw [decide_eq_true_eq]
      exact ⟨fun h => ⟨s, rfl, h⟩, fun ⟨s', h, hne⟩ => Option.some.inj h ▸ hne⟩

/-- A SHA is not empty. -/
theorem truthy_head {o : Option (Matching shaRe)} : (orNull o).truthy = true ↔ o.isSome = true := by
  rw [truthy_orNull, Option.isSome_iff_exists]
  refine exists_congr fun s => and_iff_left_of_imp fun _ hempty => ?_
  have hmatch := s.2
  rw [hempty] at hmatch
  exact absurd hmatch (by decide)

/-- The last check of the validator. -/
theorem RemediationDocument.complete_iff (t : RemediationDocument) (raw : Value) :
    ((t.result raw).prCreated && !((t.result raw).prUrl.truthy && (t.result raw).headSha.truthy &&
      (t.result raw).branch.truthy)) = false ↔ t.Complete := by
  unfold RemediationDocument.Complete RemediationResult.prCreated RemediationDocument.result
  dsimp only
  rw [← truthy_orNull, ← truthy_head, ← truthy_orNull]
  by_cases houtcome : t.outcome.1 = "pr_created"
  · rw [decide_eq_true houtcome, Bool.true_and, Bool.not_eq_false', Bool.and_eq_true,
      Bool.and_eq_true, and_assoc]
    exact ⟨fun h _ => h, fun h => h houtcome⟩
  · rw [decide_eq_false houtcome, Bool.false_and]
    exact ⟨fun _ h => absurd h houtcome, fun _ => rfl⟩

/-- The worker reads from an output what the document says, whatever the order of its keys. -/
theorem validate_of_remediation {iterErrors : Validator} (hdraft : iterErrors.Draft7)
    {repr : Value → String} {v : Value} (hv : v.Distinct)
    {t : RemediationDocument} (h : v.Same t.encode) :
    validateRemediationOutput iterErrors repr t.probe.isSome v =
      if (t.result v).prCreated && !((t.result v).prUrl.truthy && (t.result v).headSha.truthy &&
        (t.result v).branch.truthy) then .error .incomplete else .ok (t.result v) := by
  have hvalid := (Schema.valid_of_same hv t.distinct h).mpr t.valid
  obtain ⟨fields, rfl, hget⟩ := same_dict hv t.unique h
  have hchecked :
      checked iterErrors (remediationSchema t.probe.isSome) (.dict fields) = .ok fields :=
    (checked_eq_ok hdraft).mpr ⟨rfl, hvalid⟩
  have hstr : ∀ key s, List.lookup key t.fields = some (.str s) →
      field key fields = .ok (.str s) := by
    intro key s hkey
    obtain ⟨x, hx, hsame⟩ := hget key _ hkey
    rw [sortKeys_eq_str.mp hsame] at hx
    exact field_eq hx
  have hnull : ∀ key (P : String → Prop) (o : Option {s : String // P s}),
      List.lookup key t.fields = some (orNull o) → field key fields = .ok (orNull o) := by
    intro key P o hkey
    obtain ⟨x, hx, hsame⟩ := hget key _ hkey
    rw [eq_of_same_orNull hsame] at hx
    exact field_eq hx
  have hlist : ∀ key (ts : List String), List.lookup key t.fields = some (.list (ts.map .str)) →
      field key fields = .ok (.list (ts.map .str)) := by
    intro key ts hkey
    obtain ⟨x, hx, hsame⟩ := hget key _ hkey
    have hts : x.sortKeys = .list (ts.map .str) := hsame.trans (sortKeys_eq_texts.mpr rfl)
    rw [sortKeys_eq_texts.mp hts] at hx
    exact field_eq hx
  have hprobe : ∀ key (read : ProbeIdentity → String),
      (∀ p, t.probe = some p → List.lookup key t.fields = some (.str (read p))) →
      probeField repr t.probe.isSome key fields = .ok (t.probe.map read) := by
    intro key read hread
    cases hp : t.probe with
    | none => rfl
    | some p =>
        unfold probeField
        rw [Option.isSome_some, if_pos rfl, hstr key _ (hread p hp)]
        rfl
  have hidentifier := hprobe "probe_identifier" (fun p => p.identifier.1) fun p hp => by
    unfold RemediationDocument.fields
    rw [hp]
    rfl
  have hhash := hprobe "probe_hash" (fun p => p.hash.1) fun p hp => by
    unfold RemediationDocument.fields
    rw [hp]
    rfl
  unfold validateRemediationOutput
  simp only [hchecked, hstr "outcome" _ rfl, hstr "summary" _ rfl, hstr "base_sha" _ rfl,
    hnull "head_sha" _ _ rfl, hnull "branch" _ _ rfl, hnull "pr_url" _ _ rfl,
    hstr "issue_reference" _ rfl, hlist "changed_files" _ rfl, hlist "commits" _ rfl,
    hlist "tests_run" _ rfl, hidentifier, hhash, hlist "risks" _ rfl,
    hlist "blocking_questions" _ rfl, texts_list, bind, Except.bind]
  rfl

/-- What a refusal says about the output of a remediation: besides the schema, that a pull request
is reported without its URL, head or branch. -/
def RemediationExplains (iterErrors : Validator) (probe : Bool) (v : Value) : Refusal → Prop
  | .incomplete => ∃ t : RemediationDocument, t.probe.isSome = probe ∧ v.Same t.encode ∧ ¬ t.Complete
  | e => Explains iterErrors (remediationSchema probe) v e

/-- `validate_remediation_output` accepts an output exactly if it encodes, in whatever order of
keys, a complete document of the contract, with the identity of a probe or without it as was asked
for, and returns what the document says. Every other output is refused with an explanation, and no
exception leaves it but one of the library. -/
theorem remediation_settled {iterErrors : Validator} (hdraft : iterErrors.Draft7)
    (repr : Value → String) (probe : Bool) {v : Value} (hv : v.Distinct) :
    (∀ r, validateRemediationOutput iterErrors repr probe v = .ok r ↔
      ∃ t : RemediationDocument, t.probe.isSome = probe ∧ v.Same t.encode ∧ t.Complete ∧
        r = t.result v) ∧
      ∀ e, validateRemediationOutput iterErrors repr probe v = .error e →
        RemediationExplains iterErrors probe v e := by
  have hread : ∀ t : RemediationDocument, t.probe.isSome = probe → v.Same t.encode →
      validateRemediationOutput iterErrors repr probe v =
        if (t.result v).prCreated && !((t.result v).prUrl.truthy && (t.result v).headSha.truthy &&
          (t.result v).branch.truthy) then .error .incomplete else .ok (t.result v) := by
    rintro t rfl hsame
    exact validate_of_remediation hdraft hv hsame
  cases hchecked : checked iterErrors (remediationSchema probe) v with
  | error d =>
      have herror : validateRemediationOutput iterErrors repr probe v = .error d := by
        unfold validateRemediationOutput
        rw [hchecked]
        rfl
      have hexplains := checked_error hdraft hchecked
      rw [herror]
      constructor
      · refine fun r => ⟨nofun, ?_⟩
        rintro ⟨t, rfl, hsame, -, -⟩
        have hvalid := (Schema.valid_of_same hv t.distinct hsame).mpr t.valid
        obtain ⟨fields, rfl, -⟩ := same_dict hv t.unique hsame
        rw [(checked_eq_ok hdraft).mpr ⟨rfl, hvalid⟩] at hchecked
        cases hchecked
      · rintro e h
        obtain rfl := Except.error.inj h
        cases d with
        | incomplete => exact hexplains.elim
        | _ => exact hexplains
  | ok fields =>
      obtain ⟨t, hprobe, hsame⟩ := exists_remediation hv ((checked_eq_ok hdraft).mp hchecked).2
      have hsettled := hread t hprobe hsame
      constructor
      · intro r
        constructor
        · intro h
          rw [hsettled] at h
          split_ifs at h with hcheck
          exact ⟨t, hprobe, hsame, (t.complete_iff v).mp (Bool.not_eq_true _ ▸ hcheck),
            (Except.ok.inj h).symm⟩
        · rintro ⟨u, hu, husame, hcomplete, rfl⟩
          rw [hread u hu husame, if_neg]
          rw [(u.complete_iff v).mpr hcomplete]
          exact Bool.false_ne_true
      · intro e h
        rw [hsettled] at h
        split_ifs at h with hcheck
        obtain rfl := Except.error.inj h
        refine ⟨t, hprobe, hsame, fun hcomplete => ?_⟩
        rw [(t.complete_iff v).mpr hcomplete] at hcheck
        exact Bool.false_ne_true hcheck

/-! ### A pull request without a probe -/

def demoRemediation : RemediationDocument where
  outcome := ⟨"pr_created", by decide⟩
  summary := ⟨"Kept the row.", by decide⟩
  baseSha := ⟨"0123456789abcdef0123456789abcdef01234567", by decide⟩
  headSha := some ⟨"89abcdef0123456789abcdef0123456789abcdef", by decide⟩
  branch := some ⟨"devin/fix-42", by decide⟩
  prUrl := some ⟨"https://github.com/apache/superset/pull/77", by decide⟩
  issueReference := ⟨"apache/superset#42", by decide⟩
  changedFiles := ⟨["superset/views.py"], by decide⟩
  commits := ⟨["89abcdef0123456789abcdef0123456789abcdef"], by decide⟩
  testsRun := ⟨[], by decide⟩
  risks := ⟨[], by decide⟩
  blockingQuestions := ⟨[], by decide⟩
  probe := none

theorem demoRemediation_complete : demoRemediation.Complete := fun _ =>
  ⟨⟨_, rfl, by decide⟩, rfl, _, rfl, by decide⟩

theorem remediation_settled_demo :
    validateRemediationOutput (fun schema v => .ok (schema.errors v)) (fun _ => "") false
        (.dict demoRemediation.fields.reverse) =
      .ok (demoRemediation.result (.dict demoRemediation.fields.reverse)) := by
  have hperm := List.reverse_perm demoRemediation.fields
  have hdistinct := distinct_of_perm hperm.symm demoRemediation.distinct
  exact ((remediation_settled draft7_errors (fun _ => "") false hdistinct).1 _).mpr
    ⟨demoRemediation, rfl, same_of_perm hdistinct.1 hperm, demoRemediation_complete, rfl⟩

end Remediator.Contracts
