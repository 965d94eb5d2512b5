import Remediator.Probes.Refusals

set_option autoImplicit false

/-! # Only a missing manifest is a missing probe

`remediator/probe_policy.py` looks for a marker in the text of a refusal: once when it dispatches,
and again in the reason of a blocked case, where the query of the worker repeats the test as a
`LIKE`.
-/

namespace Remediator.Probes

open Text

/-! ## The two tests of a reason -/

theorem isMissingProbeBlock_iff {reason : Text} :
    isMissingProbeBlock reason = true ↔
      missingProbeBlockStart <+: reason.dropWhile Devin.isSpace ∧
        missingProbeMarker <:+: reason := by
  unfold isMissingProbeBlock isMissingProbeError startsWith
  rw [Bool.and_eq_true, List.isPrefixOf_iff_prefix, contains_iff,
    prefix_stripBy_iff ⟨':', rfl, rfl⟩, infix_stripBy_iff ⟨'n', rfl, rfl⟩ ⟨'d', rfl, rfl⟩]

theorem missingProbeBlocked_iff {reason : Text} :
    missingProbeBlocked reason = true ↔
      missingProbeBlockStart <+: reason ∧ missingProbeMarker <:+: reason := by
  have hclear : Clear missingProbeMarker missingProbeBlockStart := clear_iff.mp rfl
  unfold missingProbeBlocked
  rw [like_start_any (by decide) (by decide)]
  constructor
  · rintro ⟨rest, rfl, hmarker⟩
    exact ⟨List.prefix_append _ _, (hclear.infix_iff (by decide) rest).mpr hmarker⟩
  · rintro ⟨⟨rest, rfl⟩, hmarker⟩
    exact ⟨rest, rfl, (hclear.infix_iff (by decide) rest).mp hmarker⟩

/-- The text starts with white space. -/
def StartsBlank (t : Text) : Prop := ∃ c, t.head? = some c ∧ Devin.isSpace c = true

theorem dropWhile_of_not_blank {t : Text} (h : ¬ StartsBlank t) :
    t.dropWhile Devin.isSpace = t := by
  cases t with
  | nil => rfl
  | cons c t =>
      have hc : ¬ Devin.isSpace c = true := fun hc => h ⟨c, rfl, hc⟩
      exact List.dropWhile_cons_of_neg hc

theorem not_blank_of_missingProbeBlocked {reason : Text} (h : missingProbeBlocked reason = true) :
    ¬ StartsBlank reason := by
  obtain ⟨⟨rest, rfl⟩, -⟩ := missingProbeBlocked_iff.mp h
  rintro ⟨c, hc, hspace⟩
  cases hc
  exact absurd hspace (by decide)

/-- The query and the function accept the same reasons, except those that start with white space. -/
theorem same_test_iff (reason : Text) :
    missingProbeBlocked reason = isMissingProbeBlock reason ↔
      (StartsBlank reason → isMissingProbeBlock reason = false) := by
  by_cases hblank : StartsBlank reason
  · have hquery : missingProbeBlocked reason = false := by
      rw [← Bool.not_eq_true]
      exact fun h => not_blank_of_missingProbeBlocked h hblank
    rw [hquery]
    exact ⟨fun h _ => h.symm, fun h => (h hblank).symm⟩
  · refine ⟨fun _ h => absurd h hblank, fun _ => ?_⟩
    rw [Bool.eq_iff_iff, missingProbeBlocked_iff, isMissingProbeBlock_iff,
      dropWhile_of_not_blank hblank]

/-! ## The reasons that are written -/

/-- The reasons with which the worker blocks a case for a human. -/
inductive BlockReason
  | issueState (state : Text)
  | activeAttempt (operationKey : Text)
  | verifiedPr (prUrl : Text)
  | unavailable (error : Text)
  | needsHuman (questions : Text)
  | openedPr (claimed : Text)
  | uncontradicted (summary : Text)
  | pullRequests (count : Nat)
  | prNeedsHuman (number : Int) (human : Text)
  | alreadyPasses (baseSha exitCode : Text)
  | severalSessions (count : Nat) (operationKey : Text)
  | createUnknown (error : Text)
  | noSession
  | suspended (detail : Text)
  | waiting (detail : Text)

def BlockReason.text : BlockReason → Text
  | .issueState state => "issue is ".toList ++ (state ++ "; remediation not started".toList)
  | .activeAttempt key => "remediation attempt ".toList ++ (key ++ " is still active".toList)
  | .verifiedPr url => "a verified PR already exists for this case: ".toList ++ url
  | .unavailable error => missingProbeBlockStart ++ ' ' :: error
  | .needsHuman questions => "Devin needs a human: ".toList ++ questions
  | .openedPr claimed =>
      "Devin reported no_change_needed but opened a PR: ".toList ++ claimed
  | .uncontradicted summary =>
      ("Devin reported no_change_needed and no acceptance probe exists to ".toList ++
        "contradict it (PROBE_NOT_CONFIGURED): ".toList) ++ summary
  | .pullRequests count =>
      "Devin reports ".toList ++
        ((toString count).toList ++ " pull requests; expected exactly one".toList)
  | .prNeedsHuman number human =>
      "PR #".toList ++ ((toString number).toList ++ (" needs a human: ".toList ++ human))
  | .alreadyPasses baseSha exitCode =>
      "no_change_needed: approved probe already passes at base ".toList ++
        (baseSha ++ (" (exit ".toList ++ (exitCode ++ "); no Devin session created".toList)))
  | .severalSessions count key =>
      (toString count).toList ++
        (" Devin sessions carry operation tag ".toList ++ (key ++ "; refusing to pick one".toList))
  | .createUnknown error => "create outcome could not be established: ".toList ++ error
  | .noSession => "no Devin session carries the operation tag; create outcome unknown".toList
  | .suspended detail => "session suspended: ".toList ++ detail
  | .waiting detail => "session ".toList ++ detail

theorem BlockReason.text_unavailable (error : Text) :
    (unavailable error).text = missingProbeBlockStart ++ ' ' :: error := rfl

/-- A text that starts with neither white space nor an `a`. -/
def StartsElsewhere (t : Text) : Prop :=
  ∃ c, t.head? = some c ∧ Devin.isSpace c = false ∧ c ≠ 'a'

theorem StartsElsewhere.not_blank {t : Text} (h : StartsElsewhere t) : ¬ StartsBlank t := by
  obtain ⟨c, hc, hspace, -⟩ := h
  rintro ⟨d, hd, hblank⟩
  rw [hc] at hd
  cases hd
  rw [hspace] at hblank
  cases hblank

theorem StartsElsewhere.not_block {t : Text} (h : StartsElsewhere t) :
    isMissingProbeBlock t = false := by
  rw [← Bool.not_eq_true, isMissingProbeBlock_iff, dropWhile_of_not_blank h.not_blank]
  rintro ⟨⟨rest, rfl⟩, -⟩
  obtain ⟨c, hc, -, ha⟩ := h
  cases hc
  exact ha rfl

theorem isSpace_of_isDigit {c : Char} (h : c.isDigit = true) : Devin.isSpace c = false := by
  have hrange : 48 ≤ c.toNat ∧ c.toNat ≤ 57 := by
    unfold Char.isDigit at h
    rw [Bool.and_eq_true, decide_eq_true_eq, decide_eq_true_eq] at h
    exact ⟨UInt32.le_iff_toNat_le.mp h.1, UInt32.le_iff_toNat_le.mp h.2⟩
  obtain ⟨hlow, hhigh⟩ := hrange
  rw [Bool.eq_false_iff]
  intro hspace
  unfold Devin.isSpace at hspace
  simp only [Bool.or_eq_true, Bool.and_eq_true, decide_eq_true_eq, beq_iff_eq] at hspace
  omega

/-- A number in a reason starts with a digit. -/
theorem startsElsewhere_number (n : Nat) (rest : Text) :
    StartsElsewhere ((toString n).toList ++ rest) := by
  have hdigits : (toString n).toList = Nat.toDigits 10 n := Nat.toList_repr
  rw [hdigits]
  cases htext : Nat.toDigits 10 n with
  | nil => exact absurd htext Nat.toDigits_ne_nil
  | cons c digits =>
      have hc : c ∈ Nat.toDigits 10 n := by
        rw [htext]
        exact List.mem_cons_self
      have hdigit := Nat.isDigit_of_mem_toDigits (by decide) (by decide) hc
      refine ⟨c, rfl, isSpace_of_isDigit hdigit, ?_⟩
      rintro rfl
      exact absurd hdigit (by decide)

/-- Every other reason starts elsewhere, but for the one that starts like an English sentence. -/
theorem BlockReason.startsElsewhere (block : BlockReason) :
    (∃ error, block = .unavailable error) ∨ (∃ url, block = .verifiedPr url) ∨
      StartsElsewhere block.text := by
  cases block with
  | unavailable error => exact Or.inl ⟨error, rfl⟩
  | verifiedPr url => exact Or.inr (Or.inl ⟨url, rfl⟩)
  | severalSessions count key => exact Or.inr (Or.inr (startsElsewhere_number count _))
  | _ => exact Or.inr (Or.inr ⟨_, rfl, by decide, by decide⟩)

/-- No reason starts with white space. -/
theorem BlockReason.not_blank (block : BlockReason) : ¬ StartsBlank block.text := by
  rcases block.startsElsewhere with ⟨error, rfl⟩ | ⟨url, rfl⟩ | h
  · rintro ⟨c, hc, hspace⟩
    cases hc
    exact absurd hspace (by decide)
  · rintro ⟨c, hc, hspace⟩
    cases hc
    exact absurd hspace (by decide)
  · exact h.not_blank

/-- Of the reasons, only that of a refusal of the registry is accepted. -/
theorem BlockReason.eq_unavailable {block : BlockReason}
    (h : isMissingProbeBlock block.text = true) :
    ∃ error, block = .unavailable error ∧ missingProbeMarker <:+: error := by
  rcases block.startsElsewhere with ⟨error, rfl⟩ | ⟨url, rfl⟩ | hother
  · refine ⟨error, rfl, ?_⟩
    have hclear : Clear missingProbeMarker (missingProbeBlockStart ++ [' ']) := clear_iff.mp rfl
    have hreason := (isMissingProbeBlock_iff.mp h).2
    change missingProbeMarker <:+: (missingProbeBlockStart ++ [' ']) ++ error at hreason
    exact (hclear.infix_iff (by decide) error).mp hreason
  · obtain ⟨⟨rest, hrest⟩, -⟩ := isMissingProbeBlock_iff.mp h
    rw [dropWhile_of_not_blank (BlockReason.verifiedPr url).not_blank] at hrest
    have hsecond := congrArg (fun t : Text => t[1]?) hrest
    change some 'p' = some ' ' at hsecond
    exact absurd hsecond (by decide)
  · rw [hother.not_block] at h
    cases h

/-- The query and the function agree on every reason that is written. -/
theorem BlockReason.same_test (block : BlockReason) :
    missingProbeBlocked block.text = isMissingProbeBlock block.text :=
  (same_test_iff block.text).mpr fun h => absurd h block.not_blank

/-- `claim_case` and `_resume_missing_probe_block`: the worker opens a blocked case again. -/
def reopens (probeRequired : Bool) (reason : Text) : Bool :=
  !probeRequired && missingProbeBlocked reason && isMissingProbeBlock reason

theorem isMissingProbeBlock_unavailable (error : Text) :
    isMissingProbeBlock (BlockReason.unavailable error).text = true ↔
      missingProbeMarker <:+: error := by
  constructor
  · intro h
    obtain ⟨other, heq, hmarker⟩ := BlockReason.eq_unavailable h
    rw [BlockReason.unavailable.injEq] at heq
    rw [heq]
    exact hmarker
  · intro hmarker
    rw [isMissingProbeBlock_iff, dropWhile_of_not_blank (BlockReason.not_blank _),
      BlockReason.text_unavailable]
    refine ⟨List.prefix_append _ _, hmarker.trans ?_⟩
    exact ((List.suffix_cons _ _).trans (List.suffix_append _ _)).isInfix

theorem reopens_iff (error : Text) :
    reopens false (BlockReason.unavailable error).text = true ↔ missingProbeMarker <:+: error := by
  unfold reopens
  rw [(BlockReason.unavailable error).same_test, Bool.not_false, Bool.true_and, Bool.and_self]
  exact isMissingProbeBlock_unavailable error

/-! ## The decision -/

section Decision

variable (py : Python) (hashing : Hashing) (content : Registered) (repository : Text)
  (issueNumber : Int)

/-- The registry looks for a manifest, and there is none. -/
def ManifestMissing : Prop :=
  content.manifest = .noFile ∧ 0 < issueNumber ∧ isOwnerName repository = true

/-- What `_dispatch` does with the issue. -/
def dispatchIssue (probeRequired : Bool) : Route :=
  dispatchProbe probeRequired (loadApprovedProbe py hashing content repository issueNumber)

/-- Only a missing manifest counts as a missing probe. -/
structure OnlyMissing : Prop where
  withoutProbe : (∃ detail, dispatchIssue py hashing content repository issueNumber false =
    .withoutProbe detail) ↔ content.hasManifest = false
  blocks : content.hasManifest = true →
    firstFailing (registryChecks py hashing content repository issueNumber) ≠ none →
    ∃ reason, dispatchIssue py hashing content repository issueNumber false = .humanBlock reason
  reopened : ∀ probeRequired reason,
    dispatchIssue py hashing content repository issueNumber probeRequired = .humanBlock reason →
    reopens false reason = true → ManifestMissing content repository issueNumber

/-- The issue has an address, and the first check that fails raises nothing and quotes no value with
the marker. -/
structure Unambiguous : Prop where
  absent : content.hasManifest = false → ManifestMissing content repository issueNumber
  present : content.hasManifest = true →
    ∀ check, firstFailing (registryChecks py hashing content repository issueNumber) = some check →
      ∃ quotes, check.quotes = some quotes ∧ ∀ value ∈ quotes, ¬ missingProbeMarker <:+: value

variable {py hashing content repository issueNumber}

theorem withoutProbe_iff {p : Checked ApprovedProbe} :
    (∃ detail, dispatchProbe false p = .withoutProbe detail) ↔
      ∃ message, p = .error (.registry message) ∧ missingProbeMarker <:+: join message := by
  constructor
  · rintro ⟨detail, h⟩
    rcases p with (message | _) | probe
    · refine ⟨message, rfl, ?_⟩
      rw [dispatchProbe_refusal] at h
      split_ifs at h with hmissing
      exact contains_iff.mp hmissing.2
    · cases h
    · cases h
  · rintro ⟨message, rfl, hmarker⟩
    refine ⟨join message, ?_⟩
    rw [dispatchProbe_refusal, if_pos ⟨rfl, contains_iff.mpr hmarker⟩]

/-- A refusal without the marker blocks the case, whatever the policy is. -/
theorem humanBlock_of_clear {message : List Piece} (h : ¬ missingProbeMarker <:+: join message)
    (probeRequired : Bool) : dispatchProbe probeRequired (.error (.registry message)) =
      .humanBlock (BlockReason.unavailable (join message)).text := by
  rw [dispatchProbe_refusal, if_neg fun hmissing => h (contains_iff.mp hmissing.2)]
  rfl

theorem humanBlock_inv {p : Checked ApprovedProbe} {probeRequired : Bool} {reason : Text}
    (h : dispatchProbe probeRequired p = .humanBlock reason) :
    ∃ message, p = .error (.registry message) ∧
      reason = (BlockReason.unavailable (join message)).text := by
  rcases p with (message | _) | probe
  · refine ⟨message, rfl, ?_⟩
    rw [dispatchProbe_refusal] at h
    split_ifs at h
    cases h
    rfl
  · cases h
  · cases h

/-- A refusal with the marker, where there is something at the path of the manifest, quotes a value
with it. -/
theorem exists_quote {message : List Piece} (hthere : content.manifest ≠ .noFile)
    (h : loadApprovedProbe py hashing content repository issueNumber = .error (.registry message)) :
    ∃ quotes, firstFailing (registryChecks py hashing content repository issueNumber) =
        some ⟨false, some quotes⟩ ∧
      (missingProbeMarker <:+: join message ↔ ∃ value ∈ quotes, missingProbeMarker <:+: value) := by
  cases follows_loadApprovedProbe py hashing content repository issueNumber hthere with
  | accepts a hp _ =>
      rw [h] at hp
      cases hp
  | refuses m hp hfirst hform =>
      rw [h] at hp
      cases hp
      exact ⟨values message, hfirst, infix_join_iff (by decide) hform⟩
  | raises hp _ =>
      rw [h] at hp
      cases hp

theorem manifest_ne_noFile (h : content.hasManifest = true) : content.manifest ≠ .noFile := by
  intro hnone
  unfold Registered.hasManifest at h
  rw [hnone] at h
  cases h

/-- The marker is in the refusal of a missing manifest. -/
theorem marker_infix_missing (path : Text) :
    missingProbeMarker <:+: join [lit "no approved probe registered at ", .val path] :=
  ⟨[], " at ".toList ++ (path ++ []), rfl⟩

theorem unambiguous_of_onlyMissing
    (h : OnlyMissing py hashing content repository issueNumber) :
    Unambiguous py hashing content repository issueNumber where
  absent := by
    intro habsent
    obtain ⟨message, hload, hmarker⟩ := withoutProbe_iff.mp (h.withoutProbe.mpr habsent)
    -- with a required probe the same refusal blocks the case, and the case is opened again
    refine h.reopened true (BlockReason.unavailable (join message)).text ?_
      ((reopens_iff _).mpr hmarker)
    unfold dispatchIssue
    rw [hload]
    rfl
  present := by
    intro hpresent check hcheck
    have hthere := manifest_ne_noFile hpresent
    obtain ⟨reason, hblock⟩ := h.blocks hpresent (by rw [hcheck]; simp)
    obtain ⟨message, hload, -⟩ := humanBlock_inv hblock
    obtain ⟨quotes, hfirst, hiff⟩ := exists_quote hthere hload
    rw [hfirst] at hcheck
    cases hcheck
    refine ⟨quotes, rfl, fun value hvalue hmarker => ?_⟩
    have hroute := withoutProbe_iff.mpr ⟨message, hload, hiff.mpr ⟨value, hvalue, hmarker⟩⟩
    rw [h.withoutProbe.mp hroute] at hpresent
    cases hpresent

/-- Under the condition no refusal has the marker but that of a missing manifest. -/
theorem Unambiguous.missing (h : Unambiguous py hashing content repository issueNumber)
    {message : List Piece}
    (hload : loadApprovedProbe py hashing content repository issueNumber =
      .error (.registry message))
    (hmarker : missingProbeMarker <:+: join message) :
    content.hasManifest = false := by
  rw [← Bool.not_eq_true]
  intro hpresent
  obtain ⟨quotes, hfirst, hiff⟩ := exists_quote (manifest_ne_noFile hpresent) hload
  obtain ⟨_, heq, hclear⟩ := h.present hpresent _ hfirst
  cases heq
  obtain ⟨value, hvalue, hinfix⟩ := hiff.mp hmarker
  exact hclear value hvalue hinfix

theorem Unambiguous.onlyMissing (h : Unambiguous py hashing content repository issueNumber) :
    OnlyMissing py hashing content repository issueNumber where
  withoutProbe := by
    constructor
    · intro hroute
      obtain ⟨message, hload, hmarker⟩ := withoutProbe_iff.mp hroute
      exact h.missing hload hmarker
    · intro habsent
      obtain ⟨hnone, hnumber, hname⟩ := h.absent habsent
      refine withoutProbe_iff.mpr ⟨_, load_noFile py hashing content hnone hnumber hname, ?_⟩
      exact marker_infix_missing _
  blocks := by
    intro hpresent hfails
    cases follows_loadApprovedProbe py hashing content repository issueNumber
        (manifest_ne_noFile hpresent) with
    | accepts a _ hnone => exact absurd hnone hfails
    | raises _ hfirst =>
        obtain ⟨quotes, hquotes, -⟩ := h.present hpresent _ hfirst
        cases hquotes
    | refuses message hload _ _ =>
        have hclear : ¬ missingProbeMarker <:+: join message := by
          intro hmarker
          rw [h.missing hload hmarker] at hpresent
          cases hpresent
        unfold dispatchIssue
        rw [hload]
        exact ⟨_, humanBlock_of_clear hclear false⟩
  reopened := by
    intro probeRequired reason hblock hreopens
    obtain ⟨message, hload, rfl⟩ := humanBlock_inv hblock
    exact h.absent (h.missing hload ((reopens_iff _).mp hreopens))

end Decision

/-- **A missing probe is a missing manifest exactly when the issue has an address and the first
check that fails raises nothing and quotes no value with the marker. Of the other reasons for which
a case is blocked none is opened again, and the query agrees with the function on every reason that
is written: on any text, exactly when it does not start with white space or is not accepted.** -/
theorem missing_probe_iff (py : Python) (hashing : Hashing) (content : Registered)
    (repository : Text) (issueNumber : Int) :
    (OnlyMissing py hashing content repository issueNumber ↔
      Unambiguous py hashing content repository issueNumber) ∧
    (∀ (block : BlockReason) (probeRequired : Bool), reopens probeRequired block.text = true →
      ∃ error, block = .unavailable error) ∧
    (∀ block : BlockReason, missingProbeBlocked block.text = isMissingProbeBlock block.text) ∧
    (∀ reason : Text, missingProbeBlocked reason = isMissingProbeBlock reason ↔
      (StartsBlank reason → isMissingProbeBlock reason = false)) := by
  refine ⟨⟨unambiguous_of_onlyMissing, Unambiguous.onlyMissing⟩, ?_, BlockReason.same_test,
    same_test_iff⟩
  intro block probeRequired h
  unfold reopens at h
  rw [Bool.and_eq_true] at h
  obtain ⟨error, hblock, -⟩ := BlockReason.eq_unavailable h.2
  exact ⟨error, hblock⟩

/-- A registry whose manifest names another repository; its name has the marker. -/
def demoRegistered : Registered where
  directory := "/probes/apache/superset/4213".toList
  manifest := .file false (.value (.dict [(yamlText "schema_version", yamlText "probe.v1"),
    (yamlText "repository", yamlText "no approved probe registered upstream")]))
  script := .notFound
  commit := none

def demoHashing : Hashing where
  manifestHash _ := some []
  sha256Hex _ := []
  decodeUtf8 _ := none

/-- The manifest is there and is for another repository; the case goes on without a probe. -/
theorem mismatching_manifest_skipped :
    demoRegistered.hasManifest = true ∧
    (∃ detail, dispatchIssue asciiPython demoHashing demoRegistered "apache/superset".toList 4213
      false = .withoutProbe detail) ∧
    ¬ OnlyMissing asciiPython demoHashing demoRegistered "apache/superset".toList 4213 := by
  have hroute : ∃ detail, dispatchIssue asciiPython demoHashing demoRegistered
      "apache/superset".toList 4213 false = .withoutProbe detail := ⟨_, rfl⟩
  refine ⟨rfl, hroute, fun h => ?_⟩
  have habsent := h.withoutProbe.mp hroute
  cases habsent

end Remediator.Probes
