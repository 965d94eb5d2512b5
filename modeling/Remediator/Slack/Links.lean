import Remediator.Slack.Blocks

set_option autoImplicit false

/-! # Control sequences in the approval message

Every value in a block is escaped before it is put between the parts of the template, so the only
angle brackets there are those of links. What can still go wrong is the cut of the finished text,
which may go through a link, a bar in a target, and the fallback text, whose values nobody escapes.
-/

namespace Remediator.Slack

open Text Markup

/-! ## Quiet values -/

theorem quiet_escapeMrkdwn (t : Text) : Quiet (escapeMrkdwn t) := by
  intro c hc
  obtain ⟨d, -, hc⟩ := List.mem_flatMap.mp hc
  have hamp : Quiet "&amp;".toList := by decide
  have hlt : Quiet "&lt;".toList := by decide
  have hgt : Quiet "&gt;".toList := by decide
  split_ifs at hc with h1 h2 h3
  · exact hamp c hc
  · exact hlt c hc
  · exact hgt c hc
  · rw [List.mem_singleton.mp hc]
    exact ⟨h2, h3⟩

theorem quiet_safe (t : Text) (limit : ℕ) : Quiet (safe t limit) :=
  quiet_truncate (quiet_escapeMrkdwn t) limit

theorem quiet_toString (n : ℕ) : Quiet (toString n).toList := by
  intro c hc
  have hdigits : (toString n).toList = Nat.toDigits 10 n := Nat.toList_repr
  rw [hdigits] at hc
  have hdigit := Nat.isDigit_of_mem_toDigits (by decide) (by decide) hc
  constructor <;>
  · rintro rfl
    exact absurd hdigit (by decide)

theorem Quiet.cons {c : Char} {t : Text} (hc : c ≠ '<' ∧ c ≠ '>') (ht : Quiet t) : Quiet (c :: t) :=
  List.forall_mem_cons.mpr ⟨hc, ht⟩

theorem quiet_intercalate {sep : Text} (hsep : Quiet sep) {parts : List Text}
    (hparts : ∀ part ∈ parts, Quiet part) : Quiet (sep.intercalate parts) := by
  induction parts with
  | nil => intro c hc; cases hc
  | cons part parts ih =>
      obtain ⟨hpart, hparts⟩ := List.forall_mem_cons.mp hparts
      cases parts with
      | nil => simpa [List.intercalate] using hpart
      | cons next rest =>
          rw [List.intercalate_cons_cons]
          exact (hpart.append hsep).append (ih hparts)

theorem quiet_percent (q : ℚ) : Quiet (percent q) := by
  unfold percent
  refine Quiet.append ?_ (Quiet.append ?_ (by decide))
  · split <;> decide
  · split
    · decide
    · exact quiet_toString _

theorem quiet_confidence {value : Option Json.Value} {t : Text} (h : confidence value = .ok t) :
    Quiet t := by
  unfold confidence at h
  split at h
  · cases h
    exact quiet_percent _
  · split at h
    · cases h
      exact quiet_percent _
    · cases h
  · cases h
    exact quiet_percent _
  · cases h
    decide
  · cases h
    refine Quiet.append ?_ (by decide)
    split <;> decide
  · cases h
    decide
  · cases h
    decide

theorem quiet_bullets (repr : Json.Value → String) (items : List Json.Value) {empty : String}
    (hempty : Quiet empty.toList) : Quiet (bullets repr items empty) := by
  unfold bullets
  dsimp only
  split
  · exact Quiet.cons (by decide) (hempty.append (by decide))
  · refine quiet_intercalate (by decide) fun line hline => ?_
    have hcleaned : ∀ line ∈ (((items.take maxListItems).filter fun item =>
        !(stripBy Devin.isSpace (str repr item)).isEmpty).map fun item =>
          safeValue repr item itemMax).map fun item => "• ".toList ++ item, Quiet line := by
      intro line hline
      obtain ⟨item, hitem, rfl⟩ := List.mem_map.mp hline
      obtain ⟨value, -, rfl⟩ := List.mem_map.mp hitem
      exact Quiet.append (by decide) (quiet_safe _ _)
    split at hline
    · rcases List.mem_append.mp hline with h | h
      · exact hcleaned line h
      · rw [List.mem_singleton.mp h]
        exact Quiet.append (by decide) ((quiet_toString _).append (by decide))
    · exact hcleaned line hline

/-! ## Clean templates -/

/-- The brackets of the template are those of its links. -/
def CleanAll (segments : List Segment) : Prop := ∀ segment ∈ segments, segment.Clean

theorem cleanAll_nil : CleanAll [] := fun _ h => by cases h

theorem cleanAll_cons {segment : Segment} {rest : List Segment} (h : segment.Clean)
    (hrest : CleanAll rest) : CleanAll (segment :: rest) :=
  List.forall_mem_cons.mpr ⟨h, hrest⟩

theorem CleanAll.append {s t : List Segment} (hs : CleanAll s) (ht : CleanAll t) :
    CleanAll (s ++ t) :=
  List.forall_mem_append.mpr ⟨hs, ht⟩

theorem clean_link (url : Option Text) (label : Text) : (link url label).Clean := by
  unfold link
  split
  · exact quiet_safe _ _
  · split
    · exact ⟨quiet_escapeMrkdwn _, quiet_safe _ _⟩
    · exact quiet_safe _ _

theorem clean_safe (t : Text) (limit : ℕ) : (Segment.plain (safe t limit)).Clean :=
  quiet_safe t limit

theorem clean_lit {text : String} (h : quiet text.toList = true) : (lit text).Clean :=
  quiet_iff.mp h

theorem quiet_nonCandidateWarning : Quiet nonCandidateWarning := quiet_iff.mp rfl

theorem clean_statusSegments (message : ApprovalMessageInput) :
    CleanAll (statusSegments message) := by
  unfold statusSegments
  refine cleanAll_cons ?_ ?_
  · refine quiet_iff.mp ?_
    cases message.status <;> rfl
  · split
    · exact cleanAll_cons (clean_lit rfl) (cleanAll_cons (clean_safe _ _) cleanAll_nil)
    · exact cleanAll_nil

theorem clean_issueSegments (message : ApprovalMessageInput) :
    CleanAll (issueSegments message) :=
  cleanAll_cons (clean_lit rfl) (cleanAll_cons (clean_link _ _) (cleanAll_cons (clean_lit rfl)
    (cleanAll_cons (clean_safe _ _) (cleanAll_cons (clean_lit rfl) cleanAll_nil))))

theorem clean_recommendationSegments (repr : Json.Value → String)
    (triage : List (String × Json.Value)) : CleanAll (recommendationSegments repr triage) := by
  refine cleanAll_cons (clean_lit rfl) (cleanAll_cons (clean_safe _ _)
    (cleanAll_cons (clean_lit rfl) (cleanAll_cons ?_ cleanAll_nil)))
  split
  · exact fun c hc => by cases hc
  · exact Quiet.append (by decide) quiet_nonCandidateWarning

theorem clean_contextSegments (message : ApprovalMessageInput) :
    CleanAll (contextSegments message) :=
  cleanAll_cons (clean_lit rfl) (cleanAll_cons (clean_link _ _) (cleanAll_cons (clean_lit rfl)
    (cleanAll_cons (clean_link _ _) cleanAll_nil)))

/-- Lines of a section, each of them clean. -/
def CleanLines (lines : List (List Segment)) : Prop := ∀ line ∈ lines, CleanAll line

theorem cleanLines_nil : CleanLines [] := fun _ h => by cases h

theorem cleanLines_one {line : List Segment} (h : CleanAll line) : CleanLines [line] := by
  intro other hother
  rw [List.mem_singleton.mp hother]
  exact h

theorem CleanLines.append {s t : List (List Segment)} (hs : CleanLines s) (ht : CleanLines t) :
    CleanLines (s ++ t) :=
  List.forall_mem_append.mpr ⟨hs, ht⟩

theorem CleanLines.joinLines {lines : List (List Segment)} (h : CleanLines lines) :
    CleanAll (joinLines lines) := by
  have hbreak : CleanAll [lit "\n"] := cleanAll_cons (clean_lit rfl) cleanAll_nil
  induction lines with
  | nil => exact cleanAll_nil
  | cons line lines ih =>
      obtain ⟨hline, hlines⟩ := List.forall_mem_cons.mp h
      cases lines with
      | nil => simpa [Slack.joinLines, List.intercalate] using hline
      | cons next rest =>
          unfold Slack.joinLines
          rw [List.intercalate_cons_cons]
          exact (hline.append hbreak).append (ih hlines)

theorem clean_prLine (progress : RemediationProgress) : CleanLines (prLine progress) := by
  unfold prLine
  split
  · exact cleanLines_nil
  · refine cleanLines_one (cleanAll_cons (clean_lit rfl) (cleanAll_cons (clean_link _ _)
      (cleanAll_cons ?_ cleanAll_nil)))
    split
    · exact Quiet.append (by decide) ((quiet_safe _ _).append (by decide))
    · exact fun c hc => by cases hc

theorem clean_probeLines (progress : RemediationProgress) : CleanLines (probeLines progress) := by
  unfold probeLines
  split
  · refine cleanLines_one (cleanAll_cons ?_ (cleanAll_cons ?_ cleanAll_nil))
    · split
      · exact clean_lit rfl
      · exact clean_lit rfl
    · exact Quiet.cons (by decide) (quiet_safe _ _)
  · split
    · exact cleanLines_one (cleanAll_cons (clean_lit rfl) (cleanAll_cons (clean_safe _ _)
        (cleanAll_cons (clean_lit rfl) (cleanAll_cons (clean_safe _ _) cleanAll_nil))))
    · exact cleanLines_nil

theorem clean_valueLine {start : String} (h : quiet start.toList = true) (limit : ℕ)
    (value : Option Text) : CleanLines (valueLine start limit value) := by
  unfold valueLine
  split
  · exact cleanLines_one (cleanAll_cons (clean_lit h) (cleanAll_cons (clean_safe _ _) cleanAll_nil))
  · exact cleanLines_nil

theorem clean_remediationLines (progress : RemediationProgress) :
    CleanLines (remediationLines progress) := by
  unfold remediationLines
  refine CleanLines.append (cleanLines_one (cleanAll_cons (clean_lit rfl) (cleanAll_cons
    (clean_safe _ _) cleanAll_nil))) (CleanLines.append ?_ ((clean_prLine progress).append
      ((clean_probeLines progress).append ((clean_valueLine rfl _ _).append
        ((clean_valueLine rfl _ _).append ?_)))))
  · split
    · exact cleanLines_one (cleanAll_cons (clean_lit rfl) (cleanAll_cons (clean_link _ _)
        cleanAll_nil))
    · exact cleanLines_nil
  · split
    · split
      · exact cleanLines_one (cleanAll_cons (clean_lit rfl) (cleanAll_cons (clean_link _ _)
          (cleanAll_cons (clean_lit rfl) cleanAll_nil)))
      · exact cleanLines_nil
    · exact cleanLines_nil

/-! ## Reading the message -/

/-- The mrkdwn texts of an element. -/
def Element.mrkdwn : Element → List Template
  | .button _ _ _ _ _ confirm => confirm.toList
  | .select _ _ _ => []

/-- The mrkdwn texts of a block. -/
def Block.mrkdwn : Block → List Template
  | .header _ => []
  | .section text _ => [text]
  | .fields texts => texts
  | .context texts => texts
  | .actions _ elements => elements.flatMap Element.mrkdwn

/-- The number of characters of a template that its text shows. -/
def Template.kept (template : Template) : ℕ :=
  match template.limit with
  | some limit => Markup.kept (render template.segments) limit
  | none => (render template.segments).length

theorem Template.faithful_iff {strict : Bool} {template : Template}
    (h : CleanAll template.segments) :
    Faithful strict template.segments template.text ↔
      Intact strict template.kept template.segments := by
  obtain ⟨segments, limit⟩ := template
  cases limit with
  | some limit => exact faithful_truncate_iff h limit
  | none =>
      have htake := @faithful_take_iff strict segments [] h (by decide) (render segments).length
      rwa [List.take_length, List.append_nil] at htake

/-- A template without links reads as itself, wherever it is cut. -/
theorem intact_of_no_links {strict : Bool} {segments : List Segment} (h : links segments = [])
    (n : ℕ) : Intact strict n segments := by
  induction segments generalizing n with
  | nil => trivial
  | cons segment rest ih =>
      cases segment with
      | plain t => exact ih h _
      | link target label => cases h

section Message

variable (repr : Json.Value → String) (message : ApprovalMessageInput)

/-- The templates with links: the issue, the context and the progress. -/
def linkTemplates : List Template :=
  [⟨issueSegments message, some sectionMax⟩, ⟨contextSegments message, some contextMax⟩] ++
    (match message.remediation with
      | some progress => [⟨joinLines (remediationLines progress), some sectionMax⟩]
      | none => [])

/-- A template of a message: clean, and without links but for the three. -/
def Template.Known (template : Template) : Prop :=
  CleanAll template.segments ∧ (links template.segments = [] ∨ template ∈ linkTemplates message)

variable {message}

theorem known_of_no_links {segments : List Segment} {limit : Option ℕ} (h : CleanAll segments)
    (hlinks : links segments = []) : (Template.mk segments limit).Known message :=
  ⟨h, Or.inl hlinks⟩

theorem known_field (name : String) {value : Text} (hname : quiet name.toList = true)
    (hvalue : Quiet value) : (field name value).Known message := by
  refine known_of_no_links (cleanAll_cons ?_ (cleanAll_cons hvalue cleanAll_nil)) rfl
  exact Quiet.cons (by decide) ((quiet_iff.mp hname).append (by decide))

/-- Names and values in turn. -/
theorem known_named {name : String} {value : Text} {rest : List Segment} {limit : Option ℕ}
    (hname : quiet name.toList = true) (hvalue : Quiet value)
    (hrest : (Template.mk rest limit).Known message) (hlinks : links rest = []) :
    (Template.mk (lit name :: .plain value :: rest) limit).Known message :=
  known_of_no_links (cleanAll_cons (clean_lit hname) (cleanAll_cons hvalue hrest.1)) hlinks

theorem known_nil {limit : Option ℕ} : (Template.mk [] limit).Known message :=
  known_of_no_links cleanAll_nil rfl

/-- Nothing that is read later changes the confidence. -/
theorem confidence_of_readTriage {triage : List (String × Json.Value)} {parts : TriageParts}
    (h : readTriage triage = .ok parts) :
    confidence (List.lookup "confidence" triage) = .ok parts.confidence := by
  unfold readTriage at h
  cases hconfidence : confidence (List.lookup "confidence" triage) with
  | error e =>
      rw [hconfidence] at h
      cases h
  | ok t =>
      rw [hconfidence] at h
      simp only [bind, Except.bind] at h
      split at h
      · cases h
      split at h
      · cases h
      split at h
      · cases h
      split at h
      · cases h
      split at h
      · cases h
      cases h
      rfl

/-- Every template of the first blocks is known. -/
theorem known_of_triageBlocks {parts : TriageParts} (hconfidence : Quiet parts.confidence)
    {block : Block} (hblock : block ∈ triageBlocks repr message parts) {template : Template}
    (h : template ∈ block.mrkdwn) : template.Known message := by
  have hissue : (Template.mk (issueSegments message) (some sectionMax)).Known message :=
    ⟨clean_issueSegments message, Or.inr (List.mem_cons_self)⟩
  have hcontext : (Template.mk (contextSegments message) (some contextMax)).Known message :=
    ⟨clean_contextSegments message, Or.inr (List.mem_cons_of_mem _ List.mem_cons_self)⟩
  have hstatus : links (statusSegments message) = [] := by
    unfold statusSegments
    cases nonEmpty message.decisionNote <;> rfl
  unfold triageBlocks at hblock
  simp only [List.mem_cons, List.not_mem_nil, or_false] at hblock
  rcases hblock with rfl | rfl | rfl | rfl | rfl | rfl | rfl | rfl | rfl | rfl
  · cases h
  · rw [List.mem_singleton.mp h]
    exact known_of_no_links (clean_statusSegments message) hstatus
  · rw [List.mem_singleton.mp h]
    exact hissue
  · rw [List.mem_singleton.mp h]
    exact known_of_no_links (clean_recommendationSegments repr _) rfl
  · simp only [Block.mrkdwn, List.mem_cons, List.not_mem_nil, or_false] at h
    rcases h with rfl | rfl | rfl | rfl
    · exact known_field _ rfl (quiet_safe _ _)
    · exact known_field _ rfl (quiet_safe _ _)
    · exact known_field _ rfl hconfidence
    · exact known_field _ rfl (quiet_safe _ _)
  · rw [List.mem_singleton.mp h]
    exact known_named rfl (quiet_safe _ _)
      (known_named rfl (quiet_bullets repr _ (quiet_iff.mp rfl)) known_nil rfl) rfl
  · rw [List.mem_singleton.mp h]
    exact known_named rfl (quiet_bullets repr _ (quiet_iff.mp rfl))
      (known_named rfl (quiet_bullets repr _ (quiet_iff.mp rfl)) known_nil rfl) rfl
  · rw [List.mem_singleton.mp h]
    exact known_named rfl (quiet_bullets repr _ (quiet_iff.mp rfl)) (known_named rfl
      (quiet_safe _ _) (known_named rfl (quiet_safe _ _) known_nil rfl) rfl) rfl
  · rw [List.mem_singleton.mp h]
    exact known_named rfl (quiet_safe _ _) (known_named rfl (quiet_safe _ _) (known_named rfl
      (quiet_bullets repr _ (quiet_iff.mp rfl)) known_nil rfl) rfl) rfl
  · rw [List.mem_singleton.mp h]
    exact hcontext

/-- The one mrkdwn text of the buttons is the confirmation. -/
theorem known_of_buttons {element : Element} (helement : element ∈ buttons repr message)
    {template : Template} (h : template ∈ element.mrkdwn) : template.Known message := by
  unfold buttons at helement
  rcases List.mem_append.mp helement with h1 | h1
  · cases hawaited : awaitedToken message with
    | none =>
        rw [hawaited] at h1
        cases h1
    | some token =>
        rw [hawaited] at h1
        simp only [List.mem_cons, List.not_mem_nil, or_false] at h1
        rcases h1 with rfl | rfl
        · rw [List.mem_singleton.mp h]
          refine known_of_no_links (cleanAll_cons (clean_lit rfl) (cleanAll_cons (clean_lit rfl)
            (cleanAll_cons ?_ cleanAll_nil))) rfl
          split
          · exact fun c hc => by cases hc
          · exact Quiet.append (by decide) quiet_nonCandidateWarning
        · cases h
  · have hplain : element.mrkdwn = [] := by
      rcases List.mem_append.mp h1 with h2 | h2
      · split at h2
        · rw [List.mem_singleton.mp h2]
          rfl
        · cases h2
      · split at h2
        · rw [List.mem_singleton.mp h2]
          rfl
        · cases h2
    rw [hplain] at h
    cases h

theorem known_of_actionBlocks {block : Block} (hblock : block ∈ actionBlocks repr message)
    {template : Template} (h : template ∈ block.mrkdwn) : template.Known message := by
  unfold actionBlocks at hblock
  rcases List.mem_append.mp hblock with h1 | h1
  · split at h1
    · rw [List.mem_singleton.mp h1] at h
      cases h
    · cases h1
  · split at h1
    · cases h1
    · rw [List.mem_singleton.mp h1] at h
      obtain ⟨element, helement, htemplate⟩ := List.mem_flatMap.mp h
      exact known_of_buttons repr helement htemplate

variable (message) in
/-- The block of the progress. -/
def progressBlocks : List Block :=
  match message.remediation with
  | some progress => remediationBlocks progress
  | none => []

theorem known_of_progressBlocks {block : Block} (hblock : block ∈ progressBlocks message)
    {template : Template} (h : template ∈ block.mrkdwn) : template.Known message := by
  unfold progressBlocks at hblock
  cases hprogress : message.remediation with
  | none =>
      rw [hprogress] at hblock
      cases hblock
  | some progress =>
      rw [hprogress] at hblock
      rw [List.mem_singleton.mp hblock] at h
      rw [List.mem_singleton.mp h]
      refine ⟨(clean_remediationLines progress).joinLines, Or.inr ?_⟩
      unfold linkTemplates
      rw [hprogress]
      exact List.mem_append_right _ List.mem_cons_self

theorem length_actionBlocks : (actionBlocks repr message).length ≤ 2 := by
  unfold actionBlocks
  rw [List.length_append]
  show _ ≤ 1 + 1
  refine Nat.add_le_add ?_ ?_
  · split
    · exact le_rfl
    · exact Nat.zero_le 1
  · split
    · exact Nat.zero_le 1
    · exact le_rfl

/-- A message has at most 13 blocks. -/
theorem length_blocks (parts : TriageParts) : (triageBlocks repr message parts ++
    (progressBlocks message ++ actionBlocks repr message)).length ≤ 13 := by
  have hprogress : (progressBlocks message).length ≤ 1 := by
    unfold progressBlocks
    split
    · exact le_rfl
    · exact Nat.zero_le 1
  have hactions : (actionBlocks repr message).length ≤ 2 := length_actionBlocks repr
  have htriage : (triageBlocks repr message parts).length = 10 := rfl
  rw [List.length_append, List.length_append]
  omega

/-- The last cut takes no block. -/
theorem build_ok {parts : TriageParts} (h : readTriage message.triage = .ok parts) :
    buildApprovalBlocks repr message = .ok (triageBlocks repr message parts ++
      (progressBlocks message ++ actionBlocks repr message)) := by
  have hbuild : buildApprovalBlocks repr message = readTriage message.triage >>= fun parts =>
      .ok ((triageBlocks repr message parts ++
        (progressBlocks message ++ actionBlocks repr message)).take maxBlocks) := rfl
  have hfew : 13 ≤ maxBlocks := by decide
  rw [hbuild, h]
  change Except.ok _ = _
  rw [List.take_of_length_le ((length_blocks repr parts).trans hfew)]

theorem build_inv {blocks : List Block} (h : buildApprovalBlocks repr message = .ok blocks) :
    ∃ parts, readTriage message.triage = .ok parts ∧
      blocks = triageBlocks repr message parts ++
        (progressBlocks message ++ actionBlocks repr message) := by
  cases hparts : readTriage message.triage with
  | error e =>
      unfold buildApprovalBlocks at h
      rw [hparts] at h
      cases h
  | ok parts =>
      rw [build_ok repr hparts] at h
      exact ⟨parts, rfl, (Except.ok.inj h).symm⟩

/-! ## The result -/

/-- Every angle bracket of the message belongs to a link that the template wrote, and a reader finds
the links of the template: whole, with their targets and labels. -/
structure Harmless (strict : Bool) (repr : Json.Value → String) (message : ApprovalMessageInput) :
    Prop where
  fallback : Quiet (fallbackText repr message)
  blocks : ∀ blocks, buildApprovalBlocks repr message = .ok blocks → ∀ block ∈ blocks,
    ∀ template ∈ block.mrkdwn, Faithful strict template.segments template.text

/-- The buttons of an element respect the limit of their values. -/
def Element.Fits : Element → Prop
  | .button _ _ _ value url _ =>
      (∀ t ∈ value, t.length ≤ 2000) ∧ ∀ t ∈ url, t.length ≤ 2000
  | .select _ _ _ => True

/-- The texts of a block respect their limits. -/
def Block.Fits : Block → Prop
  | .header text => text.length ≤ 150
  | .section text _ => text.text.length ≤ 3000
  | .fields texts => ∀ template ∈ texts, template.text.length ≤ 3000
  | .context texts => ∀ template ∈ texts, template.text.length ≤ 3000
  | .actions _ elements => ∀ element ∈ elements, element.Fits

/-- The limits of Slack. -/
structure WithinLimits (repr : Json.Value → String) (message : ApprovalMessageInput) : Prop where
  fallback : (fallbackText repr message).length ≤ 3000
  blocks : ∀ blocks, buildApprovalBlocks repr message = .ok blocks →
    blocks.length ≤ 50 ∧ ∀ block ∈ blocks, block.Fits

/-- What the fallback text shows of its values has no bracket; and where the triage can be rendered,
no cut goes through a link, and the links that are shown can be read. -/
structure Uncut (strict : Bool) (repr : Json.Value → String) (message : ApprovalMessageInput) :
    Prop where
  fallback : ∀ value ∈ shownValues (kept (join (fallbackPieces repr message)) sectionMax)
    (fallbackPieces repr message), Quiet value
  links : ∀ parts, readTriage message.triage = .ok parts → ∀ template ∈ linkTemplates message,
    Intact strict template.kept template.segments

theorem literalsQuiet_fallbackPieces : literalsQuiet (fallbackPieces repr message) = true := by
  have hwarning : quiet (')' :: if recommendsRemediation repr message.triage then []
      else ' ' :: nonCandidateWarning) = true := by
    rw [quiet_iff]
    refine Quiet.cons (by decide) ?_
    split
    · exact fun c hc => by cases hc
    · exact Quiet.cons (by decide) quiet_nonCandidateWarning
  have hstatus : quiet message.status.value.toList = true := by
    cases message.status <;> rfl
  unfold fallbackPieces
  cases message.remediation with
  | some progress =>
      simp only [literalsQuiet, hwarning, Bool.and_true]
      rfl
  | none =>
      simp only [literalsQuiet, hwarning, hstatus, Bool.and_true]
      rfl

/-- The templates with links are in the message. -/
theorem mem_blocks_of_linkTemplates {parts : TriageParts} {template : Template}
    (h : template ∈ linkTemplates message) :
    ∃ block ∈ triageBlocks repr message parts ++
      (progressBlocks message ++ actionBlocks repr message), template ∈ block.mrkdwn := by
  unfold linkTemplates at h
  rcases List.mem_append.mp h with h | h
  · have hfirst : ∀ block ∈ triageBlocks repr message parts, template ∈ block.mrkdwn →
        ∃ block ∈ triageBlocks repr message parts ++
          (progressBlocks message ++ actionBlocks repr message), template ∈ block.mrkdwn :=
      fun block hblock htemplate => ⟨block, List.mem_append_left _ hblock, htemplate⟩
    rcases List.mem_cons.mp h with rfl | h
    · exact hfirst (slackSection (issueSegments message) none) (by simp [triageBlocks])
        List.mem_cons_self
    · obtain rfl := List.mem_singleton.mp h
      exact hfirst (.context [⟨contextSegments message, some contextMax⟩])
        (by simp [triageBlocks]) List.mem_cons_self
  · cases hprogress : message.remediation with
    | none =>
        rw [hprogress] at h
        cases h
    | some progress =>
        rw [hprogress] at h
        obtain rfl := List.mem_singleton.mp h
        refine ⟨slackSection (joinLines (remediationLines progress)) (some "remediation"), ?_,
          List.mem_cons_self⟩
        refine List.mem_append_right _ (List.mem_append_left _ ?_)
        unfold progressBlocks
        rw [hprogress]
        exact List.mem_cons_self

/-- Every template of a message is known. -/
theorem known_of_build {parts : TriageParts} (hparts : readTriage message.triage = .ok parts)
    {block : Block} (hblock : block ∈ triageBlocks repr message parts ++
      (progressBlocks message ++ actionBlocks repr message)) {template : Template}
    (h : template ∈ block.mrkdwn) : template.Known message := by
  rcases List.mem_append.mp hblock with hfirst | hrest
  · exact known_of_triageBlocks repr (quiet_confidence (confidence_of_readTriage hparts)) hfirst h
  · rcases List.mem_append.mp hrest with hprogress | hactions
    · exact known_of_progressBlocks hprogress h
    · exact known_of_actionBlocks repr hactions h

theorem harmless_iff (strict : Bool) :
    Harmless strict repr message ↔ Uncut strict repr message := by
  have hliterals : literalsQuiet (fallbackPieces repr message) = true :=
    literalsQuiet_fallbackPieces repr
  have hfallback := quiet_truncate_join_iff hliterals sectionMax
  constructor
  · intro h
    refine ⟨hfallback.mp h.fallback, fun parts hparts template htemplate => ?_⟩
    obtain ⟨block, hblock, hmem⟩ :=
      @mem_blocks_of_linkTemplates repr message parts template htemplate
    have hclean := (known_of_build repr hparts hblock hmem).1
    exact (Template.faithful_iff hclean).mp
      (h.blocks _ (build_ok repr hparts) block hblock template hmem)
  · intro h
    refine ⟨hfallback.mpr h.fallback, fun blocks hbuild block hblock template hmem => ?_⟩
    obtain ⟨parts, hparts, rfl⟩ := build_inv repr hbuild
    obtain ⟨hclean, hlinks | hlinks⟩ := known_of_build repr hparts hblock hmem
    · exact (Template.faithful_iff hclean).mpr (intact_of_no_links hlinks _)
    · exact (Template.faithful_iff hclean).mpr (h.links parts hparts template hlinks)

/-! ### Lengths -/

theorem length_toString_lt {n k : ℕ} (hk : 0 < k) (h : n < 10 ^ k) :
    (toString n).toList.length ≤ k := by
  have hdigits : (toString n).toList = Nat.toDigits 10 n := Nat.toList_repr
  rw [hdigits]
  exact (Nat.length_toDigits_le_iff (by decide) hk).mpr h

theorem length_percent (q : ℚ) : (percent q).length ≤ 400 := by
  unfold percent
  dsimp only
  rw [List.length_append, List.length_append]
  have hsign : (if q < 0 then ['-'] else []).length ≤ 1 := by
    split
    · exact le_rfl
    · exact Nat.zero_le 1
  have hdigits : (if 2 ^ 1024 ≤ |Binary64.round (q * 100)| then "inf".toList
      else (toString (Binary64.roundEven |Binary64.round (q * 100)|).natAbs).toList).length
        ≤ 310 := by
    split
    · exact Nat.le_of_ble_eq_true rfl
    · next hfinite =>
        have hnonneg : 0 ≤ Binary64.roundEven |Binary64.round (q * 100)| :=
          Binary64.le_roundEven (by rw [Int.cast_zero]; exact abs_nonneg _)
        have hbound : Binary64.roundEven |Binary64.round (q * 100)| ≤ (2 ^ 1024 : ℕ) := by
          refine Binary64.roundEven_le ?_
          rw [Int.cast_natCast, Nat.cast_pow, Nat.cast_ofNat]
          exact (not_le.mp hfinite).le
        have hpower : 2 ^ 1024 < 10 ^ 310 := by decide +kernel
        refine length_toString_lt (by decide) ?_
        generalize 2 ^ 1024 = b at hbound hpower
        generalize 10 ^ 310 = d at hpower ⊢
        omega
  have hpercent : ['%'].length = 1 := rfl
  omega

theorem length_confidence {value : Option Json.Value} {t : Text} (h : confidence value = .ok t) :
    t.length ≤ 400 := by
  unfold confidence at h
  split at h
  · cases h
    exact length_percent _
  · split at h
    · cases h
      exact length_percent _
    · cases h
  · cases h
    exact length_percent _
  · cases h
    decide
  · cases h
    split <;> decide
  · cases h
    decide
  · cases h
    decide

theorem fits_section (segments : List Segment) (blockId : Option String) :
    (slackSection segments blockId).Fits := length_truncate (by decide)

theorem length_field {name : String} {value : Text} (hname : name.toList.length ≤ 20)
    (hvalue : value.length ≤ 400) : (field name value).text.length ≤ 3000 := by
  have htext : (field name value).text =
      '*' :: (name.toList ++ "*\n".toList) ++ (value ++ []) := rfl
  have hstars : "*\n".toList.length = 2 := rfl
  rw [htext]
  simp only [List.length_append, List.length_cons, List.length_nil, hstars]
  omega

theorem fits_of_triageBlocks {parts : TriageParts} (hconfidence : parts.confidence.length ≤ 400)
    {block : Block} (hblock : block ∈ triageBlocks repr message parts) : block.Fits := by
  have hsafe : ∀ t : Text, (safe t 50).length ≤ 400 := fun t =>
    (length_truncate (by decide)).trans (by decide)
  unfold triageBlocks at hblock
  simp only [List.mem_cons, List.not_mem_nil, or_false] at hblock
  rcases hblock with rfl | rfl | rfl | rfl | rfl | rfl | rfl | rfl | rfl | rfl
  · exact length_truncate (by decide)
  · exact fits_section _ _
  · exact fits_section _ _
  · exact fits_section _ _
  · intro template htemplate
    simp only [List.mem_cons, List.not_mem_nil, or_false] at htemplate
    rcases htemplate with rfl | rfl | rfl | rfl
    · exact length_field (by decide) (hsafe _)
    · exact length_field (by decide) (hsafe _)
    · exact length_field (by decide) hconfidence
    · exact length_field (by decide) (hsafe _)
  · exact fits_section _ _
  · exact fits_section _ _
  · exact fits_section _ _
  · exact fits_section _ _
  · intro template htemplate
    rw [List.mem_singleton.mp htemplate]
    exact length_truncate (by decide)

theorem fits_of_buttons {element : Element} (h : element ∈ buttons repr message) :
    element.Fits := by
  have hvalue : ∀ t : Text, ∀ shown ∈ some (truncate t buttonValueMax), shown.length ≤ 2000 := by
    intro t shown hshown
    cases hshown
    exact length_truncate (by decide)
  have hnone : ∀ shown ∈ (none : Option Text), shown.length ≤ 2000 := by
    intro shown hshown
    cases hshown
  unfold buttons at h
  rcases List.mem_append.mp h with h | h
  · split at h
    · simp only [List.mem_cons, List.not_mem_nil, or_false] at h
      rcases h with rfl | rfl
      · exact ⟨hvalue _, hnone⟩
      · exact ⟨hvalue _, hnone⟩
    · cases h
  · rcases List.mem_append.mp h with h | h
    · split at h
      · rw [List.mem_singleton.mp h]
        exact ⟨hnone, hvalue _⟩
      · cases h
    · split at h
      · rw [List.mem_singleton.mp h]
        exact ⟨hnone, hvalue _⟩
      · cases h

theorem fits_of_actionBlocks {block : Block} (h : block ∈ actionBlocks repr message) :
    block.Fits := by
  unfold actionBlocks at h
  rcases List.mem_append.mp h with h | h
  · split at h
    · rw [List.mem_singleton.mp h]
      intro element helement
      rw [List.mem_singleton.mp helement]
      trivial
    · cases h
  · split at h
    · cases h
    · rw [List.mem_singleton.mp h]
      exact fun element helement => fits_of_buttons repr helement

/-- **Every message respects the limits.** -/
theorem withinLimits (message : ApprovalMessageInput) : WithinLimits repr message := by
  refine ⟨length_truncate (by decide), fun blocks hbuild => ?_⟩
  obtain ⟨parts, hparts, rfl⟩ := build_inv repr hbuild
  refine ⟨(length_blocks repr parts).trans (by decide), fun block hblock => ?_⟩
  rcases List.mem_append.mp hblock with hfirst | hrest
  · exact fits_of_triageBlocks repr (length_confidence (confidence_of_readTriage hparts)) hfirst
  · rcases List.mem_append.mp hrest with hprogress | hactions
    · unfold progressBlocks at hprogress
      split at hprogress
      · rw [List.mem_singleton.mp hprogress]
        exact fits_section _ _
      · cases hprogress
    · exact fits_of_actionBlocks repr hactions

end Message

/-- **The texts of a message are within the limits and their brackets are those of the template's
links exactly when no cut goes through a link, no link that is shown has a bar in it, and what the
fallback text shows of its values has no bracket.** A reader that is not strict lets a label have
bars. -/
theorem slack_texts_iff (strict : Bool) (repr : Json.Value → String)
    (message : ApprovalMessageInput) :
    Harmless strict repr message ∧ WithinLimits repr message ↔ Uncut strict repr message := by
  rw [harmless_iff]
  exact ⟨And.left, fun h => ⟨h, withinLimits repr message⟩⟩

/-- An issue whose title is a mention of everybody. -/
def demoMessage : ApprovalMessageInput where
  repository := "apache/superset".toList
  issueNumber := 4213
  issueTitle := "<!channel>".toList
  issueUrl := "https://github.com/apache/superset/issues/4213".toList
  devinSessionUrl := none
  dashboardUrl := []
  triage := [("outcome", .str "remediation_candidate")]
  actionToken := none
  status := .awaiting
  decisionNote := none
  remediation := none

/-- The fallback text of the message mentions everybody. -/
theorem title_mentions_channel :
    "<!channel>".toList <:+: fallbackText (fun _ => "") demoMessage ∧
    ¬ Harmless false (fun _ => "") demoMessage := by
  have hshown : "<!channel>".toList <:+: fallbackText (fun _ => "") demoMessage := by
    refine ⟨"Remediation approval for apache/superset#4213: ".toList,
      " [awaiting_approval] (Devin recommendation: remediation_candidate)".toList, ?_⟩
    decide +kernel
  refine ⟨hshown, fun h => ?_⟩
  have hbracket : '<' ∈ fallbackText (fun _ => "") demoMessage :=
    hshown.subset (by decide)
  exact (h.fallback '<' hbracket).1 rfl

end Remediator.Slack
