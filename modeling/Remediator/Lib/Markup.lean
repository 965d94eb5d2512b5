import Remediator.Lib.Pieces

set_option autoImplicit false

/-! # Links in a text that may be cut

A text in which `<target|label>` is a link and an angle bracket is nothing else. A template puts
links between plain texts; what a reader finds in the text, cut somewhere, are the links of the
template exactly when the cut misses them and no target has a bar in it.
-/

namespace Markup

open Text

/-- A part of a template. -/
inductive Segment
  | plain (t : Text)
  | link (target label : Text)

def Segment.text : Segment → Text
  | .plain t => t
  | .link target label => '<' :: (target ++ '|' :: (label ++ ['>']))

/-- The text of a template. -/
def render (segments : List Segment) : Text := segments.flatMap Segment.text

/-- The links of a template. -/
def links (segments : List Segment) : List (Text × Text) :=
  segments.filterMap fun
    | .plain _ => none
    | .link target label => some (target, label)

/-- No angle bracket in the text. -/
def Quiet (t : Text) : Prop := ∀ c ∈ t, c ≠ '<' ∧ c ≠ '>'

instance (t : Text) : Decidable (Quiet t) :=
  List.decidableBAll (fun c : Char => c ≠ '<' ∧ c ≠ '>') t

/-- The test, for texts that are long. -/
def quiet (t : Text) : Bool := t.all fun c => c != '<' && c != '>'

theorem quiet_iff {t : Text} : quiet t = true ↔ Quiet t := by
  simp [quiet, Quiet]

theorem Quiet.append {s t : Text} (hs : Quiet s) (ht : Quiet t) : Quiet (s ++ t) := by
  intro c hc
  rcases List.mem_append.mp hc with h | h
  · exact hs c h
  · exact ht c h

theorem Quiet.of_subset {s t : Text} (ht : Quiet t) (h : s ⊆ t) : Quiet s := fun c hc => ht c (h hc)

/-- The brackets of a template are those of its links. -/
def Segment.Clean : Segment → Prop
  | .plain t => Quiet t
  | .link target label => Quiet target ∧ Quiet label

/-! ## Reading -/

/-- What stands between the brackets of a link: the target ends at the first bar. A strict reader
takes no second bar. -/
def readLink (strict : Bool) (content : Text) : Option (Text × Text) :=
  (splitOnce '|' content).filter fun parts => !(strict && decide ('|' ∈ parts.2))

/-- The links of a text; `none` is a bracket that is not part of one. The first argument is what was
read of an open link. -/
def read (strict : Bool) : Option Text → Text → Option (List (Text × Text))
  | none, [] => some []
  | none, c :: t =>
      if c = '<' then read strict (some []) t else if c = '>' then none else read strict none t
  | some _, [] => none
  | some content, c :: t =>
      if c = '<' then none
      else if c = '>' then
        (readLink strict content).bind fun link => (read strict none t).map (link :: ·)
      else read strict (some (content ++ [c])) t

theorem read_plain {strict : Bool} {p : Text} (hp : Quiet p) (t : Text) :
    read strict none (p ++ t) = read strict none t := by
  induction p with
  | nil => rfl
  | cons c p ih =>
      obtain ⟨⟨hopen, hclose⟩, hp⟩ := List.forall_mem_cons.mp hp
      rw [List.cons_append, read, if_neg hopen, if_neg hclose, ih hp]

theorem read_quiet {strict : Bool} {p : Text} (hp : Quiet p) : read strict none p = some [] := by
  have h := @read_plain strict p hp []
  rwa [List.append_nil] at h

/-- An open link goes on until its bracket. -/
theorem read_content {strict : Bool} {p : Text} (hp : Quiet p) (content t : Text) :
    read strict (some content) (p ++ '>' :: t) =
      (readLink strict (content ++ p)).bind fun link => (read strict none t).map (link :: ·) := by
  induction p generalizing content with
  | nil => simp [read]
  | cons c p ih =>
      obtain ⟨⟨hopen, hclose⟩, hp⟩ := List.forall_mem_cons.mp hp
      rw [List.cons_append, read, if_neg hopen, if_neg hclose, ih hp]
      simp

/-- A link that is never closed. -/
theorem read_open {strict : Bool} {p : Text} (hp : Quiet p) (content : Text) :
    read strict (some content) p = none := by
  induction p generalizing content with
  | nil => rfl
  | cons c p ih =>
      obtain ⟨⟨hopen, hclose⟩, hp⟩ := List.forall_mem_cons.mp hp
      rw [read, if_neg hopen, if_neg hclose, ih hp]

/-- A whole link. -/
theorem read_link {strict : Bool} {target label : Text} (htarget : Quiet target)
    (hlabel : Quiet label) (t : Text) :
    read strict none ((Segment.link target label).text ++ t) =
      (readLink strict (target ++ '|' :: label)).bind fun link =>
        (read strict none t).map (link :: ·) := by
  have hbar : Quiet ('|' :: label) := List.forall_mem_cons.mpr ⟨by decide, hlabel⟩
  have hcontent := @read_content strict _ (htarget.append hbar) [] t
  have htext : (Segment.link target label).text ++ t =
      '<' :: ((target ++ '|' :: label) ++ '>' :: t) := by simp [Segment.text]
  rw [htext, read, if_pos rfl, hcontent, List.nil_append]

/-- The reader finds target and label apart. -/
def Readable (strict : Bool) (target label : Text) : Prop :=
  '|' ∉ target ∧ (strict = true → '|' ∉ label)

instance (strict : Bool) (target label : Text) : Decidable (Readable strict target label) :=
  inferInstanceAs (Decidable (_ ∧ _))

theorem readLink_iff {strict : Bool} {target label : Text} :
    readLink strict (target ++ '|' :: label) = some (target, label) ↔
      Readable strict target label := by
  unfold readLink Readable
  rw [Option.filter_eq_some_iff, splitOnce_iff]
  cases strict <;> simp

/-! ## A text that is cut -/

/-- The first `n` characters cut no link, and every link among them is readable. -/
def Intact (strict : Bool) : ℕ → List Segment → Prop
  | _, [] => True
  | n, .plain t :: rest => Intact strict (n - t.length) rest
  | n, .link target label :: rest =>
      n = 0 ∨ ((Segment.link target label).text.length ≤ n ∧ Readable strict target label ∧
        Intact strict (n - (Segment.link target label).text.length) rest)

/-- What a reader finds in the text are links of the template, the first of them in order. -/
def Faithful (strict : Bool) (segments : List Segment) (t : Text) : Prop :=
  ∃ shown, shown <+: links segments ∧ read strict none t = some shown

/-- A link that the cut goes through is found by no reader. -/
theorem read_cut {strict : Bool} {target label tail : Text} {n : ℕ} (htarget : Quiet target)
    (hlabel : Quiet label) (htail : Quiet tail) (hpos : n ≠ 0)
    (hn : n < (Segment.link target label).text.length) :
    read strict none ((Segment.link target label).text.take n ++ tail) = none := by
  have hbar : Quiet ('|' :: label) := List.forall_mem_cons.mpr ⟨by decide, hlabel⟩
  obtain ⟨m, rfl⟩ := Nat.exists_eq_succ_of_ne_zero hpos
  have htext : (Segment.link target label).text = '<' :: ((target ++ '|' :: label) ++ ['>']) := by
    simp [Segment.text]
  rw [htext] at hn ⊢
  have hm : m ≤ (target ++ '|' :: label).length := by
    simp only [List.length_cons, List.length_append, List.length_nil] at hn ⊢
    omega
  rw [List.take_succ_cons, List.take_append_of_le_length hm, List.cons_append, read, if_pos rfl]
  have hquiet : Quiet ((target ++ '|' :: label).take m) :=
    (htarget.append hbar).of_subset (List.take_subset m _)
  exact read_open (hquiet.append htail) []

/-- **A template that is cut after `n` characters reads as itself exactly when the cut misses its
links, and the links before the cut are readable.** -/
theorem faithful_take_iff {strict : Bool} {segments : List Segment} {tail : Text}
    (hclean : ∀ segment ∈ segments, segment.Clean) (htail : Quiet tail) (n : ℕ) :
    Faithful strict segments ((render segments).take n ++ tail) ↔ Intact strict n segments := by
  induction segments generalizing n with
  | nil =>
      refine iff_of_true ⟨[], List.nil_prefix, ?_⟩ trivial
      rw [render, List.flatMap_nil, List.take_nil, List.nil_append, read_quiet htail]
  | cons segment rest ih =>
      obtain ⟨hsegment, hrest⟩ := List.forall_mem_cons.mp hclean
      have hrender : render (segment :: rest) = segment.text ++ render rest := List.flatMap_cons
      rw [hrender, List.take_append, List.append_assoc]
      cases segment with
      | plain t =>
          have hquiet : Quiet (t.take n) := Quiet.of_subset hsegment (List.take_subset n t)
          have hsame : Faithful strict (.plain t :: rest)
              (t.take n ++ ((render rest).take (n - t.length) ++ tail)) ↔
              Faithful strict rest ((render rest).take (n - t.length) ++ tail) := by
            unfold Faithful
            rw [read_plain hquiet]
            rfl
          exact hsame.trans (ih hrest _)
      | link target label =>
          obtain ⟨htarget, hlabel⟩ := hsegment
          have hlinks : links (.link target label :: rest) = (target, label) :: links rest := rfl
          by_cases hzero : n = 0
          · subst hzero
            refine iff_of_true ⟨[], List.nil_prefix, ?_⟩ (Or.inl rfl)
            rw [List.take_zero, Nat.zero_sub, List.take_zero, List.nil_append, List.nil_append,
              read_quiet htail]
          by_cases hlong : (Segment.link target label).text.length ≤ n
          · rw [List.take_of_length_le hlong]
            have htext := @read_link strict _ _ htarget hlabel
              ((render rest).take (n - (Segment.link target label).text.length) ++ tail)
            constructor
            · rintro ⟨shown, hstarts, hread⟩
              rw [htext] at hread
              obtain ⟨link, hlink, hmapped⟩ := Option.bind_eq_some_iff.mp hread
              obtain ⟨more, hmore, rfl⟩ := Option.map_eq_some_iff.mp hmapped
              rw [hlinks, List.cons_prefix_cons] at hstarts
              obtain ⟨rfl, hstarts⟩ := hstarts
              exact Or.inr ⟨hlong, readLink_iff.mp hlink, (ih hrest _).mp ⟨more, hstarts, hmore⟩⟩
            · rintro (h | ⟨-, hreadable, hintact⟩)
              · exact absurd h hzero
              · obtain ⟨more, hstarts, hmore⟩ := (ih hrest _).mpr hintact
                refine ⟨(target, label) :: more, ?_, ?_⟩
                · rw [hlinks]
                  exact List.cons_prefix_cons.mpr ⟨rfl, hstarts⟩
                · rw [htext, readLink_iff.mpr hreadable, Option.bind_some, hmore, Option.map_some]
          · -- the cut goes through the link
            have hcut := not_le.mp hlong
            have hnone : (render rest).take (n - (Segment.link target label).text.length) = [] := by
              rw [Nat.sub_eq_zero_of_le hcut.le, List.take_zero]
            rw [hnone, List.nil_append]
            refine iff_of_false ?_ ?_
            · rintro ⟨shown, -, hread⟩
              rw [read_cut htarget hlabel htail hzero hcut] at hread
              cases hread
            · rintro (h | ⟨h, -⟩)
              · exact hzero h
              · exact hlong h

/-! ## `truncate` -/

/-- `truncate`: a text over the limit ends with an ellipsis. -/
def truncate (t : Text) (limit : ℕ) : Text :=
  if t.length ≤ limit then t else t.take (limit - 1) ++ ['…']

/-- The number of characters that `truncate` keeps. -/
def kept (t : Text) (limit : ℕ) : ℕ := if t.length ≤ limit then t.length else limit - 1

theorem length_truncate {t : Text} {limit : ℕ} (h : 0 < limit) :
    (truncate t limit).length ≤ limit := by
  unfold truncate
  split
  · assumption
  · simp only [List.length_append, List.length_take, List.length_singleton]
    omega

theorem quiet_truncate {t : Text} (h : Quiet t) (limit : ℕ) : Quiet (truncate t limit) := by
  unfold truncate
  split
  · exact h
  · exact (h.of_subset (List.take_subset _ t)).append (by decide)

theorem truncate_eq (t : Text) (limit : ℕ) :
    ∃ tail, Quiet tail ∧ truncate t limit = t.take (kept t limit) ++ tail := by
  unfold truncate kept
  split
  · exact ⟨[], by decide, by simp⟩
  · exact ⟨['…'], by decide, rfl⟩

theorem faithful_truncate_iff {strict : Bool} {segments : List Segment}
    (hclean : ∀ segment ∈ segments, segment.Clean) (limit : ℕ) :
    Faithful strict segments (truncate (render segments) limit) ↔
      Intact strict (kept (render segments) limit) segments := by
  obtain ⟨tail, htail, htext⟩ := truncate_eq (render segments) limit
  rw [htext]
  exact faithful_take_iff hclean htail _

/-! ## Texts without links -/

/-- What the first `n` characters show of the values of a text. -/
def shownValues : ℕ → List Piece → List Text
  | _, [] => []
  | n, .lit t :: rest => shownValues (n - t.length) rest
  | n, .val t :: rest => t.take n :: shownValues (n - t.length) rest

/-- No literal has an angle bracket. -/
def literalsQuiet : List Piece → Bool
  | [] => true
  | .lit t :: rest => quiet t && literalsQuiet rest
  | .val _ :: rest => literalsQuiet rest

theorem quiet_append_iff {s t : Text} : Quiet (s ++ t) ↔ Quiet s ∧ Quiet t :=
  ⟨fun h => ⟨h.of_subset (List.subset_append_left s t), h.of_subset (List.subset_append_right s t)⟩,
    fun h => h.1.append h.2⟩

theorem quiet_take_join_iff {pieces : List Piece} (h : literalsQuiet pieces = true) (n : ℕ) :
    Quiet ((join pieces).take n) ↔ ∀ value ∈ shownValues n pieces, Quiet value := by
  induction pieces generalizing n with
  | nil => simp [join, shownValues, Quiet]
  | cons piece rest ih =>
      have hjoin : join (piece :: rest) = piece.text ++ join rest := List.flatMap_cons
      rw [hjoin, List.take_append, quiet_append_iff]
      cases piece with
      | lit t =>
          obtain ⟨hlit, hrest⟩ := Bool.and_eq_true_iff.mp h
          have hquiet : Quiet (t.take n) :=
            (quiet_iff.mp hlit).of_subset (List.take_subset n t)
          rw [ih hrest]
          exact ⟨And.right, fun hvalues => ⟨hquiet, hvalues⟩⟩
      | val t =>
          rw [ih h, shownValues, List.forall_mem_cons]
          rfl

/-- **A cut text without links has no bracket exactly when what it shows of its values has
none.** -/
theorem quiet_truncate_join_iff {pieces : List Piece} (h : literalsQuiet pieces = true)
    (limit : ℕ) : Quiet (truncate (join pieces) limit) ↔
      ∀ value ∈ shownValues (kept (join pieces) limit) pieces, Quiet value := by
  obtain ⟨tail, htail, htext⟩ := truncate_eq (join pieces) limit
  rw [htext, quiet_append_iff, quiet_take_join_iff h]
  exact ⟨And.left, fun hvalues => ⟨hvalues, htail⟩⟩

end Markup
