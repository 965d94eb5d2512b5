import Remediator.Lib.Pieces

set_option autoImplicit false

/-! # Texts with markers

A template writes a marker at some places, and values at others. The marker is genuine when it
occurs in the text only where the template writes it: when no literal and no value has it, and no
part of the template is the start of a marker that goes on behind it. Literals that are clear of
the marker leave only the values.
-/

namespace Markers

open Text

/-- A part of a template. -/
inductive Part
  | lit (t : Text)
  | val (t : Text)
  | marker

section Marker

variable (mark : Text)

def Part.text : Part → Text
  | .lit t => t
  | .val t => t
  | .marker => mark

/-- The text of a template. -/
def print (parts : List Part) : Text := parts.flatMap (Part.text mark)

/-- The values of a template. -/
def values (parts : List Part) : List Text :=
  parts.filterMap fun
    | .val t => some t
    | .lit _ => none
    | .marker => none

/-- Every occurrence of the marker is one that the template writes. -/
def Genuine (parts : List Part) : Prop :=
  ∀ before after, print mark parts = before ++ (mark ++ after) →
    ∃ front back, parts = front ++ .marker :: back ∧ before = print mark front

/-- No occurrence of the marker starts in a literal, in a value or inside a marker. -/
def NoOtherStart : List Part → Prop
  | [] => True
  | part :: rest =>
      (∀ u v, part.text mark = u ++ v → v ≠ [] → u ≠ [] ∨ part ≠ .marker →
        ¬ mark <+: v ++ print mark rest) ∧ NoOtherStart rest

variable {mark}

theorem print_cons (part : Part) (rest : List Part) :
    print mark (part :: rest) = part.text mark ++ print mark rest := List.flatMap_cons

theorem genuine_iff_noOtherStart (hmark : mark ≠ []) {parts : List Part} :
    Genuine mark parts ↔ NoOtherStart mark parts := by
  induction parts with
  | nil =>
      refine iff_of_true (fun before after h => ?_) trivial
      have hnil : mark = [] := by
        have hlength := congrArg List.length h
        simp only [print, List.flatMap_nil, List.length_nil, List.length_append] at hlength
        exact List.eq_nil_of_length_eq_zero (by omega)
      exact absurd hnil hmark
  | cons part rest ih =>
      constructor
      · intro h
        refine ⟨?_, ih.mp ?_⟩
        · rintro u v htext hv hother ⟨after, hafter⟩
          have hocc : print mark (part :: rest) = u ++ (mark ++ after) := by
            rw [print_cons, htext, List.append_assoc, ← hafter]
          obtain ⟨front, back, hparts, hu⟩ := h u after hocc
          cases front with
          | nil =>
              obtain ⟨rfl, rfl⟩ := List.cons.inj hparts
              rcases hother with hne | hne
              · exact hne hu
              · exact hne rfl
          | cons first front =>
              obtain ⟨rfl, -⟩ := List.cons.inj hparts
              have hlength := congrArg List.length hu
              have htext' := congrArg List.length htext
              have hpos := List.length_pos_iff.mpr hv
              rw [print_cons, List.length_append] at hlength
              rw [List.length_append] at htext'
              omega
        · intro before after hocc
          have hwhole : print mark (part :: rest) =
              (part.text mark ++ before) ++ (mark ++ after) := by
            rw [print_cons, hocc, List.append_assoc]
          obtain ⟨front, back, hparts, hbefore⟩ := h _ after hwhole
          cases front with
          | nil =>
              obtain ⟨rfl, -⟩ := List.cons.inj hparts
              exact absurd (List.append_eq_nil_iff.mp hbefore).1 hmark
          | cons first front =>
              obtain ⟨rfl, hrest⟩ := List.cons.inj hparts
              rw [print_cons] at hbefore
              exact ⟨front, back, hrest, List.append_cancel_left hbefore⟩
      · rintro ⟨hhead, hrest⟩ before after hocc
        rw [print_cons] at hocc
        -- the occurrence starts in the first part, or behind it
        rcases List.append_eq_append_iff.mp hocc with ⟨more, hbefore, hmore⟩ | ⟨v, htext, hv⟩
        · obtain ⟨front, back, rfl, rfl⟩ := ih.mpr hrest more after hmore
          exact ⟨part :: front, back, rfl, by rw [hbefore, print_cons]⟩
        · by_cases hnil : v = []
          · subst hnil
            rw [List.nil_append] at hv
            obtain ⟨front, back, rfl, hfront⟩ := ih.mpr hrest [] after hv.symm
            refine ⟨part :: front, back, rfl, ?_⟩
            rw [print_cons, ← hfront, htext, List.append_nil, List.append_nil]
          · by_cases hstart : before ≠ [] ∨ part ≠ .marker
            · exact absurd ⟨after, hv⟩ (hhead before v htext hnil hstart)
            · rw [not_or, not_not, not_not] at hstart
              obtain ⟨rfl, rfl⟩ := hstart
              exact ⟨[], rest, rfl, rfl⟩

/-! ## Where an occurrence can start -/

variable (mark) in
/-- No end of a part is the start of a marker that goes on behind the part. -/
def Seamless : List Part → Prop
  | [] => True
  | part :: rest =>
      (∀ p q, mark = p ++ q → p ≠ [] → q ≠ [] → p <:+ part.text mark → ¬ q <+: print mark rest) ∧
        Seamless rest

/-- An occurrence that starts in a text is inside it, or goes on behind it. -/
theorem no_start_iff (hmark : mark ≠ []) (t rest : Text) :
    (∀ u v, t = u ++ v → v ≠ [] → ¬ mark <+: v ++ rest) ↔
      ¬ mark <:+: t ∧
        ∀ p q, mark = p ++ q → p ≠ [] → q ≠ [] → p <:+ t → ¬ q <+: rest := by
  constructor
  · intro h
    refine ⟨?_, ?_⟩
    · rintro ⟨before, after, rfl⟩
      have hne : mark ++ after ≠ [] := fun hnil => hmark (List.append_eq_nil_iff.mp hnil).1
      refine h before (mark ++ after) (List.append_assoc _ _ _) hne ?_
      rw [List.append_assoc]
      exact List.prefix_append _ _
    · rintro p q rfl hp - ⟨u, rfl⟩ hq
      exact h u p rfl hp ((List.prefix_append_right_inj p).mpr hq)
  · rintro ⟨hinside, hseam⟩ u v rfl hv hocc
    rcases List.prefix_or_prefix_of_prefix hocc (List.prefix_append v rest) with hshort | ⟨q, rfl⟩
    · exact hinside (hshort.isInfix.trans (List.suffix_append u v).isInfix)
    · by_cases hq : q = []
      · subst hq
        rw [List.append_nil] at hinside
        exact hinside (List.suffix_append u v).isInfix
      · exact hseam v q rfl hv hq (List.suffix_append u v)
          ((List.prefix_append_right_inj v).mp hocc)

/-- An occurrence that starts inside a marker goes on behind it. -/
theorem no_restart_iff (rest : Text) :
    (∀ u v, mark = u ++ v → v ≠ [] → u ≠ [] → ¬ mark <+: v ++ rest) ↔
      ∀ p q, mark = p ++ q → p ≠ [] → q ≠ [] → p <:+ mark → ¬ q <+: rest := by
  constructor
  · rintro h p q hmark hp hq ⟨u, hu⟩ hrest
    refine h u p hu.symm hp ?_ ?_
    · rintro rfl
      rw [List.nil_append] at hu
      rw [← hu, List.self_eq_append_right] at hmark
      exact hq hmark
    · rw [hmark]
      exact (List.prefix_append_right_inj p).mpr hrest
  · intro h u v hmark hv hu hocc
    rcases List.prefix_or_prefix_of_prefix hocc (List.prefix_append v rest) with hshort | ⟨q, hq⟩
    · have hlength := hshort.length_le
      rw [hmark, List.length_append] at hlength
      have hpos := List.length_pos_iff.mpr hu
      omega
    · refine h v q hq.symm hv ?_ ⟨u, hmark.symm⟩ ?_
      · rintro rfl
        rw [List.append_nil] at hq
        rw [← hq, List.self_eq_append_left] at hmark
        exact hu hmark
      · rw [← hq] at hocc
        exact (List.prefix_append_right_inj v).mp hocc

theorem noOtherStart_iff (hmark : mark ≠ []) {parts : List Part} :
    NoOtherStart mark parts ↔
      (∀ t, .lit t ∈ parts → ¬ mark <:+: t) ∧ (∀ t ∈ values parts, ¬ mark <:+: t) ∧
        Seamless mark parts := by
  induction parts with
  | nil =>
      refine iff_of_true trivial ⟨?_, ?_, trivial⟩ <;>
      · intro t ht
        cases ht
  | cons part rest ih =>
      rw [NoOtherStart, Seamless, ih]
      cases part with
      | lit t =>
          have hstart := no_start_iff hmark t (print mark rest)
          have hvalues : values (.lit t :: rest) = values rest := rfl
          simp only [hvalues, Part.text, ne_eq, reduceCtorEq, not_false_eq_true, or_true,
            forall_const, List.mem_cons, Part.lit.injEq, forall_eq_or_imp] at hstart ⊢
          rw [hstart]
          tauto
      | val t =>
          have hstart := no_start_iff hmark t (print mark rest)
          have hvalues : values (.val t :: rest) = t :: values rest := rfl
          simp only [hvalues, Part.text, ne_eq, reduceCtorEq, not_false_eq_true, or_true,
            forall_const, List.mem_cons, false_or, forall_eq_or_imp] at hstart ⊢
          rw [hstart]
          tauto
      | marker =>
          have hstart := @no_restart_iff mark (print mark rest)
          have hvalues : values (.marker :: rest) = values rest := rfl
          simp only [hvalues, Part.text, ne_eq, reduceCtorEq, not_true_eq_false, or_false,
            List.mem_cons, false_or] at hstart ⊢
          rw [hstart]
          tauto

/-- **The marker is genuine when no literal and no value has it, and no part starts one.** -/
theorem genuine_iff (hmark : mark ≠ []) {parts : List Part} :
    Genuine mark parts ↔
      (∀ t, .lit t ∈ parts → ¬ mark <:+: t) ∧ (∀ t ∈ values parts, ¬ mark <:+: t) ∧
        Seamless mark parts :=
  (genuine_iff_noOtherStart hmark).trans (noOtherStart_iff hmark)

/-! ## Literals that take no part in the marker -/

/-- The part is a literal. -/
def Part.IsLit : Part → Prop
  | .lit _ => True
  | .val _ => False
  | .marker => False

variable (mark) in
/-- The literals are clear of the marker, and behind a value or a marker there is one, unless the
text ends. -/
def Apart : List Part → Prop
  | [] => True
  | .lit t :: rest => Clear mark t ∧ Apart rest
  | .val _ :: rest => (∀ part ∈ rest.head?, part.IsLit) ∧ Apart rest
  | .marker :: rest => (∀ part ∈ rest.head?, part.IsLit) ∧ Apart rest

/-- What a clear literal starts, and the end of the text, are no rest of a marker. -/
theorem Apart.no_rest {rest : List Part} (h : Apart mark rest)
    (hhead : ∀ part ∈ rest.head?, part.IsLit) {p q : Text} (hpq : mark = p ++ q) (hq : q ≠ []) :
    ¬ q <+: print mark rest := by
  intro hocc
  cases rest with
  | nil => exact hq (List.prefix_nil.mp hocc)
  | cons part rest =>
      cases part with
      | val t => exact hhead _ rfl
      | marker => exact hhead _ rfl
      | lit t =>
          obtain ⟨hclear, -⟩ := h
          have hsuffix : q <:+ mark := ⟨p, hpq.symm⟩
          rw [print_cons] at hocc
          rcases List.prefix_or_prefix_of_prefix hocc (List.prefix_append t _) with hin | hover
          · exact hclear.first q hq hsuffix hin
          · exact hclear.around (hover.isInfix.trans hsuffix.isInfix)

theorem Apart.seamless {parts : List Part} (h : Apart mark parts) : Seamless mark parts := by
  induction parts with
  | nil => trivial
  | cons part rest ih =>
      cases part with
      | lit t =>
          obtain ⟨hclear, hrest⟩ := h
          refine ⟨fun p q hpq hp _ hsuffix _ => ?_, ih hrest⟩
          exact hclear.last p hp ⟨q, hpq.symm⟩ hsuffix
      | val t => exact ⟨fun p q hpq _ hq _ => h.2.no_rest h.1 hpq hq, ih h.2⟩
      | marker => exact ⟨fun p q hpq _ hq _ => h.2.no_rest h.1 hpq hq, ih h.2⟩

/-- A literal without the first and last character of the marker, and with a character that the
marker has not, is clear of it. -/
theorem clear_of_edges {e c : Char} {t : Text} (hfirst : mark.head? = some e)
    (hlast : mark.getLast? = some e) (he : e ∉ t) (hc : c ∈ t) (hother : c ∉ mark) :
    Clear mark t where
  around h := hother (h.subset hc)
  inside h := he (h.subset (List.mem_of_head? hfirst))
  first := by
    rintro q hq ⟨p, rfl⟩ hstarts
    rw [List.getLast?_append_of_ne_nil _ hq] at hlast
    exact he (hstarts.subset (List.mem_of_getLast? hlast))
  last := by
    rintro p hp ⟨q, rfl⟩ hsuffix
    rw [List.head?_append_of_ne_nil _ hp] at hfirst
    exact he (hsuffix.subset (List.mem_of_head? hfirst))

end Marker

/-! ## Templates with variables

A template writes texts, variables, the marker, and a line for each item of a list.
-/

/-- A node of a template, with the names of the variables and of the lists. -/
inductive Node (α β : Type)
  | text (t : Text)
  | var (x : α)
  | marker
  | each (xs : β) (front back : Text)

section Node

variable {α β : Type} (value : α → Text) (items : β → List Text)

def Node.parts : Node α β → List Part
  | .text t => [.lit t]
  | .var x => [.val (value x)]
  | .marker => [.marker]
  | .each xs front back => (items xs).flatMap fun item => [.lit front, .val item, .lit back]

/-- The template with its variables replaced. -/
def fill (nodes : List (Node α β)) : List Part := nodes.flatMap (Node.parts value items)

def Node.texts : Node α β → List Text
  | .text t => [t]
  | .var _ => []
  | .marker => []
  | .each _ front back => [front, back]

def Node.vars : Node α β → List α
  | .text _ => []
  | .var x => [x]
  | .marker => []
  | .each _ _ _ => []

def Node.lists : Node α β → List β
  | .text _ => []
  | .var _ => []
  | .marker => []
  | .each xs _ _ => [xs]

def Node.isText : Node α β → Bool
  | .text _ => true
  | .var _ => false
  | .marker => false
  | .each _ _ _ => false

/-- Behind a variable and behind the marker there is a text, unless the template ends. -/
def spaced : List (Node α β) → Bool
  | [] => true
  | .text _ :: rest => spaced rest
  | .var _ :: rest => rest.head?.all Node.isText && spaced rest
  | .marker :: rest => rest.head?.all Node.isText && spaced rest
  | .each _ _ _ :: rest => spaced rest

variable {value items}

theorem fill_cons (node : Node α β) (rest : List (Node α β)) :
    fill value items (node :: rest) = node.parts value items ++ fill value items rest :=
  List.flatMap_cons

theorem mem_lit_fill {nodes : List (Node α β)} {t : Text}
    (h : .lit t ∈ fill value items nodes) : ∃ node ∈ nodes, t ∈ node.texts := by
  obtain ⟨node, hnode, hpart⟩ := List.mem_flatMap.mp h
  refine ⟨node, hnode, ?_⟩
  cases node with
  | text t' =>
      cases List.mem_singleton.mp hpart
      exact List.mem_singleton_self _
  | var x => cases List.mem_singleton.mp hpart
  | marker => cases List.mem_singleton.mp hpart
  | each xs front back =>
      obtain ⟨item, -, hpart⟩ := List.mem_flatMap.mp hpart
      simpa [Node.texts] using hpart

theorem mem_values_iff {parts : List Part} {t : Text} : t ∈ values parts ↔ .val t ∈ parts := by
  rw [values, List.mem_filterMap]
  constructor
  · rintro ⟨part, hpart, ht⟩
    cases part with
    | lit t' => cases ht
    | val t' =>
        cases ht
        exact hpart
    | marker => cases ht
  · exact fun h => ⟨_, h, rfl⟩

/-- The values are those of the variables, and the items of the lists. -/
theorem mem_values_fill {nodes : List (Node α β)} {t : Text} :
    t ∈ values (fill value items nodes) ↔
      (∃ x ∈ nodes.flatMap Node.vars, t = value x) ∨
        ∃ xs ∈ nodes.flatMap Node.lists, t ∈ items xs := by
  rw [mem_values_iff, fill]
  simp only [List.mem_flatMap]
  constructor
  · rintro ⟨node, hnode, hpart⟩
    cases node with
    | text t' => cases List.mem_singleton.mp hpart
    | var x =>
        cases List.mem_singleton.mp hpart
        exact Or.inl ⟨x, ⟨_, hnode, List.mem_singleton_self _⟩, rfl⟩
    | marker => cases List.mem_singleton.mp hpart
    | each xs front back =>
        obtain ⟨item, hitem, hpart⟩ := List.mem_flatMap.mp hpart
        have ht : t = item := by simpa using hpart
        exact Or.inr ⟨xs, ⟨_, hnode, List.mem_singleton_self _⟩, ht ▸ hitem⟩
  · rintro (⟨x, ⟨node, hnode, hx⟩, rfl⟩ | ⟨xs, ⟨node, hnode, hxs⟩, ht⟩)
    · refine ⟨node, hnode, ?_⟩
      cases node with
      | text t' => cases hx
      | var x' =>
          cases List.mem_singleton.mp hx
          exact List.mem_singleton_self _
      | marker => cases hx
      | each xs front back => cases hx
    · refine ⟨node, hnode, ?_⟩
      cases node with
      | text t' => cases hxs
      | var x => cases hxs
      | marker => cases hxs
      | each xs' front back =>
          cases List.mem_singleton.mp hxs
          exact List.mem_flatMap.mpr ⟨t, ht, by simp⟩

/-- A template with its texts between the variables is apart, whatever the variables are. -/
theorem apart_fill {mark : Text} {nodes : List (Node α β)} (hspaced : spaced nodes = true)
    (hclear : ∀ node ∈ nodes, ∀ t ∈ node.texts, Clear mark t) :
    Apart mark (fill value items nodes) := by
  induction nodes with
  | nil => trivial
  | cons node rest ih =>
      obtain ⟨hnode, hrest⟩ := List.forall_mem_cons.mp hclear
      have hhead : rest.head?.all Node.isText = true →
          ∀ part ∈ (fill value items rest).head?, part.IsLit := by
        intro htext part hpart
        cases rest with
        | nil => cases hpart
        | cons next rest =>
            cases next with
            | text t =>
                cases hpart
                trivial
            | var x => cases htext
            | marker => cases htext
            | each xs front back => cases htext
      rw [fill_cons]
      cases node with
      | text t => exact ⟨hnode t (List.mem_singleton_self _), ih hspaced hrest⟩
      | var x =>
          rw [spaced, Bool.and_eq_true] at hspaced
          exact ⟨hhead hspaced.1, ih hspaced.2 hrest⟩
      | marker =>
          rw [spaced, Bool.and_eq_true] at hspaced
          exact ⟨hhead hspaced.1, ih hspaced.2 hrest⟩
      | each xs front back =>
          obtain ⟨hfront, hback⟩ : Clear mark front ∧ Clear mark back := by
            simpa [Node.texts] using hnode
          rw [Node.parts]
          induction items xs with
          | nil => exact ih hspaced hrest
          | cons item more ihitems =>
              refine ⟨hfront, ?_, hback, ihitems⟩
              rintro part ⟨⟩
              trivial

end Node

end Markers
