import Remediator.Lib.Text

set_option autoImplicit false

/-! # Texts put together from pieces

A formatted text is made of the literals of its template and of the values put between them. A
needle that no literal can take part in occurs in the text exactly when it occurs in a value.
-/

namespace Text

/-! ## Occurrences in a concatenation -/

/-- The end of one text and the start of the next make the needle. -/
def Straddles (needle s t : Text) : Prop :=
  ∃ p q, needle = p ++ q ∧ p ≠ [] ∧ q ≠ [] ∧ p <:+ s ∧ q <+: t

theorem infix_append_iff {needle s t : Text} (hneedle : needle ≠ []) :
    needle <:+: s ++ t ↔ needle <:+: s ∨ needle <:+: t ∨ Straddles needle s t := by
  constructor
  · rintro ⟨before, after, h⟩
    rw [List.append_assoc] at h
    rcases List.append_eq_append_iff.mp h with ⟨rest, hs, hrest⟩ | ⟨rest, hbefore, ht⟩
    · -- the needle starts in `s`
      rcases List.append_eq_append_iff.mp hrest with ⟨tail, hr, -⟩ | ⟨p, hp, ht⟩
      · refine Or.inl ⟨before, tail, ?_⟩
        rw [hs, hr, List.append_assoc]
      · by_cases hrest : rest = []
        · subst hrest
          refine Or.inr (Or.inl ⟨[], after, ?_⟩)
          rw [List.nil_append, hp, List.nil_append, ht]
        · by_cases hpnil : p = []
          · subst hpnil
            refine Or.inl ⟨before, [], ?_⟩
            rw [hp, hs, List.append_nil, List.append_nil]
          · exact Or.inr (Or.inr ⟨rest, p, hp, hrest, hpnil, ⟨before, hs.symm⟩, ⟨after, ht.symm⟩⟩)
    · exact Or.inr (Or.inl ⟨rest, after, by rw [ht, List.append_assoc]⟩)
  · rintro (h | h | ⟨p, q, rfl, -, -, ⟨before, rfl⟩, ⟨after, rfl⟩⟩)
    · exact h.trans (List.prefix_append s t).isInfix
    · exact h.trans (List.suffix_append s t).isInfix
    · exact ⟨before, after, by simp⟩

/-! ## Stripped texts -/

/-- Stripping cuts no needle whose first and last characters stay. -/
theorem infix_stripBy_iff {p : Char → Bool} {needle t : Text}
    (hfirst : ∃ c, needle.head? = some c ∧ p c = false)
    (hlast : ∃ c, needle.getLast? = some c ∧ p c = false) :
    needle <:+: stripBy p t ↔ needle <:+: t := by
  -- one end: the characters that are dropped do not start the needle
  have hdrop : ∀ {needle t : Text}, (∃ c, needle.head? = some c ∧ p c = false) →
      (needle <:+: t.dropWhile p ↔ needle <:+: t) := by
    rintro needle t ⟨c, hc, hpc⟩
    induction t with
    | nil => rfl
    | cons d t ih =>
        rw [List.dropWhile_cons]
        split
        · next hd =>
            rw [ih, List.infix_cons_iff]
            constructor
            · exact Or.inr
            · rintro (⟨rest, hrest⟩ | h)
              · -- the needle starts with the dropped character
                obtain ⟨needle, rfl⟩ : ∃ tail, needle = c :: tail := by
                  cases needle with
                  | nil => cases hc
                  | cons b tail =>
                      cases hc
                      exact ⟨tail, rfl⟩
                obtain ⟨rfl, -⟩ := List.cons.inj hrest
                rw [hpc] at hd
                cases hd
              · exact h
        · rfl
  unfold stripBy
  rw [← List.reverse_infix, List.reverse_reverse, hdrop, List.reverse_infix, hdrop hfirst]
  rwa [List.head?_reverse]

/-- Stripping keeps a start whose last character stays, behind the characters dropped before it. -/
theorem prefix_stripBy_iff {p : Char → Bool} {start t : Text}
    (hlast : ∃ c, start.getLast? = some c ∧ p c = false) :
    start <+: stripBy p t ↔ start <+: t.dropWhile p := by
  unfold stripBy
  generalize t.dropWhile p = s
  constructor
  · intro h
    refine h.trans ?_
    rw [← List.reverse_suffix, List.reverse_reverse]
    exact List.dropWhile_suffix p
  · rintro ⟨rest, rfl⟩
    obtain ⟨c, hc, hpc⟩ := hlast
    rw [List.reverse_append, List.dropWhile_append]
    split
    · -- everything behind the start is dropped, and the last character of the start stops it
      rw [← List.head?_reverse] at hc
      obtain ⟨front, hfront⟩ : ∃ front, start.reverse = c :: front := by
        cases hreverse : start.reverse with
        | nil =>
            rw [hreverse] at hc
            cases hc
        | cons d front =>
            rw [hreverse] at hc
            cases hc
            exact ⟨front, rfl⟩
      rw [hfront, List.dropWhile_cons_of_neg (by simpa using hpc), ← hfront, List.reverse_reverse]
    · rw [List.reverse_append, List.reverse_reverse]
      exact List.prefix_append _ _

/-! ## `LIKE` -/

/-- `t LIKE pattern`. -/
def like : Text → Text → Bool
  | [], t => t.isEmpty
  | '%' :: pattern, t => t.tails.any (like pattern)
  | '_' :: pattern, _ :: t => like pattern t
  | '\\' :: c :: pattern, d :: t => c == d && like pattern t
  | c :: pattern, d :: t => c == d && like pattern t
  | _ :: _, [] => false

/-- Nothing in the text has a meaning in a pattern. -/
def Plain (t : Text) : Prop := ∀ c ∈ t, c ≠ '%' ∧ c ≠ '_' ∧ c ≠ '\\'

instance (t : Text) : Decidable t.Plain :=
  List.decidableBAll (fun c : Char => c ≠ '%' ∧ c ≠ '_' ∧ c ≠ '\\') t

theorem like_plain {start : Text} (hplain : start.Plain) (pattern t : Text) :
    like (start ++ pattern) t = true ↔ ∃ rest, t = start ++ rest ∧ like pattern rest = true := by
  induction start generalizing t with
  | nil => simp
  | cons c start ih =>
      obtain ⟨⟨hany, hone, hescape⟩, hrest⟩ := List.forall_mem_cons.mp hplain
      cases t with
      | nil => simp [like]
      | cons d t =>
          rw [List.cons_append, like]
          · rw [Bool.and_eq_true, beq_iff_eq, ih hrest]
            constructor
            · rintro ⟨rfl, rest, rfl, hlike⟩
              exact ⟨rest, rfl, hlike⟩
            · rintro ⟨rest, h, hlike⟩
              obtain ⟨rfl, rfl⟩ := List.cons.inj h
              exact ⟨rfl, rest, rfl, hlike⟩
          · exact hany
          · exact hone
          · rintro _ _ rfl
            exact absurd rfl hescape

theorem like_any (pattern t : Text) :
    like ('%' :: pattern) t = true ↔ ∃ rest, rest <:+ t ∧ like pattern rest = true := by
  rw [like, List.any_eq_true]
  simp only [List.mem_tails]

/-- `start%needle%`: the text starts with the one and has the other behind it. -/
theorem like_start_any {start needle : Text} (hstart : start.Plain) (hneedle : needle.Plain)
    (t : Text) : like (start ++ '%' :: (needle ++ ['%'])) t = true ↔
      ∃ rest, t = start ++ rest ∧ needle <:+: rest := by
  rw [like_plain hstart]
  refine exists_congr fun rest => and_congr_right fun _ => ?_
  rw [like_any]
  constructor
  · rintro ⟨tail, htail, hlike⟩
    obtain ⟨after, rfl, -⟩ := (like_plain hneedle _ _).mp hlike
    exact (List.prefix_append needle after).isInfix.trans htail.isInfix
  · rintro ⟨before, after, rfl⟩
    refine ⟨needle ++ after, ?_, (like_plain hneedle _ _).mpr ⟨after, rfl, ?_⟩⟩
    · rw [List.append_assoc]
      exact List.suffix_append _ _
    · rw [like_any]
      exact ⟨[], List.nil_suffix, rfl⟩

/-! ## Literals that take no part in the needle -/

/-- No occurrence of the needle meets the literal. -/
structure Clear (needle lit : Text) : Prop where
  around : ¬ lit <:+: needle
  inside : ¬ needle <:+: lit
  first : ∀ q, q ≠ [] → q <:+ needle → ¬ q <+: lit
  last : ∀ p, p ≠ [] → p <+: needle → ¬ p <:+ lit

/-- Whether the literal is clear of the needle. -/
def clear (needle lit : Text) : Bool :=
  !contains lit needle && !contains needle lit &&
    needle.tails.all (fun q => q.isEmpty || !q.isPrefixOf lit) &&
    needle.inits.all (fun p => p.isEmpty || !p.isSuffixOf lit)

theorem clear_iff {needle lit : Text} : clear needle lit = true ↔ Clear needle lit := by
  unfold clear
  simp only [Bool.and_eq_true, Bool.not_eq_true', List.all_eq_true, Bool.or_eq_true,
    List.isEmpty_iff, List.mem_tails, List.mem_inits]
  have hcontains : ∀ {part t : Text}, contains part t = false ↔ ¬ part <:+: t := by
    intro part t
    rw [← contains_iff, Bool.not_eq_true]
  constructor
  · rintro ⟨⟨⟨haround, hinside⟩, hfirst⟩, hlast⟩
    refine ⟨hcontains.mp haround, hcontains.mp hinside, fun q hq hsuffix hlit => ?_,
      fun p hp hstarts hlit => ?_⟩
    · rcases hfirst q hsuffix with hnil | hnot
      · exact hq hnil
      · rw [List.isPrefixOf_iff_prefix.mpr hlit] at hnot
        cases hnot
    · rcases hlast p hstarts with hnil | hnot
      · exact hp hnil
      · rw [List.isSuffixOf_iff_suffix.mpr hlit] at hnot
        cases hnot
  · intro h
    refine ⟨⟨⟨hcontains.mpr h.around, hcontains.mpr h.inside⟩, fun q hsuffix => ?_⟩,
      fun p hstarts => ?_⟩
    · by_cases hq : q = []
      · exact Or.inl hq
      · right
        rw [← Bool.not_eq_true, List.isPrefixOf_iff_prefix]
        exact h.first q hq hsuffix
    · by_cases hp : p = []
      · exact Or.inl hp
      · right
        rw [← Bool.not_eq_true, List.isSuffixOf_iff_suffix]
        exact h.last p hp hstarts

section Clear

variable {needle lit : Text}

/-- A needle in a text that starts with a clear literal is behind the literal. -/
theorem Clear.infix_iff (h : Clear needle lit) (hneedle : needle ≠ []) (t : Text) :
    needle <:+: lit ++ t ↔ needle <:+: t := by
  rw [infix_append_iff hneedle]
  constructor
  · rintro (hlit | ht | ⟨p, q, rfl, hp, -, hsuffix, -⟩)
    · exact absurd hlit h.inside
    · exact ht
    · exact absurd hsuffix (h.last p hp (List.prefix_append p q))
  · exact fun ht => Or.inr (Or.inl ht)

/-- A clear literal keeps two texts apart. -/
theorem Clear.separates (h : Clear needle lit) (hneedle : needle ≠ []) (s t : Text) :
    needle <:+: s ++ (lit ++ t) ↔ needle <:+: s ∨ needle <:+: t := by
  rw [infix_append_iff hneedle, h.infix_iff hneedle]
  refine or_congr_right ⟨?_, Or.inl⟩
  rintro (ht | ⟨p, q, rfl, -, hq, -, hstarts⟩)
  · exact ht
  · -- the rest of the needle would start the literal or contain it
    rcases List.prefix_or_prefix_of_prefix hstarts (List.prefix_append lit t) with hlit | hlit
    · exact absurd hlit (h.first q hq (List.suffix_append p q))
    · exact absurd (hlit.isInfix.trans (List.suffix_append p q).isInfix) h.around

end Clear

/-! ## Pieces -/

/-- A piece of a formatted text. -/
inductive Piece
  | lit (t : Text)
  | val (t : Text)

def Piece.text : Piece → Text
  | .lit t => t
  | .val t => t

/-- The formatted text. -/
def join (pieces : List Piece) : Text := pieces.flatMap Piece.text

/-- The values of the pieces. -/
def values (pieces : List Piece) : List Text :=
  pieces.filterMap fun
    | .lit _ => none
    | .val t => some t

/-- Every literal is clear of the needle, and between two values there is a literal. -/
def formatted (needle : Text) : List Piece → Bool
  | [] => true
  | .lit t :: rest => clear needle t && formatted needle rest
  | [.val _] => true
  | .val _ :: .lit t :: rest => clear needle t && formatted needle rest
  | .val _ :: .val _ :: _ => false

/-- **The needle occurs in a formatted text exactly when it occurs in a value.** -/
theorem infix_join_iff {needle : Text} (hneedle : needle ≠ []) {pieces : List Piece}
    (h : formatted needle pieces = true) :
    needle <:+: join pieces ↔ ∃ value ∈ values pieces, needle <:+: value := by
  induction pieces using formatted.induct with
  | case1 => simp [join, values, hneedle]
  | case2 t rest ih =>
      obtain ⟨hclear, hrest⟩ := Bool.and_eq_true_iff.mp h
      show needle <:+: t ++ join rest ↔ _
      rw [(clear_iff.mp hclear).infix_iff hneedle, ih hrest]
      rfl
  | case3 t => simp [join, values, Piece.text]
  | case4 v t rest ih =>
      obtain ⟨hclear, hrest⟩ := Bool.and_eq_true_iff.mp h
      show needle <:+: v ++ (t ++ join rest) ↔ ∃ value ∈ v :: values rest, _
      rw [(clear_iff.mp hclear).separates hneedle, ih hrest, List.exists_mem_cons_iff]
  | case5 v w rest => cases h

end Text
