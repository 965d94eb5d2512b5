import Remediator.Lib.Pieces

set_option autoImplicit false

/-! # `str.replace`

Occurrences are replaced from the left, and what is written in their place is not looked at again.
A replacement that is clear of a needle neither makes an occurrence of it nor hides one.
-/

namespace Text

/-- `t.replace(old, new)` behind the next `k` characters, which belong to an occurrence. -/
def replaceFrom (old new : Text) : ℕ → Text → Text
  | _, [] => []
  | k + 1, _ :: t => replaceFrom old new k t
  | 0, c :: t =>
      if startsWith old (c :: t) then new ++ replaceFrom old new (old.length - 1) t
      else c :: replaceFrom old new 0 t

/-- `t.replace(old, new)`, of an `old` that is not empty. -/
def replace (old new t : Text) : Text := replaceFrom old new 0 t

section Replace

variable {old new : Text}

theorem replaceFrom_eq (k : ℕ) (t : Text) :
    replaceFrom old new k t = replace old new (t.drop k) := by
  induction k generalizing t with
  | zero => rfl
  | succ k ih =>
      cases t with
      | nil => rfl
      | cons c t => exact ih t

@[simp] theorem replace_nil : replace old new [] = [] := rfl

theorem replace_occurrence (hold : old ≠ []) (t : Text) :
    replace old new (old ++ t) = new ++ replace old new t := by
  obtain ⟨c, rest, rfl⟩ := List.exists_cons_of_ne_nil hold
  have hstart : startsWith (c :: rest) (c :: (rest ++ t)) = true :=
    List.isPrefixOf_iff_prefix.mpr (List.prefix_append (c :: rest) t)
  rw [List.cons_append, replace, replaceFrom, if_pos hstart, replaceFrom_eq]
  simp

theorem replace_cons {c : Char} {t : Text} (h : ¬ old <+: c :: t) :
    replace old new (c :: t) = c :: replace old new t := by
  have hstart : ¬ startsWith old (c :: t) = true :=
    fun hs => h (List.isPrefixOf_iff_prefix.mp hs)
  rw [replace, replaceFrom, if_neg hstart]
  rfl

/-- How a text is read: an occurrence is at its start, or its first character is kept. -/
theorem replace_induction {P : Text → Prop} (old : Text) (hold : old ≠ []) (hnil : P [])
    (hoccurrence : ∀ t, P t → P (old ++ t))
    (hkeep : ∀ c t, ¬ old <+: c :: t → P t → P (c :: t)) (t : Text) : P t := by
  induction hn : t.length using Nat.strong_induction_on generalizing t with
  | _ n ih =>
      subst hn
      cases t with
      | nil => exact hnil
      | cons c t =>
          by_cases hstart : old <+: c :: t
          · obtain ⟨rest, hrest⟩ := hstart
            rw [← hrest]
            refine hoccurrence rest (ih rest.length ?_ rest rfl)
            have hlength := List.length_pos_iff.mpr hold
            rw [← hrest, List.length_append]
            omega
          · exact hkeep c t hstart (ih t.length (Nat.lt_succ_self _) t rfl)

/-- No occurrence of the needle in `p ++ t` begins in `p`. -/
def Past (needle p t : Text) : Prop := ∀ s, s ≠ [] → s <:+ p → ¬ needle <+: s ++ t

theorem Past.infix {needle p t : Text} (h : Past needle p t) (hneedle : needle ≠ []) :
    ¬ needle <:+: p := by
  rintro ⟨before, after, rfl⟩
  refine h (needle ++ after) (by simp [hneedle]) ?_ ?_
  · rw [List.append_assoc]
    exact List.suffix_append _ _
  · rw [List.append_assoc]
    exact List.prefix_append _ _

theorem Past.push {needle p t : Text} {c : Char} (h : Past needle p (c :: t))
    (hc : ¬ needle <+: c :: t) : Past needle (p ++ [c]) t := by
  intro s hs hsuffix
  rcases List.suffix_concat_iff.mp hsuffix with rfl | ⟨s, rfl, hrest⟩
  · exact absurd rfl hs
  · rw [List.append_assoc]
    by_cases hnil : s = []
    · subst hnil
      exact hc
    · exact h s hnil hrest

/-- What is kept before an occurrence is kept as it is. -/
theorem replace_append {p t : Text} (h : Past old p t) :
    replace old new (p ++ t) = p ++ replace old new t := by
  induction p with
  | nil => rfl
  | cons c p ih =>
      rw [List.cons_append, replace_cons, ih, List.cons_append]
      · exact fun s hs hsuffix => h s hs (hsuffix.trans (List.suffix_cons c p))
      · exact h (c :: p) (List.cons_ne_nil c p) List.suffix_rfl

/-! ## What is left in the text -/

/-- No occurrence is left. -/
theorem not_infix_replace (hold : old ≠ []) (hclear : Clear old new) (t : Text) :
    ¬ old <:+: replace old new t := by
  have hpast : ∀ p, Past old p t → ¬ old <:+: p ++ replace old new t := by
    refine replace_induction (P := fun t => ∀ p, Past old p t → ¬ old <:+: p ++ replace old new t)
      old hold ?_ ?_ ?_ t
    · intro p hp
      rw [replace_nil, List.append_nil]
      exact hp.infix hold
    · intro t ih p hp
      rw [replace_occurrence hold, hclear.separates hold]
      rintro (hwithin | hwithin)
      · exact hp.infix hold hwithin
      · exact ih [] (fun s hs hsuffix => absurd (List.suffix_nil.mp hsuffix) hs) hwithin
    · intro c t hkeep ih p hp
      rw [replace_cons hkeep, ← List.singleton_append, ← List.append_assoc]
      exact ih (p ++ [c]) (hp.push hkeep)
  exact hpast [] fun s hs hsuffix => absurd (List.suffix_nil.mp hsuffix) hs

/-- No occurrence of another needle is made. -/
theorem not_infix_replace_of_not {needle : Text} (hold : old ≠ []) (hneedle : needle ≠ [])
    (hclear : Clear needle new) {t : Text} (h : ¬ needle <:+: t) :
    ¬ needle <:+: replace old new t := by
  have hpast : ∀ p, ¬ needle <:+: p ++ t → ¬ needle <:+: p ++ replace old new t := by
    refine replace_induction
      (P := fun t => ∀ p, ¬ needle <:+: p ++ t → ¬ needle <:+: p ++ replace old new t)
      old hold (fun p hp => hp) ?_ ?_ t
    · intro t ih p hp
      rw [replace_occurrence hold, hclear.separates hneedle]
      rintro (hwithin | hwithin)
      · exact hp (hwithin.trans (List.prefix_append _ _).isInfix)
      · refine ih [] (fun ht => hp ?_) hwithin
        exact ht.trans ((List.suffix_append old t).trans (List.suffix_append p _)).isInfix
    · intro c t hkeep ih p hp
      rw [replace_cons hkeep, ← List.singleton_append, ← List.append_assoc]
      refine ih (p ++ [c]) ?_
      rwa [List.append_assoc]
  exact hpast [] h

/-! ## Formatted texts -/

/-- The piece with its value replaced. -/
def Piece.put (old new : Text) : Piece → Piece
  | .lit t => .lit t
  | .val v => if v = old then .lit new else .val v

theorem Clear.past_lit {lit t : Text} (h : Clear old lit) : Past old lit t := by
  intro s hs hsuffix hstarts
  rcases List.prefix_or_prefix_of_prefix hstarts (List.prefix_append s t) with hlit | hlit
  · exact h.inside (hlit.isInfix.trans hsuffix.isInfix)
  · exact h.last s hs hlit hsuffix

/-- A value in which the needle does not occur, before a clear literal. -/
theorem Clear.past_val {v lit t : Text} (h : Clear old lit) (hv : ¬ old <:+: v) :
    Past old v (lit ++ t) := by
  intro s hs hsuffix hstarts
  rcases List.prefix_or_prefix_of_prefix hstarts (List.prefix_append s (lit ++ t)) with hval | hval
  · exact hv (hval.isInfix.trans hsuffix.isInfix)
  · obtain ⟨q, rfl⟩ := hval
    rw [List.prefix_append_right_inj] at hstarts
    by_cases hq : q = []
    · subst hq
      rw [List.append_nil] at hv
      exact hv hsuffix.isInfix
    · rcases List.prefix_or_prefix_of_prefix hstarts (List.prefix_append lit t) with hlit | hlit
      · exact h.first q hq (List.suffix_append s q) hlit
      · exact h.around (hlit.isInfix.trans (List.suffix_append s q).isInfix)

/-- **In a formatted text exactly the values are replaced.** -/
theorem replace_join (hold : old ≠ []) {pieces : List Piece} (h : formatted old pieces = true)
    (hvalues : ∀ v ∈ values pieces, v = old ∨ ¬ old <:+: v) :
    replace old new (join pieces) = join (pieces.map (Piece.put old new)) := by
  induction pieces using formatted.induct with
  | case1 => rfl
  | case2 t rest ih =>
      obtain ⟨hclear, hrest⟩ := Bool.and_eq_true_iff.mp h
      show replace old new (t ++ join rest) = t ++ join (rest.map (Piece.put old new))
      rw [replace_append (clear_iff.mp hclear).past_lit, ih hrest hvalues]
  | case3 v =>
      have hjoin : join [.val v] = v := List.append_nil v
      rw [hjoin]
      rcases hvalues v List.mem_cons_self with rfl | hv
      · have hvalue : replace v new (v ++ []) = new ++ replace v new [] :=
          replace_occurrence hold []
        rw [List.append_nil] at hvalue
        simp [hvalue, Piece.put, join, Piece.text]
      · have hne : v ≠ old := fun heq => hv (heq ▸ List.infix_rfl)
        have hpast : Past old v [] := by
          intro s hs hsuffix hstarts
          rw [List.append_nil] at hstarts
          exact hv (hstarts.isInfix.trans hsuffix.isInfix)
        have hvalue : replace old new (v ++ []) = v ++ replace old new [] := replace_append hpast
        rw [List.append_nil] at hvalue
        simp [hvalue, Piece.put, hne, join, Piece.text]
  | case4 v t rest ih =>
      obtain ⟨hclear, hrest⟩ := Bool.and_eq_true_iff.mp h
      have hclear := clear_iff.mp hclear
      have hih := ih hrest fun w hw => hvalues w (List.mem_cons_of_mem _ hw)
      show replace old new (v ++ (t ++ join rest)) =
        (Piece.put old new (.val v)).text ++ (t ++ join (rest.map (Piece.put old new)))
      rcases hvalues v List.mem_cons_self with rfl | hv
      · rw [replace_occurrence hold, replace_append hclear.past_lit, hih]
        simp [Piece.put, Piece.text]
      · have hne : v ≠ old := fun heq => hv (heq ▸ List.infix_rfl)
        rw [replace_append (hclear.past_val hv), replace_append hclear.past_lit, hih]
        simp [Piece.put, hne, Piece.text]
  | case5 v w rest => cases h

/-- A clear replacement keeps a text formatted. -/
theorem formatted_put {needle : Text} (hclear : Clear needle new) {pieces : List Piece}
    (h : formatted needle pieces = true) :
    formatted needle (pieces.map (Piece.put old new)) = true := by
  have hnew : clear needle new = true := clear_iff.mpr hclear
  induction pieces using formatted.induct with
  | case1 => rfl
  | case2 t rest ih =>
      obtain ⟨ht, hrest⟩ := Bool.and_eq_true_iff.mp h
      exact Bool.and_eq_true_iff.mpr ⟨ht, ih hrest⟩
  | case3 v =>
      rw [List.map_singleton, Piece.put]
      split
      · simp [formatted, hnew]
      · rfl
  | case4 v t rest ih =>
      obtain ⟨ht, hrest⟩ := Bool.and_eq_true_iff.mp h
      have hih := ih hrest
      simp only [List.map_cons, Piece.put]
      split
      · simp [formatted, hnew, ht, hih]
      · simp [formatted, ht, hih]
  | case5 v w rest => cases h

end Replace

end Text
