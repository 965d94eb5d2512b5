import Remediator.Outbox.Steps

set_option autoImplicit false

/-! # Fencing of outbox rows

`_fail` re-reads its row without looking at who claimed it, and a handler that has committed in
the middle holds no lock. A dispatch whose lease lapsed may therefore write to a row that another
one has claimed and sent. Rows are fenced as long as no row is claimed while an earlier dispatch
of it can still write.
-/

namespace Remediator.Outbox

/-- A row is claimed only if every dispatch of it in progress will find itself disowned when it
loads the row: it has not loaded it yet, and it runs in another process. -/
def exclusive (s : State) : Act → Bool
  | .claim ℓ =>
      match nextDue s with
      | none => true
      | some k => s.dispatches.all (fun d =>
          decide (d.row ≠ k) || (d.stage.isClaimed && decide (d.loop.worker ≠ ℓ.worker)))
  | _ => true

/-- What a step may do to the rows: a `SENT` row stays as it is, and a dispatch writes only to
the row whose latest claim it holds. -/
def FencedStep (s : State) (a : Act) (s' : State) : Prop :=
  ∀ (k : Nat) (e : Entry), s.rows[k]? = some e →
    (e.row.status = .sent → (s'.rows[k]?).map (·.row) = some e.row) ∧
    (∀ ℓ, a.loop = some ℓ → (s'.rows[k]?).map (·.row) ≠ some e.row →
      ∃ d ∈ s.dispatches, d.loop = ℓ ∧ d.row = k ∧ d.claim = e.claims)

/-! ## Who holds a row -/

/-- The dispatch has the latest claim of its row, which is `PENDING` and its own. -/
def Holds (d : Dispatch) (e : Entry) : Prop :=
  d.claim = e.claims ∧ e.row.status = .pending ∧ e.row.claimedBy = some d.loop.worker

/-- The dispatch will return as soon as it has loaded its row. -/
def Disowned (d : Dispatch) (e : Entry) : Prop :=
  d.stage.isClaimed = true ∧ e.row.claimedBy ≠ some d.loop.worker

/-- Every dispatch in progress holds its row or has been disowned. -/
def Fenced (s : State) : Prop :=
  ∀ d ∈ s.dispatches, ∀ e, s.rows[d.row]? = some e → Holds d e ∨ Disowned d e

section Holding

variable {cfg : Settings} {now : Nat} {d x : Dispatch} {d' : Option Dispatch} {e e' : Entry} {a : Act}

theorem holds_of_not_claimed (h : Holds d e ∨ Disowned d e) (hstage : d.stage.isClaimed = false) :
    Holds d e := by
  rcases h with h | ⟨hclaimed, -⟩
  · exact h
  · rw [hstage] at hclaimed
    cases hclaimed

/-- A dispatch that goes on holds its row. -/
theorem Moves.holds (h : Moves cfg now d e a d' e') (hd : Holds d e ∨ Disowned d e)
    (hx : d' = some x) : Holds x e' := by
  cases h with
  | started ℓ hstage howner =>
      cases hx
      rcases hd with ⟨hclaim, hpending, -⟩ | ⟨-, hne⟩
      · exact ⟨hclaim, hpending, howner⟩
      · exact absurd howner hne
  | committed ℓ loaded locked hstage =>
      cases hx
      have hholds : Holds d e := holds_of_not_claimed hd (by rw [hstage]; rfl)
      exact ⟨hholds.1, hholds.2.1, hholds.2.2⟩
  | failed ℓ error permanent retryAfter loaded locked hstage =>
      cases hx
      have hholds : Holds d e := holds_of_not_claimed hd (by rw [hstage]; rfl)
      exact ⟨hholds.1, hholds.2.1, hholds.2.2⟩
  | _ => cases hx

/-- A dispatch that writes to its row holds it, and it releases the row. -/
theorem Moves.row_cases (h : Moves cfg now d e a d' e') (hd : Holds d e ∨ Disowned d e)
    (hloaded : d.Loaded) :
    e'.row = e.row ∨ (Holds d e ∧ e'.row.claimedBy = none) := by
  cases h with
  | sent ℓ skipped loaded locked hstage =>
      obtain ⟨hstatus, howner⟩ := hloaded _ _ hstage
      exact .inr ⟨holds_of_not_claimed hd (by rw [hstage]; rfl),
        (merge_sentRow _ _ hstatus howner).2.1⟩
  | settled ℓ jitter error permanent retryAfter hstage =>
      exact .inr ⟨holds_of_not_claimed hd (by rw [hstage]; rfl), failRow_claimedBy ..⟩
  | _ => exact .inl rfl

/-- What becomes of another dispatch of the row. -/
theorem Moves.others (h : Moves cfg now d e a d' e') (hd : Holds d e ∨ Disowned d e)
    (hloaded : d.Loaded) (hx : Holds x e ∨ Disowned x e) (hne : x.claim ≠ d.claim) :
    Holds x e' ∨ Disowned x e' := by
  rcases h.row_cases hd hloaded with hrow | ⟨hholds, hreleased⟩
  · rcases hx with ⟨hclaim, hpending, howner⟩ | ⟨hstage, howner⟩
    · exact .inl ⟨hclaim.trans h.entry.1.symm, hrow ▸ hpending, hrow ▸ howner⟩
    · exact .inr ⟨hstage, hrow ▸ howner⟩
  · rcases hx with ⟨hclaim, -, -⟩ | ⟨hstage, -⟩
    · exact absurd (hclaim.trans hholds.1.symm) hne
    · refine .inr ⟨hstage, ?_⟩
      rw [hreleased]
      exact nofun

end Holding

/-! ## The steps -/

/-- A row that a dispatch refers to is not new. -/
theorem WellFormed.ref_not_new {s s' : State} {x : Dispatch} {k : Nat} {e e' : Entry}
    (hwf : WellFormed s) (hx : x ∈ s.dispatches) (htouch : Touch s k e' s')
    (he : s'.rows[x.row]? = some e) :
    (x.row = k ∧ e = e') ∨ (x.row ≠ k ∧ s.rows[x.row]? = some e) := by
  rcases htouch.cases he with h | h | ⟨hlen, -⟩
  · exact .inl h
  · exact .inr h
  · obtain ⟨f, hf, -⟩ := hwf.refs x hx
    exact absurd (List.getElem?_eq_some_iff.mp hf).1 (Nat.not_lt_of_le hlen)

theorem fenced_dispatch {cfg : Settings} {s s' : State} {d : Dispatch} {d' : Option Dispatch}
    {e e' : Entry} {a : Act} (hwf : WellFormed s) (hfen : Fenced s) (hd : d ∈ s.dispatches)
    (he : s.rows[d.row]? = some e) (hmoves : Moves cfg s.now d e a d' e')
    (htouch : Touch s d.row e' s') (hreplaces : Replaces s d d' s') : Fenced s' := by
  intro x hx f hf
  have hdrow := hfen d hd e he
  rcases hreplaces.cases hx with hx | ⟨hx, hne⟩
  · have hrow := (hmoves.identity hx).2.1
    rw [hrow, htouch.self he] at hf
    cases hf
    exact .inl (hmoves.holds hdrow hx)
  · rcases hwf.ref_not_new hx htouch hf with ⟨hrow, rfl⟩ | ⟨-, hf⟩
    · have hxrow : s.rows[x.row]? = some e := by rw [hrow, he]
      have hclaim : x.claim ≠ d.claim := fun heq => hne (hwf.claims x hx d hd hrow heq)
      exact hmoves.others hdrow (hwf.loaded d hd) (hfen x hx e hxrow) hclaim
    · exact hfen x hx f hf

theorem fenced_claim {cfg : Settings} {s s' : State} {ℓ : Loop} {k : Nat} {e : Entry}
    (hwf : WellFormed s) (hfen : Fenced s) (hok : exclusive s (.claim ℓ) = true)
    (hdue : nextDue s = some k) (he : s.rows[k]? = some e) (hpending : e.row.status = .pending)
    (htouch : Touch s k
      { e with row := claimRow cfg s.now ℓ.worker e.row, claims := e.claims + 1 } s')
    (hadds : s'.dispatches = ⟨ℓ, k, e.claims + 1, .claimed⟩ :: s.dispatches) :
    Fenced s' := by
  intro x hx f hf
  rw [hadds] at hx
  rcases List.mem_cons.mp hx with rfl | hx
  · rw [htouch.self he] at hf
    cases hf
    exact .inl ⟨rfl, hpending, rfl⟩
  · rcases hwf.ref_not_new hx htouch hf with ⟨hrow, rfl⟩ | ⟨-, hf⟩
    · -- the earlier dispatches of the row are those that the condition lets pass
      simp only [exclusive, hdue, List.all_eq_true] at hok
      have hx' := hok x hx
      simp only [hrow, ne_eq, not_true_eq_false, decide_false, Bool.false_or, Bool.and_eq_true,
        decide_eq_true_eq] at hx'
      exact .inr ⟨hx'.1, fun heq => hx'.2 (Option.some.inj heq).symm⟩
    · exact hfen x hx f hf

theorem fenced_requeue {s s' : State} {k : Nat} {e : Entry} (hwf : WellFormed s)
    (hfen : Fenced s) (he : s.rows[k]? = some e) (hfailed : e.row.status = .failed)
    (htouch : Touch s k
      { e with row := requeueRow s.now e.row, starts := 0, requeues := e.requeues + 1 } s')
    (hmem : s'.dispatches = s.dispatches) : Fenced s' := by
  intro x hx f hf
  rw [hmem] at hx
  rcases hwf.ref_not_new hx htouch hf with ⟨hrow, rfl⟩ | ⟨-, hf⟩
  · rcases hfen x hx e (by rw [hrow, he]) with ⟨-, hpending, -⟩ | ⟨hstage, -⟩
    · rw [hfailed] at hpending
      cases hpending
    · exact .inr ⟨hstage, nofun⟩
  · exact hfen x hx f hf

theorem fenced_step {cfg : Settings} {s s' : State} {a : Act} (hwf : WellFormed s)
    (hfen : Fenced s) (hok : exclusive s a = true) (h : step cfg s a = some s') : Fenced s' := by
  cases step_effect h with
  | dispatch hd _ he hmoves htouch hreplaces _ =>
      exact fenced_dispatch hwf hfen hd he hmoves htouch hreplaces
  | claim _ hdue he hpending htouch hadds =>
      exact fenced_claim hwf hfen hok hdue he hpending htouch hadds
  | requeue he hfailed htouch hmem => exact fenced_requeue hwf hfen he hfailed htouch hmem
  | grows _ hgrows =>
      intro x hx f hf
      rw [hgrows.dispatches] at hx
      obtain ⟨g, hg, -⟩ := hwf.refs x hx
      have hfg : f = g := Option.some.inj (hf.symm.trans (hgrows.keeps _ _ hg))
      exact hfen x hx f (hfg ▸ hg)

/-- In a fenced state every step is fenced, whatever the step is. -/
theorem fencedStep_of_fenced {cfg : Settings} {s s' : State} {a : Act} (hwf : WellFormed s)
    (hfen : Fenced s) (h : step cfg s a = some s') : FencedStep s a s' := by
  intro k f hf
  cases step_effect h with
  | @dispatch _ _ d d' e e' hd ha he hmoves htouch hreplaces _ =>
      by_cases hk : k = d.row
      · subst hk
        rw [he] at hf
        cases hf
        rw [htouch.self he]
        rcases hmoves.row_cases (hfen d hd _ he) (hwf.loaded d hd) with hrow | ⟨hholds, -⟩
        · exact ⟨fun _ => congrArg some hrow, fun _ _ hne => absurd (congrArg some hrow) hne⟩
        · refine ⟨?_, ?_⟩
          · intro hsent
            have hpending := hholds.2.1
            rw [hsent] at hpending
            cases hpending
          · intro ℓ hℓ _
            exact ⟨d, hd, Option.some.inj (ha.symm.trans hℓ), rfl, hholds.1⟩
      · rw [htouch.other hf hk]
        exact ⟨fun _ => rfl, fun _ _ hne => absurd rfl hne⟩
  | @claim ℓ _ j e hfree hdue he hpending htouch hmem =>
      refine ⟨?_, nofun⟩
      intro hsent
      have hk : k ≠ j := by
        rintro rfl
        rw [he] at hf
        cases hf
        rw [hsent] at hpending
        cases hpending
      rw [htouch.other hf hk]
      rfl
  | @requeue j _ e he hfailed htouch hmem =>
      refine ⟨?_, nofun⟩
      intro hsent
      have hk : k ≠ j := by
        rintro rfl
        rw [he] at hf
        cases hf
        rw [hsent] at hfailed
        cases hfailed
      rw [htouch.other hf hk]
      rfl
  | grows ha hgrows =>
      rw [hgrows.keeps _ _ hf]
      exact ⟨fun _ => rfl, fun _ _ hne => absurd rfl hne⟩

/-! ## Runs -/

theorem fenced_of_reaches {cfg : Settings} {s : State}
    (h : Machine.Reaches (step cfg) exclusive {} s) : WellFormed s ∧ Fenced s := by
  refine h.inv (P := fun s => WellFormed s ∧ Fenced s) ?_ ?_
  · exact ⟨wellFormed_init, by simp [Fenced]⟩
  · intro s a s' hs hok hstep
    exact ⟨wellFormed_step hs.1 hstep, fenced_step hs.1 hs.2 hok hstep⟩

/-- **Outbox rows are fenced and final** in every run in which no row is claimed while an earlier
dispatch of it can still write. -/
theorem fencedStep_of_exclusive (cfg : Settings) (s s' : State) (a : Act)
    (hs : Machine.Reaches (step cfg) exclusive {} s) (h : step cfg s a = some s') :
    FencedStep s a s' :=
  fencedStep_of_fenced (fenced_of_reaches hs).1 (fenced_of_reaches hs).2 h

theorem fencedStep_of_exclusive_demo :
    ∃ s s', Machine.Reaches (step defaultSettings) exclusive {} s ∧
      step defaultSettings s (.succeed ⟨1, 0⟩ none) = some s' ∧
      FencedStep s (.succeed ⟨1, 0⟩ none) s' := by
  obtain ⟨s, hs, hview⟩ := Machine.exists_of_runAll (step defaultSettings) exclusive {}
    [.other [⟨0, .pending, .pending, none, none⟩] [.awaitingRemediationApproval],
      .create .githubApplyLabel (some 0), .claim ⟨1, 0⟩, .start ⟨1, 0⟩, .commit ⟨1, 0⟩]
    (fun s => (step defaultSettings s (.succeed ⟨1, 0⟩ none)).isSome) true (by decide)
  obtain ⟨s', hs'⟩ := Option.isSome_iff_exists.mp hview
  exact ⟨s, s', hs, hs', fencedStep_of_exclusive defaultSettings s s' _ hs hs'⟩

/-- The label handler of one process commits and then waits for GitHub until its lease has
lapsed; another process claims the row and sends it; then the first handler is refused, and the
row is `FAILED`. -/
theorem sent_row_rewritten :
    ¬ ∀ s s' a, Machine.Reaches (step defaultSettings) (fun _ _ => true) {} s →
      step defaultSettings s a = some s' → FencedStep s a s' := by
  intro hall
  obtain ⟨s, hs, hview⟩ := Machine.exists_of_runAll (step defaultSettings) (fun _ _ => true) {}
    [.other [⟨0, .pending, .pending, none, none⟩] [.awaitingRemediationApproval],
      .create .githubApplyLabel (some 0), .claim ⟨1, 0⟩, .start ⟨1, 0⟩, .commit ⟨1, 0⟩,
      .tick 121, .claim ⟨2, 0⟩, .start ⟨2, 0⟩, .commit ⟨2, 0⟩, .succeed ⟨2, 0⟩ none,
      .fail ⟨1, 0⟩ "GitHub answered 403" true none]
    (fun s => (s.rows.map (·.row.status), (step defaultSettings s (.settle ⟨1, 0⟩ 0)).map
      (fun s' => s'.rows.map (·.row.status))))
    ([.sent], some [.failed]) (by decide)
  obtain ⟨hsent, hfailed⟩ := Prod.mk.inj hview
  obtain ⟨s', hs', hrows'⟩ := Option.map_eq_some_iff.mp hfailed
  obtain ⟨e, hrows, hstatus⟩ := List.map_eq_singleton_iff.mp hsent
  obtain ⟨e', hrows', hstatus'⟩ := List.map_eq_singleton_iff.mp hrows'
  have hfinal := (hall s s' _ hs hs' 0 e (by rw [hrows]; rfl)).1 hstatus
  rw [hrows'] at hfinal
  have hrow : e'.row = e.row := Option.some.inj hfinal
  rw [hrow, hstatus] at hstatus'
  cases hstatus'

end Remediator.Outbox
