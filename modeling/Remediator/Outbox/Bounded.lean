import Remediator.Outbox.Steps

set_option autoImplicit false

/-! # Bounded delivery

`attempts_count` is counted at the claim and compared with `outbox_max_attempts` in `_fail` only.
A row whose last attempt dies, or outlives its lease, is still `PENDING` and is claimed again.
Delivery is bounded in the runs in which a last attempt comes to its end.
-/

namespace Remediator.Outbox

/-- A row that has had all its attempts and waits for the end of the last one. -/
def exhausted (cfg : Settings) (e : Entry) : Bool :=
  decide (e.row.status = .pending) && decide (cfg.outboxMaxAttempts ≤ e.row.attemptsCount)

/-- No row is claimed after its last attempt, the last attempt does not die, and a row is
re-queued only when no dispatch of it is still to start. -/
def conclusive (cfg : Settings) (s : State) : Act → Bool
  | .claim _ =>
      match nextDue s with
      | none => true
      | some k => (s.rows[k]?).all (fun e => !exhausted cfg e)
  | .die ℓ =>
      match s.dispatchOf ℓ with
      | none => true
      | some d => (s.rows[d.row]?).all (fun e => !exhausted cfg e || decide (d.claim ≠ e.claims))
  | .requeue k =>
      (s.rows[k]?).all (fun e => decide (e.row.status ≠ .failed)) ||
        s.dispatches.all (fun d => decide (d.row ≠ k) || !d.stage.isClaimed)
  | _ => true

/-- A run of the outbox, whatever happens in it. -/
abbrev Run (cfg : Settings) : State → State → Prop :=
  Machine.Reaches (step cfg) (fun _ _ => true)

/-- The row was given up since its last re-queue: a step of the run made it `FAILED` and recorded
everything that its terminal failure means. -/
def GivenUp (cfg : Settings) (s : State) (k : Nat) (e : Entry) : Prop :=
  ∃ (s₁ s₂ : State) (a : Act) (e₁ e₂ : Entry) (error : String),
    Run cfg {} s₁ ∧ step cfg s₁ a = some s₂ ∧ Run cfg s₂ s ∧
      s₁.rows[k]? = some e₁ ∧ e₁.row.status ≠ .failed ∧
      s₂.rows[k]? = some e₂ ∧ e₂.row.status = .failed ∧
      e₂.requeues = e₁.requeues ∧ e.requeues = e₁.requeues ∧ FailureRecorded s₁ s₂ k e₁ error

/-- Delivery of a row: its handler has been started `outbox_max_attempts` times at most, and when
it has been started that often and no dispatch is in progress, the row was sent, or is `FAILED`
and its failure has been recorded. -/
def Bounded (cfg : Settings) (s : State) (k : Nat) (e : Entry) : Prop :=
  e.starts ≤ cfg.outboxMaxAttempts ∧
    (e.starts = cfg.outboxMaxAttempts → (∀ d ∈ s.dispatches, d.row ≠ k) →
      e.row.status = .sent ∨ (e.row.status = .failed ∧ GivenUp cfg s k e))

/-! ## Starts and attempts -/

/-- A dispatch of the row that has not started its handler. -/
def waits (k : Nat) (d : Dispatch) : Bool := decide (d.row = k) && d.stage.isClaimed

/-- How many dispatches of the row have not started their handler. -/
def State.waiting (s : State) (k : Nat) : Nat := s.dispatches.countP (waits k)

/-- The last attempt of an exhausted row is in progress. -/
def LastAttempt (s : State) (k : Nat) (e : Entry) : Prop :=
  ∃ d ∈ s.dispatches, d.row = k ∧ d.claim = e.claims ∧ e.row.claimedBy = some d.loop.worker

structure Counted (cfg : Settings) (s : State) (k : Nat) (e : Entry) : Prop where
  starts : e.starts + s.waiting k ≤ e.row.attemptsCount
  attempts : e.row.attemptsCount ≤ cfg.outboxMaxAttempts
  last : exhausted cfg e = true → LastAttempt s k e

theorem bounded_of_counted {cfg : Settings} {s : State} {k : Nat} {e : Entry}
    (h : Counted cfg s k e) (hgiven : e.row.status = .failed → GivenUp cfg s k e) :
    Bounded cfg s k e := by
  refine ⟨?_, ?_⟩
  · calc e.starts ≤ e.starts + s.waiting k := Nat.le_add_right _ _
      _ ≤ e.row.attemptsCount := h.starts
      _ ≤ cfg.outboxMaxAttempts := h.attempts
  · intro hstarts hidle
    have hlast : cfg.outboxMaxAttempts ≤ e.row.attemptsCount := by
      have := h.starts
      omega
    cases hstatus : e.row.status with
    | pending =>
        obtain ⟨d, hd, hrow, -, -⟩ := h.last (by simp [exhausted, hstatus, hlast])
        exact absurd hrow (hidle d hd)
    | sent => exact .inl rfl
    | failed => exact .inr ⟨rfl, hgiven hstatus⟩

/-- Taking a waiting dispatch out of the list. -/
theorem countP_filter_lt {α : Type} {p q : α → Bool} {l : List α} {x : α} (hx : x ∈ l)
    (hq : q x = true) (hp : p x = false) : (l.filter p).countP q < l.countP q := by
  induction l with
  | nil => cases hx
  | cons y ys ih =>
      have hle : (ys.filter p).countP q ≤ ys.countP q := List.filter_sublist.countP_le
      rcases List.mem_cons.mp hx with rfl | hx
      · rw [List.filter_cons_of_neg (by simp [hp]), List.countP_cons_of_pos hq]
        omega
      · have hlt := ih hx
        by_cases hpy : p y = true <;> by_cases hqy : q y = true <;>
          simp [hpy, hqy] <;> omega

section Waiting

variable {cfg : Settings} {s s' : State} {d : Dispatch} {d' : Option Dispatch} {e e' : Entry}
  {a : Act} {k : Nat}

/-- A dispatch that moved is not waiting any more. -/
theorem Moves.not_waits (h : Moves cfg s.now d e a d' e') : d'.toList.countP (waits k) = 0 := by
  cases h <;> simp [waits, Stage.isClaimed]

theorem waiting_le (hmoves : Moves cfg s.now d e a d' e') (hreplaces : Replaces s d d' s') :
    s'.waiting k ≤ s.waiting k := by
  unfold State.waiting
  rw [hreplaces, List.countP_append, hmoves.not_waits, Nat.zero_add]
  exact List.filter_sublist.countP_le

/-- A dispatch that was waiting has left the count. -/
theorem waiting_lt (hmoves : Moves cfg s.now d e a d' e') (hreplaces : Replaces s d d' s')
    (hd : d ∈ s.dispatches) (hstage : d.stage = .claimed) :
    s'.waiting d.row < s.waiting d.row := by
  unfold State.waiting
  rw [hreplaces, List.countP_append, hmoves.not_waits, Nat.zero_add]
  refine countP_filter_lt hd ?_ (by simp)
  simp [waits, hstage, Stage.isClaimed]

/-- A row that no dispatch refers to. -/
theorem waiting_eq_zero (h : ∀ d ∈ s.dispatches, d.row ≠ k) : s.waiting k = 0 := by
  refine List.countP_eq_zero.mpr ?_
  intro d hd
  simp [waits, h d hd]

end Waiting

/-! ## The steps -/

section Steps

variable {cfg : Settings} {s s' : State} {d : Dispatch} {d' : Option Dispatch} {e e' : Entry}
  {a : Act} {k : Nat}

theorem exhausted_of_fresh {n : Nat} (h : Fresh n e) : exhausted cfg e = false := by
  have hpos := cfg.maxAttempts_pos
  simp [exhausted, h.attempts, Nat.ne_of_gt hpos]

/-- A new row is counted when nobody dispatches it. -/
theorem counted_of_fresh {n : Nat} (h : Fresh n e) (hidle : ∀ d ∈ s.dispatches, d.row ≠ k) :
    Counted cfg s k e where
  starts := by
    exact Nat.le_of_eq (by rw [h.starts, waiting_eq_zero hidle, h.attempts])
  attempts := by
    rw [h.attempts]
    exact Nat.zero_le _
  last := by
    rw [exhausted_of_fresh h]
    exact nofun

/-- The row of a dispatch that takes a step other than its death. -/
theorem counted_self (hwf : WellFormed s) (hc : Counted cfg s d.row e) (hd : d ∈ s.dispatches)
    (he : s.rows[d.row]? = some e) (hmoves : Moves cfg s.now d e a d' e')
    (htouch : Touch s d.row e' s') (hreplaces : Replaces s d d' s')
    (hdie : ∀ ℓ, a = .die ℓ → exhausted cfg e = true → d.claim ≠ e.claims) :
    Counted cfg s' d.row e' where
  starts := by
    have hle := waiting_le (k := d.row) hmoves hreplaces
    have hlt := waiting_lt hmoves hreplaces hd
    have hcount := hc.starts
    rw [hmoves.entry.2.2.2.2]
    cases hmoves with
    | started ℓ hstage howner =>
        have hlt := hlt hstage
        dsimp only
        omega
    | _ => exact Nat.le_trans (Nat.add_le_add_left hle _) hcount
  attempts := by
    rw [hmoves.entry.2.2.2.2]
    exact hc.attempts
  last := by
    intro hex
    -- the last attempt goes on, unless it is the one that moved
    have hother : ∀ x ∈ s.dispatches, x ≠ d → x.row = d.row → x.claim = e.claims →
        e.row.claimedBy = some x.loop.worker → e'.row = e.row → LastAttempt s' d.row e' := by
      intro x hx hne hrow hclaim howner heq
      refine ⟨x, hreplaces.mem.mpr (.inr ⟨hx, fun hl => hne (hwf.loops x hx d hd hl)⟩), hrow, ?_, ?_⟩
      · rw [hclaim, hmoves.entry.1]
      · rw [heq, howner]
    have hex' : e'.row = e.row → exhausted cfg e = true := by
      intro heq
      simpa [exhausted, heq] using hex
    cases hmoves with
    | abandoned ℓ hstage howner =>
        obtain ⟨x, hx, hrow, hclaim, hx'⟩ := hc.last hex
        refine hother x hx ?_ hrow hclaim hx' rfl
        rintro rfl
        exact howner hx'
    | died ℓ =>
        obtain ⟨x, hx, hrow, hclaim, hx'⟩ := hc.last hex
        refine hother x hx ?_ hrow hclaim hx' rfl
        rintro rfl
        exact hdie ℓ rfl hex hclaim
    | sent ℓ skipped loaded locked hstage =>
        obtain ⟨hstatus, howner⟩ := hwf.loaded d hd _ _ hstage
        have hsent : (Row.merge loaded (sentRow s.now skipped loaded) e.row).status = .sent :=
          (merge_sentRow _ _ hstatus howner).1
        simp [exhausted, hsent] at hex
    | settled ℓ jitter error permanent retryAfter hstage =>
        simp only [exhausted, failRow_attemptsCount, Bool.and_eq_true, decide_eq_true_eq] at hex
        rw [failRow_status, terminal, decide_eq_true hex.2, Bool.or_true, if_pos rfl] at hex
        cases hex.1
    | _ =>
        obtain ⟨x, hx, hrow, hclaim, hx'⟩ := hc.last (hex' rfl)
        by_cases hne : x = d
        · subst hne
          exact ⟨_, hreplaces.mem.mpr (.inl rfl), rfl, hclaim, hx'⟩
        · exact hother x hx hne hrow hclaim hx' rfl

/-- Another row. -/
theorem counted_other (hc : Counted cfg s k e)
    (hwaiting : s'.waiting k ≤ s.waiting k)
    (hkeeps : ∀ d ∈ s.dispatches, d.row = k → d ∈ s'.dispatches) : Counted cfg s' k e where
  starts := Nat.le_trans (Nat.add_le_add_left hwaiting _) hc.starts
  attempts := hc.attempts
  last := by
    intro hex
    obtain ⟨d, hd, hrow, hrest⟩ := hc.last hex
    exact ⟨d, hkeeps d hd hrow, hrow, hrest⟩

/-- The row that is claimed: it had an attempt left. -/
theorem counted_claimed {ℓ : Loop} (hc : Counted cfg s k e) (hpending : e.row.status = .pending)
    (hleft : exhausted cfg e = false)
    (hadds : s'.dispatches = ⟨ℓ, k, e.claims + 1, .claimed⟩ :: s.dispatches) :
    Counted cfg s' k
      { e with row := claimRow cfg s.now ℓ.worker e.row, claims := e.claims + 1 } where
  starts := by
    have hwaiting : s'.waiting k = s.waiting k + 1 := by
      simp [State.waiting, hadds, waits, Stage.isClaimed]
    have hcount := hc.starts
    simp only [claimRow]
    omega
  attempts := by
    simp only [exhausted, hpending, decide_true, Bool.true_and, decide_eq_false_iff_not] at hleft
    simp only [claimRow]
    omega
  last := fun _ => ⟨⟨ℓ, k, e.claims + 1, .claimed⟩, by rw [hadds]; exact List.mem_cons_self,
    rfl, rfl, rfl⟩

/-- The row that is re-queued while no dispatch of it waits. -/
theorem counted_requeued (hidle : s'.waiting k = 0) :
    Counted cfg s' k
      { e with row := requeueRow s.now e.row, starts := 0, requeues := e.requeues + 1 } where
  starts := by
    rw [hidle]
    exact Nat.zero_le _
  attempts := Nat.zero_le _
  last := by
    have hpos := cfg.maxAttempts_pos
    intro hex
    simp [exhausted, requeueRow] at hex
    omega

end Steps

theorem counted_step {cfg : Settings} {s s' : State} {a : Act} (hwf : WellFormed s)
    (hc : ∀ (k : Nat) (e : Entry), s.rows[k]? = some e → Counted cfg s k e)
    (hok : conclusive cfg s a = true) (h : step cfg s a = some s') :
    ∀ (k : Nat) (e : Entry), s'.rows[k]? = some e → Counted cfg s' k e := by
  have hwf' := wellFormed_step hwf h
  have hidle : ∀ k, s.rows.length ≤ k → ∀ d ∈ s.dispatches, d.row ≠ k := by
    intro k hk d hd hrow
    obtain ⟨e, he, -⟩ := hwf.refs d hd
    have := (List.getElem?_eq_some_iff.mp he).1
    omega
  intro k f hf
  cases step_effect h with
  | @dispatch _ _ d d' e e' hd ha he hmoves htouch hreplaces hrecords =>
      rcases htouch.cases hf with ⟨rfl, rfl⟩ | ⟨hne, hf⟩ | ⟨hlen, hfresh⟩
      · refine counted_self hwf (hc _ e he) hd he hmoves htouch hreplaces ?_
        rintro ℓ rfl hex
        cases ha
        have hd' : s.dispatchOf d.loop = some d := dispatchOf_of_mem hwf hd
        simpa [conclusive, hd', he, hex] using hok
      · refine counted_other (hc k f hf) (waiting_le hmoves hreplaces) ?_
        intro x hx hrow
        refine hreplaces.mem.mpr (.inr ⟨hx, fun hl => ?_⟩)
        rw [hwf.loops x hx d hd hl] at hrow
        exact hne hrow.symm
      · refine counted_of_fresh hfresh ?_
        intro x hx
        rcases hreplaces.cases hx with hx | ⟨hx, -⟩
        · rw [(hmoves.identity hx).2.1]
          exact hidle k hlen d hd
        · exact hidle k hlen x hx
  | @claim ℓ _ j e hfree hdue he hpending htouch hadds =>
      have hadded : ∀ x ∈ s.dispatches, x ∈ s'.dispatches := by
        intro x hx
        rw [hadds]
        exact List.mem_cons_of_mem _ hx
      rcases htouch.cases hf with ⟨rfl, rfl⟩ | ⟨hne, hf⟩ | ⟨hlen, hfresh⟩
      · have hleft : exhausted cfg e = false := by simpa [conclusive, hdue, he] using hok
        exact counted_claimed (hc _ e he) hpending hleft hadds
      · refine counted_other (hc k f hf) ?_ (fun x hx _ => hadded x hx)
        simp [State.waiting, hadds, waits, hne.symm]
      · refine counted_of_fresh hfresh ?_
        intro x hx
        rw [hadds] at hx
        rcases List.mem_cons.mp hx with rfl | hx
        · have hlt := (List.getElem?_eq_some_iff.mp he).1
          dsimp only
          omega
        · exact hidle k hlen x hx
  | @requeue j _ e he hfailed htouch hmem =>
      rcases htouch.cases hf with ⟨rfl, rfl⟩ | ⟨hne, hf⟩ | ⟨hlen, hfresh⟩
      · refine counted_requeued ?_
        simp only [conclusive, he, Option.all_some, hfailed, ne_eq, not_true_eq_false,
          decide_false, Bool.false_or, List.all_eq_true] at hok
        refine List.countP_eq_zero.mpr ?_
        intro x hx
        rw [hmem] at hx
        have hx' : x.row ≠ k ∨ x.stage.isClaimed = false := by simpa using hok x hx
        rcases hx' with hx' | hx' <;> simp [waits, hx']
      · refine counted_other (hc k f hf) ?_ ?_
        · simp [State.waiting, hmem]
        · rw [hmem]
          exact fun x hx _ => hx
      · refine counted_of_fresh hfresh ?_
        rw [hmem]
        exact hidle k hlen
  | grows _ hgrows =>
      rcases hgrows.news k f hf with hf | ⟨hlen, hfresh⟩
      · refine counted_other (hc k f hf) ?_ ?_
        · simp [State.waiting, hgrows.dispatches]
        · rw [hgrows.dispatches]
          exact fun x hx _ => hx
      · refine counted_of_fresh hfresh ?_
        rw [hgrows.dispatches]
        exact hidle k hlen

/-! ## Runs -/

theorem counted_of_reaches {cfg : Settings} {s : State}
    (h : Machine.Reaches (step cfg) (conclusive cfg) {} s) :
    WellFormed s ∧ ∀ (k : Nat) (e : Entry), s.rows[k]? = some e → Counted cfg s k e := by
  refine h.inv (P := fun s => WellFormed s ∧
    ∀ (k : Nat) (e : Entry), s.rows[k]? = some e → Counted cfg s k e) ?_ ?_
  · exact ⟨wellFormed_init, by simp⟩
  · intro s a s' hs hok hstep
    exact ⟨wellFormed_step hs.1 hstep, counted_step hs.1 hs.2 hok hstep⟩

/-- An entry that went on as it was, or that was `FAILED` and still is. -/
theorem GivenUp.next {cfg : Settings} {s s' : State} {a : Act} {k : Nat} {e e' : Entry}
    (h : GivenUp cfg s k e) (hstep : step cfg s a = some s') (hrequeues : e'.requeues = e.requeues) :
    GivenUp cfg s' k e' := by
  obtain ⟨s₁, s₂, b, e₁, e₂, error, hrun, hb, hafter, h₁, hopen, h₂, hfailed, hsame, hround, hrec⟩ := h
  exact ⟨s₁, s₂, b, e₁, e₂, error, hrun, hb, hafter.next a rfl hstep, h₁, hopen, h₂, hfailed, hsame,
    hrequeues.trans hround, hrec⟩

/-- What a step does to an entry that is `FAILED` afterwards: it was `FAILED` before, or its
failure is recorded in this step. -/
theorem failed_step {cfg : Settings} {s s' : State} {a : Act} (h : step cfg s a = some s') {k : Nat}
    {e' : Entry} (he' : s'.rows[k]? = some e') (hfailed : e'.row.status = .failed) :
    ∃ e, s.rows[k]? = some e ∧ e'.requeues = e.requeues ∧
      (e.row.status = .failed ∨ ∃ error, FailureRecorded s s' k e error) := by
  cases step_effect h with
  | @dispatch _ _ d d' e f hd ha he hmoves htouch hreplaces hrecords =>
      rcases htouch.cases he' with ⟨rfl, rfl⟩ | ⟨-, hsame⟩ | ⟨-, hfresh⟩
      · exact ⟨e, he, hmoves.entry.2.1, hrecords hfailed⟩
      · exact ⟨e', hsame, rfl, .inl hfailed⟩
      · cases hfresh.status.symm.trans hfailed
  | @claim ℓ _ j e hfree hdue he hpending htouch hadds =>
      rcases htouch.cases he' with ⟨rfl, rfl⟩ | ⟨-, hsame⟩ | ⟨-, hfresh⟩
      · cases hpending.symm.trans hfailed
      · exact ⟨e', hsame, rfl, .inl hfailed⟩
      · cases hfresh.status.symm.trans hfailed
  | @requeue j _ e he hwas htouch hmem =>
      rcases htouch.cases he' with ⟨rfl, rfl⟩ | ⟨-, hsame⟩ | ⟨-, hfresh⟩
      · cases hfailed
      · exact ⟨e', hsame, rfl, .inl hfailed⟩
      · cases hfresh.status.symm.trans hfailed
  | grows _ hgrows =>
      rcases hgrows.news k e' he' with hsame | ⟨-, hfresh⟩
      · exact ⟨e', hsame, rfl, .inl hfailed⟩
      · cases hfresh.status.symm.trans hfailed

/-- **A row that is `FAILED` was given up with everything recorded**, in every run. -/
theorem givenUp_of_run {cfg : Settings} {s : State} (h : Run cfg {} s) :
    ∀ (k : Nat) (e : Entry), s.rows[k]? = some e → e.row.status = .failed → GivenUp cfg s k e := by
  induction h with
  | init => exact fun k e he => nomatch he
  | @next s s' a hrun _ hstep ih =>
      intro k e' he' hfailed
      obtain ⟨e, he, hrequeues, hwas | ⟨error, hrec⟩⟩ := failed_step hstep he' hfailed
      · exact (ih k e he hwas).next hstep hrequeues
      · by_cases hopen : e.row.status = .failed
        · exact (ih k e he hopen).next hstep hrequeues
        · exact ⟨s, s', a, e, e', error, hrun, hstep, .init, he, hopen, he', hfailed, hrequeues,
            hrequeues, hrec⟩

/-- **Outbox delivery is bounded** in every run in which last attempts come to their end. -/
theorem bounded_of_conclusive (cfg : Settings) (s : State)
    (hs : Machine.Reaches (step cfg) (conclusive cfg) {} s) (k : Nat) (e : Entry)
    (he : s.rows[k]? = some e) : Bounded cfg s k e :=
  bounded_of_counted ((counted_of_reaches hs).2 k e he) (givenUp_of_run hs.weaken k e he)

theorem bounded_of_conclusive_demo :
    ∃ s e, Machine.Reaches (step defaultSettings) (conclusive defaultSettings) {} s ∧
      s.rows[0]? = some e ∧ Bounded defaultSettings s 0 e := by
  obtain ⟨s, hs, hview⟩ := Machine.exists_of_runAll (step defaultSettings)
    (conclusive defaultSettings) {}
    [.other [⟨0, .pending, .pending, none, none⟩] [.awaitingRemediationApproval],
      .create .githubApplyLabel (some 0), .claim ⟨1, 0⟩, .start ⟨1, 0⟩, .die ⟨1, 0⟩, .tick 121,
      .claim ⟨2, 0⟩, .start ⟨2, 0⟩, .fail ⟨2, 0⟩ "issue is closed" true none, .settle ⟨2, 0⟩ 0]
    (fun s => s.rows.map (·.row.status)) [.failed] (by decide)
  obtain ⟨e, hrows, -⟩ := List.map_eq_singleton_iff.mp hview
  have he : s.rows[0]? = some e := by
    rw [hrows]
    rfl
  exact ⟨s, e, hs, he, bounded_of_conclusive defaultSettings s hs 0 e he⟩

/-- A row whose dispatcher dies in the handler each time is handled a sixth time. -/
theorem handler_started_again :
    ¬ ∀ s, Machine.Reaches (step defaultSettings) (fun _ _ => true) {} s →
      ∀ (k : Nat) (e : Entry), s.rows[k]? = some e → Bounded defaultSettings s k e := by
  intro hall
  obtain ⟨s, hs, hview⟩ := Machine.exists_of_runAll (step defaultSettings) (fun _ _ => true) {}
    (.create .githubNotFeasible none :: (List.range 6).flatMap (fun n =>
      [.claim ⟨n, 0⟩, .start ⟨n, 0⟩, .die ⟨n, 0⟩, .tick 121]))
    (fun s => s.rows.map (·.starts)) [6] (by decide)
  obtain ⟨e, hrows, hstarts⟩ := List.map_eq_singleton_iff.mp hview
  have hbound : e.starts ≤ 5 := (hall s hs 0 e (by rw [hrows]; rfl)).1
  omega

end Remediator.Outbox
