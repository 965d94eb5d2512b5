import Remediator.Rounds.CalmStages

set_option autoImplicit false

/-! # Who holds the queue

`older_waiting` counts the cases whose waiting columns say that they are parked on a limit. The
columns are assigned by the code that asks for a slot and by nothing else; a transition leaves them
as they are. So they are right only as long as a parked case is left to the worker that takes it up
next: it asks for the slot again before it moves the case, and `clear_waiting` comes first.
-/

namespace Remediator

open Interleave Capacity

/-! ## Counted cases -/

/-- `older_waiting` counts the case for the limit of `kind`. -/
def Case.parkedOn (kind : LeaseKind) (c : Case) : Bool :=
  (match c.waiting.waitingFor with
    | some text => (kind.value ++ " (").toList.isPrefixOf text.toList
    | none => false) && c.waiting.waitingSince.isSome && !c.state.terminal

/-- The case is a competitor for every slot it is counted for: processing its state asks for the
slot, and it has waited only since it entered that state. -/
def Competes (s : Store) : Prop :=
  ∀ kind, s.case.parkedOn kind = true → s.case.state.asksFor kind = true ∧
    ∀ since, s.case.waiting.waitingSince = some since → s.case.stateEnteredAt ≤ since

/-- The label of a refusal starts with the name of its kind. -/
theorem label_kind {kind : LeaseKind} {d : Denied}
    (h : (kind.value ++ " (").toList.isPrefixOf d.label.toList = true) : d.kind = kind := by
  unfold Denied.label at h
  generalize (if d.scope = "" then "" else ":" ++ d.scope) = scope at h
  cases hd : d.kind <;> cases kind <;>
    first | rfl | (rw [hd] at h; simp [LeaseKind.value, List.isPrefixOf] at h)

/-- The incidents that leave the waiting columns stale. -/
def waitingIncidents : List Incident := [.movedWaiting, .writtenWaiting, .parkedAway, .crowded]

/-- No such incident has happened. -/
def Store.orderly (s : Store) : Prop := ¬ s.hit waitingIncidents

/-! ## Parked cases -/

/-- A parked case waits for a slot that its state asks for, and no attempt of it is under way. -/
structure Parked (s : Store) : Prop where
  created : s.case.created = true
  label : ∃ d : Denied, s.case.waiting.waitingFor = some d.label ∧
    s.case.state.asksFor d.kind = true
  since : ∀ n, s.case.waiting.waitingSince = some n → s.case.stateEnteredAt ≤ n
  idle : ∀ a ∈ s.core.attempts, a.status.active = false
  still : s.case.state.underWay = false

/-- What the waiting columns stand for while no incident has made them stale. -/
structure Queued (s : Store) : Prop where
  entered : s.case.stateEnteredAt ≤ s.now
  parked : s.case.waiting ≠ {} → Parked s

theorem Queued.competes {s : Store} (h : Queued s) : Competes s := by
  intro kind hp
  simp only [Case.parkedOn, Bool.and_eq_true] at hp
  obtain ⟨⟨hfor, -⟩, -⟩ := hp
  have hwaits : s.case.waiting ≠ {} := by
    intro hempty
    simp [hempty] at hfor
  have hparked := h.parked hwaits
  obtain ⟨d, hlabel, hasks⟩ := hparked.label
  rw [hlabel] at hfor
  rw [← label_kind hfor]
  exact ⟨hasks, hparked.since⟩

/-- The states that a case can be parked in. -/
def CaseState.waits (st : CaseState) : Bool :=
  !st.underWay && (st.asksFor .triage || st.asksFor .remediation || st.asksFor .probe)

theorem waits_of_asksFor {st : CaseState} {kind : LeaseKind} (h : st.asksFor kind = true)
    (hstill : st.underWay = false) : st.waits = true := by
  cases st <;> cases kind <;> first | rfl | (cases h; done) | exact absurd hstill (by decide)

theorem Parked.waits {s : Store} (h : Parked s) : s.case.state.waits = true := by
  obtain ⟨d, -, hasks⟩ := h.label
  exact waits_of_asksFor hasks h.still

/-! ## The contract -/

/-- A transaction that asks for a slot and does nothing else; the job works on the case with an
up-to-date copy of the columns, and in a state that asks for the slot. -/
structure Txn.Asks (o : Owner) (call : WaitingCall) (t : Txn) (s : Store) : Prop where
  moves : t.moves = []
  writes : t.writes = []
  insert : t.insert = none
  starts : t.starts = false
  works : s.orderly → s.case.created = true ∧ s.history.atWork = some o ∧
    s.copies o = s.case.waiting
  parks : ∀ d, call = .mark d → ∃ st : CaseState, t.parksIn = some st ∧
    (st.asksFor d.kind = true ∨ st.underWay = true)

/-- What a thread `o` sees to when it commits `t` under the name `o'`: in an orderly run a case is
moved only when it is not parked. -/
structure Txn.Queues (o o' : Owner) (t : Txn) (s : Store) : Prop where
  moves : ((Op.commit o' t).apply s).orderly → t.moves ≠ [] → s.case.waiting = {}
  asks : ∀ call, t.waiting = some call → o' = o ∧ t.Asks o call s
  starts : t.starts = true → o' = o

/-- The columns tell the truth in orderly runs. -/
def queueContract : Contract Store Op where
  inv s := s.orderly → Queued s
  allowed o s
    | .commit o' t => t.Queues o o' s
    | .leave _ => False
    | _ => True

/-- The operation neither asks for a slot nor takes up the case nor ends a job. -/
def Op.aside : Op → Bool
  | .commit _ t => t.waiting.isNone && !t.starts
  | .leave _ => false
  | _ => true

theorem orderly_of_apply {op : Op} {s : Store} (h : (op.apply s).orderly) : s.orderly :=
  (not_hit_apply h).1

theorem orderly_incident {op : Op} {s : Store} (h : (op.apply s).orderly) {k : Incident}
    (hk : k ∈ waitingIncidents) : op.incident s k = false :=
  (not_hit_apply h).2 k hk

section Aside

variable {op : Op} {s : Store}

theorem aside_waiting (h : op.aside = true) : (op.apply s).case.waiting = s.case.waiting := by
  cases op with
  | commit o t =>
      simp only [Op.aside, Bool.and_eq_true, Option.isNone_iff_eq_none] at h
      rw [commit_case]
      unfold Txn.applyCase
      rw [h.1]
  | heartbeat o n =>
      show (if s.case.claimedBy = some o then _ else s.case : Case).waiting = _
      split
      · rfl
      · rfl
  | leave o => cases h
  | _ => rfl

theorem aside_copies (h : op.aside = true) : (op.apply s).copies = s.copies := by
  cases op with
  | commit o t =>
      simp only [Op.aside, Bool.and_eq_true, Option.isNone_iff_eq_none, Bool.not_eq_true'] at h
      funext o'
      show (t.apply o s).copies o' = s.copies o'
      unfold Txn.apply
      by_cases ho : o' = o
      · simp [ho, h]
      · simp [ho]
  | leave o => cases h
  | _ => rfl

theorem aside_atWork (h : op.aside = true) :
    (op.apply s).history.atWork = s.history.atWork := by
  cases op with
  | commit o t =>
      simp only [Op.aside, Bool.and_eq_true, Bool.not_eq_true'] at h
      show (if t.starts then some o else s.history.atWork) = s.history.atWork
      rw [h.2]
      rfl
  | leave o => cases h
  | _ => rfl

end Aside

/-- A case that has been created stays. -/
theorem created_apply (op : Op) {s : Store} (h : s.case.created = true) :
    (op.apply s).case.created = true := by
  cases op with
  | commit o t =>
      rw [commit_case]
      unfold Txn.applyCase
      simp [h]
  | heartbeat o n =>
      show (if s.case.claimedBy = some o then _ else s.case : Case).created = true
      split
      · exact h
      · exact h
  | _ => exact h

/-! ## The invariant -/

section Commit

variable {o o' : Owner} {t : Txn} {s : Store}

/-- The attempts that are there after a commit that writes none of them. -/
theorem unwritten_attempts (hwrites : t.writes = []) (hinsert : t.insert = none) :
    ((Op.commit o' t).apply s).core.attempts = s.core.attempts := by
  rw [commit_core]
  unfold Txn.applyCore Txn.attempts
  simp [hwrites, hinsert]

/-- A commit that leaves a parked case parked. -/
theorem Parked.kept (h : Parked s) (hmoves : t.moves = []) (hwrites : t.writes = [])
    (hinsert : t.insert = none) (hwaiting : t.waiting = none) :
    Parked ((Op.commit o' t).apply s) := by
  have hcase : ((Op.commit o' t).apply s).case.waiting = s.case.waiting ∧
      ((Op.commit o' t).apply s).case.state = s.case.state ∧
      ((Op.commit o' t).apply s).case.stateEnteredAt = s.case.stateEnteredAt := by
    rw [commit_case]
    unfold Txn.applyCase
    simp [hmoves, hwaiting, movesEnd]
  obtain ⟨hwait, hstate, hent⟩ := hcase
  refine ⟨created_apply _ h.created, ?_, ?_, ?_, ?_⟩
  · rw [hwait, hstate]
    exact h.label
  · rw [hwait, hent]
    exact h.since
  · rw [unwritten_attempts hwrites hinsert]
    exact h.idle
  · rw [hstate]
    exact h.still

theorem unmoved (o' : Owner) {t : Txn} (s : Store) (h : t.moves = []) :
    ((Op.commit o' t).apply s).case.stateEnteredAt = s.case.stateEnteredAt ∧
      ((Op.commit o' t).apply s).case.state = s.case.state := by
  rw [commit_case]
  unfold Txn.applyCase
  simp [h, movesEnd]

/-- A refusal parks the case in a state that asks for the slot. -/
theorem Queued.mark {d : Denied} (h : Queued s) (hq : t.Queues o o' s)
    (hclean : ((Op.commit o' t).apply s).orderly) (hw : t.waiting = some (.mark d)) :
    Parked ((Op.commit o' t).apply s) := by
  obtain ⟨rfl, hasking⟩ := hq.asks _ hw
  obtain ⟨hcreated, -, hcopy⟩ := hasking.works (orderly_of_apply hclean)
  obtain ⟨st, hst, hasks⟩ := hasking.parks d rfl
  -- the copy of the state is the state, no attempt is active, and none is under way
  have haway := orderly_incident hclean (k := .parkedAway) (by decide)
  simp only [Op.incident, Txn.incident, hw, hst, Bool.or_eq_false_iff, decide_eq_false_iff_not,
    not_not, Option.some.injEq, List.any_eq_false, Bool.not_eq_true] at haway
  obtain ⟨⟨rfl, hstill⟩, hidle⟩ := haway
  have hasks := hasks.resolve_right (by rw [hstill]; exact Bool.false_ne_true)
  obtain ⟨hent, hstate⟩ := unmoved o' s hasking.moves
  have hwait : ((Op.commit o' t).apply s).case.waiting =
      ⟨some d.label, s.case.waiting.waitingSince.or (some s.now)⟩ := by
    rw [commit_case]
    unfold Txn.applyCase
    simp only [hw, hcopy, WaitingCall.assign, Waiting.merge, pick_row]
  refine ⟨created_apply _ hcreated, ⟨d, ?_, ?_⟩, fun n hn => ?_, ?_, ?_⟩
  · rw [hwait]
  · rw [hstate]
    exact hasks
  · rw [hent]
    rw [hwait] at hn
    cases hsince : s.case.waiting.waitingSince with
    | none =>
        rw [hsince] at hn
        cases hn
        exact h.entered
    | some m =>
        rw [hsince] at hn
        cases hn
        refine (h.parked (fun hempty => ?_)).since _ hsince
        rw [hempty] at hsince
        cases hsince
  · rw [unwritten_attempts hasking.writes hasking.insert]
    exact fun a ha => Bool.not_eq_true _ ▸ hidle a ha
  · rw [hstate]
    exact hstill

theorem Queued.commit (h : Queued s) (hq : t.Queues o o' s)
    (hclean : ((Op.commit o' t).apply s).orderly) : Queued ((Op.commit o' t).apply s) := by
  have hentered : ((Op.commit o' t).apply s).case.stateEnteredAt ≤
      ((Op.commit o' t).apply s).now := by
    rw [commit_case, commit_now]
    unfold Txn.applyCase
    dsimp only
    split
    · exact Nat.le_succ_of_le h.entered
    · exact Nat.le_succ _
  refine ⟨hentered, fun hwaits => ?_⟩
  cases hw : t.waiting with
  | some call =>
      cases call with
      | mark d => exact h.mark hq hclean hw
      | clear =>
          -- the copy is up to date, so that every column is cleared
          obtain ⟨rfl, hasking⟩ := hq.asks _ hw
          obtain ⟨-, -, hcopy⟩ := hasking.works (orderly_of_apply hclean)
          refine absurd ?_ hwaits
          rw [commit_case]
          unfold Txn.applyCase
          simp only [hw, hcopy, WaitingCall.assign, Waiting.merge, pick_row]
  | none =>
      have hsame : ((Op.commit o' t).apply s).case.waiting = s.case.waiting := by
        rw [commit_case]
        unfold Txn.applyCase
        simp only [hw]
      rw [hsame] at hwaits
      -- a parked case is neither moved nor written
      have hmoves : t.moves = [] := by
        by_contra hne
        exact hwaits (hq.moves hclean hne)
      have hwritten := orderly_incident hclean (k := .writtenWaiting) (by decide)
      simp [Op.incident, Txn.incident, hwaits] at hwritten
      exact (h.parked hwaits).kept hmoves hwritten.1 hwritten.2 hw

end Commit

/-- An operation that is no commit leaves the case as it is, up to its claim. -/
theorem Queued.other {op : Op} {s : Store} (h : Queued s) (hop : ∀ o t, op ≠ .commit o t) :
    Queued (op.apply s) := by
  have hcase : (op.apply s).case.waiting = s.case.waiting ∧
      (op.apply s).case.state = s.case.state ∧
      (op.apply s).case.stateEnteredAt = s.case.stateEnteredAt ∧
      (op.apply s).core = s.core ∧ s.now ≤ (op.apply s).now := by
    cases op with
    | commit o t => exact absurd rfl (hop o t)
    | heartbeat o n =>
        refine ⟨?_, ?_, ?_, rfl, Nat.le_succ _⟩
        · exact aside_waiting rfl
        · exact heartbeat_state o n s
        · show (if s.case.claimedBy = some o then _ else s.case : Case).stateEnteredAt = _
          split
          · rfl
          · rfl
    | tick n => exact ⟨rfl, rfl, rfl, rfl, Nat.le_add_right _ _⟩
    | _ => exact ⟨rfl, rfl, rfl, rfl, Nat.le_succ _⟩
  obtain ⟨hwait, hstate, hent, hcore, hnow⟩ := hcase
  refine ⟨by rw [hent]; exact Nat.le_trans h.entered hnow, fun hwaits => ?_⟩
  rw [hwait] at hwaits
  have hp := h.parked hwaits
  refine ⟨created_apply op hp.created, ?_, ?_, ?_, ?_⟩
  · rw [hwait, hstate]
    exact hp.label
  · rw [hwait, hent]
    exact hp.since
  · rw [hcore]
    exact hp.idle
  · rw [hstate]
    exact hp.still

/-! ## Jobs at work -/

/-- The job works on the case with an up-to-date copy of the waiting columns, as far as the run is
orderly; with `free` the case is not parked. -/
def Works (o : Owner) (free : Prop) (s : Store) : Prop :=
  s.orderly → s.case.created = true ∧ s.history.atWork = some o ∧ s.copies o = s.case.waiting ∧
    (free → s.case.waiting = {})

theorem Works.imp {o : Owner} {free free' : Prop} {s : Store} (h : Works o free s)
    (hfree : free' → free) : Works o free' s := fun hclean =>
  let ⟨hcreated, hwork, hcopy, hempty⟩ := h hclean
  ⟨hcreated, hwork, hcopy, fun hf => hempty (hfree hf)⟩

theorem Works.aside {o : Owner} {free : Prop} {s : Store} {op : Op} (h : Works o free s)
    (hop : op.aside = true) : Works o free (op.apply s) := by
  intro hclean
  obtain ⟨hcreated, hwork, hcopy, hempty⟩ := h (orderly_of_apply hclean)
  refine ⟨created_apply op hcreated, ?_, ?_, ?_⟩
  · rw [aside_atWork hop]
    exact hwork
  · rw [aside_copies hop, aside_waiting hop]
    exact hcopy
  · rw [aside_waiting hop]
    exact hempty

/-- While one job works on the case, no other asks for a slot or takes the case up. -/
theorem works_stable (cfg : Settings) (o : Owner) (free : Prop) :
    Stable (system cfg) queueContract o (Works o free) := by
  intro s op _ h hop
  cases hop with
  | @other o' _ hne hallowed =>
      cases op with
      | commit o'' t =>
          have hq : t.Queues o' o'' s := hallowed
          intro hclean
          have hbefore := orderly_of_apply hclean
          have hwork := (h hbefore).2.1
          refine h.aside (?_ : (Op.commit o'' t).aside = true) hclean
          have hwaiting : t.waiting = none := by
            cases hw : t.waiting with
            | none => rfl
            | some call =>
                obtain ⟨-, hasking⟩ := hq.asks call hw
                have hother := (hasking.works hbefore).2.1
                rw [hwork] at hother
                exact absurd (Option.some.inj hother).symm hne
          have hstarts : t.starts = false := by
            have hcrowd := orderly_incident hclean (k := .crowded) (by decide)
            simpa [Op.incident, Txn.incident, hwork] using hcrowd
          simp [Op.aside, hwaiting, hstarts]
      | leave o'' => exact absurd hallowed not_false
      | _ => exact h.aside rfl
  | @leave o' hne =>
      intro hclean
      obtain ⟨hcreated, hwork, hcopy, hempty⟩ := h (orderly_of_apply hclean)
      refine ⟨hcreated, ?_, hcopy, hempty⟩
      show (if s.history.atWork = some o' then none else s.history.atWork) = some o
      rw [hwork, if_neg (fun heq => hne (Option.some.inj heq).symm)]
  | env henv =>
      cases op with
      | commit o'' t => cases henv
      | leave o'' => cases henv
      | _ => exact h.aside rfl

/-- What an orderly run has created, it keeps. -/
theorem created_stable (cfg : Settings) (o : Owner) (p : Prop) :
    Stable (system cfg) queueContract o (fun s => p → s.case.created = true) :=
  fun _ op _ h _ hp => created_apply op (h hp)

/-! ## Proof rules -/

/-- The program sees to the contract; an exception leaves the job at work. -/
abbrev Asking (cfg : Settings) (o : Owner) {α : Type} (p : P α) (A : Store → Prop)
    (Q : α → Store → Prop) : Prop :=
  Safe (system cfg) queueContract o p A Q (fun _ => Works o False)

section Rules

variable {cfg : Settings} {o : Owner} {α β : Type} {A : Store → Prop} {Q : α → Store → Prop}

theorem Asking.bind {p : P α} {k : α → P β} {R : β → Store → Prop} (hp : Asking cfg o p A Q)
    (hk : ∀ a, Asking cfg o (k a) (Q a) R) : Asking cfg o (p >>= k) A R :=
  Safe.bind hp hk

theorem Asking.conseq {p : P α} {A' : Store → Prop} {Q' : α → Store → Prop}
    (h : Asking cfg o p A Q) (hA : ∀ s, A' s → A s) (hQ : ∀ a s, Q a s → Q' a s) :
    Asking cfg o p A' Q' :=
  Safe.conseq h (fun s _ => hA s) (fun a s _ => hQ a s) (fun _ _ _ h => h)

theorem Asking.ite {c : Prop} [Decidable c] {p q : P α} (hp : c → Asking cfg o p A Q)
    (hq : ¬ c → Asking cfg o q A Q) : Asking cfg o (if c then p else q) A Q := by
  split
  · next h => exact hp h
  · next h => exact hq h

theorem Asking.ret {a : α} (h : ∀ s, A s → Q a s) : Asking cfg o (.ret a) A Q :=
  fun s _ => h s

theorem Asking.raise {e : Err} (h : ∀ s, A s → Works o False s) :
    Asking cfg o (.raise e) A Q :=
  fun s _ => h s

/-- One transaction of the thread. -/
theorem queue_tx {E : Store → Prop} {body : Input → Store → Except Err (Txn × α)}
    (hE : Stable (system cfg) queueContract o E) (hskip : ∀ s, A s → E (Op.skip.apply s))
    (hQ : ∀ a, Stable (system cfg) queueContract o (Q a))
    (h : ∀ i s t a, (s.orderly → Queued s) → A s → body i s = .ok (t, a) →
      t.Queues o o s ∧ Q a ((Op.commit o t).apply s)) :
    Safe (system cfg) queueContract o (Remediator.tx o body) A Q (fun _ => E) :=
  safe_tx (fun _ => trivial) hE hskip hQ (fun i s t a hinv hA hbody _ _ => h i s t a hinv hA hbody)

/-- One transaction of a job at work. -/
theorem Asking.tx {free : Prop} {body : Input → Store → Except Err (Txn × α)}
    (hQ : ∀ a, Stable (system cfg) queueContract o (Q a))
    (h : ∀ i s t a, (s.orderly → Queued s) → Works o free s → body i s = .ok (t, a) →
      t.Queues o o s ∧ Q a ((Op.commit o t).apply s)) :
    Asking cfg o (Remediator.tx o body) (Works o free) Q :=
  queue_tx (works_stable cfg o False) (fun _ hA => (hA.aside rfl).imp False.elim) hQ h

/-- A transaction that asks for nothing. -/
theorem queues_of_aside {o' : Owner} {t : Txn} {s : Store}
    (h : (Op.commit o' t).aside = true)
    (hmoves : ((Op.commit o' t).apply s).orderly → t.moves ≠ [] → s.case.waiting = {}) :
    t.Queues o o' s := by
  simp only [Op.aside, Bool.and_eq_true, Option.isNone_iff_eq_none, Bool.not_eq_true'] at h
  refine ⟨hmoves, fun call hcall => ?_, fun hstarts => ?_⟩
  · rw [h.1] at hcall
    cases hcall
  · rw [h.2] at hstarts
    cases hstarts

theorem Txn.aside_of_calm {o' : Owner} {t : Txn} (h : t.calm false true = true) :
    (Op.commit o' t).aside = true := by
  simp only [Txn.calm, Bool.and_eq_true, Bool.or_false] at h
  simp [Op.aside, h]

theorem aside_of_calm {s : Store} {op : Op} (h : op.calm false true s = true) :
    op.aside = true := by
  cases op with
  | commit o t =>
      simp only [Op.calm, Bool.and_eq_true] at h
      exact Txn.aside_of_calm h.1
  | leave o => cases h
  | _ => rfl

/-- A program that asks for no slot, of a case that is not parked. -/
theorem Slotless.works {p : P α} (h : Slotless p) :
    Asking cfg o p (Works o True) (fun _ => Works o True) := by
  refine (Safe.of_each_keep (works_stable cfg o True) (fun s op _ hworks hop => ?_) h).conseq
    (fun _ _ hs => hs) (fun _ _ _ hs => hs.2) (fun _ _ _ hs => hs.2.imp False.elim)
  have haside := aside_of_calm hop
  refine ⟨?_, hworks.aside haside⟩
  cases op with
  | commit o' t =>
      exact queues_of_aside haside (fun hclean _ =>
        (hworks (orderly_of_apply hclean)).2.2.2 trivial)
  | leave o' => cases haside
  | _ => trivial

/-- The transaction neither asks for a slot nor takes up the case, inserts neither an attempt nor
anything about a probe, and moves the case without a claim or because it fails, not into the state
that an attempt of remediation is created in. -/
def Txn.outer (t : Txn) : Bool :=
  t.waiting.isNone && !t.starts && t.insert.isNone && t.executions.isEmpty &&
    t.snapshots.isEmpty && (t.failing || t.moves.all (fun m => m.claim.isNone)) &&
    t.moves.all (fun m => !decide (m.dst = .remediationCreateIntent))

def Op.outer (s : Store) : Op → Bool
  | .commit _ t => t.outer && movesOk t.moves s.case
  | .post _ _ _ | .leave _ => false
  | _ => true

/-- Every action of the program may be taken by a job that does not work on the case. -/
abbrev Outer {α : Type} (p : P α) : Prop :=
  p.Each (fun s op => op.outer s = true) (fun _ => True) (fun _ => True)

theorem outer_aside {s : Store} {op : Op} (h : op.outer s = true) : op.aside = true := by
  cases op with
  | commit o t =>
      simp only [Op.outer, Txn.outer, Bool.and_eq_true] at h
      simp [Op.aside, h]
  | leave o => cases h
  | _ => rfl

/-- To move a parked case like that is an incident. -/
theorem outer_allowed {s : Store} {op : Op} (h : op.outer s = true) :
    queueContract.allowed o s op := by
  cases op with
  | commit o' t =>
      refine queues_of_aside (outer_aside h) (fun hclean hmoves => ?_)
      have hmoved := orderly_incident hclean (k := .movedWaiting) (by decide)
      simp only [Op.outer, Txn.outer, Bool.and_eq_true, Bool.or_eq_true] at h
      simp only [Op.incident, Txn.incident, Bool.and_eq_false_iff, decide_eq_false_iff_not,
        not_not, Bool.or_eq_false_iff] at hmoved
      refine hmoved.resolve_right (fun hclaims => ?_)
      rcases h.1.1.2 with hfailing | hall
      · rw [hclaims.1] at hfailing
        cases hfailing
      · obtain ⟨m, hm⟩ := List.exists_mem_of_ne_nil _ hmoves
        have hsome := List.any_eq_false.mp hclaims.2 m hm
        exact hsome (List.all_eq_true.mp hall m hm)
  | leave o' => cases h
  | _ => trivial

theorem Outer.safe {p : P α} (h : Outer p) : Safe (system cfg) queueContract o p (fun _ => True)
    (fun _ _ => True) (fun _ _ => True) :=
  Safe.of_each (fun _ _ _ hop => outer_allowed hop) h

theorem Outer.works {p : P α} {free : Prop} (h : Outer p) :
    Asking cfg o p (Works o free) (fun _ => Works o free) :=
  (Safe.of_each_keep (works_stable cfg o free)
    (fun _ _ _ hworks hop => ⟨outer_allowed hop, hworks.aside (outer_aside hop)⟩) h).conseq
    (fun _ _ hs => hs) (fun _ _ _ hs => hs.2) (fun _ _ _ hs => hs.2.imp False.elim)

/-- The transaction that a body commits fails the case. -/
def FailOutcome : Except Err (Txn × α) → Prop
  | .ok x => x.1.calm false true = true ∧ x.1.failing = true
  | .error _ => True

/-- A case that is failed was not parked. -/
theorem Asking.failing {free : Prop} {body : Input → Store → Except Err (Txn × α)}
    (h : ∀ i s, FailOutcome (body i s)) :
    Asking cfg o (Remediator.tx o body) (Works o free) (fun _ => Works o True) := by
  refine .tx (fun _ => works_stable cfg o True) (fun i s t a _ hworks hbody => ?_)
  have hfail := h i s
  rw [hbody] at hfail
  obtain ⟨hcalm, hfailing⟩ : t.calm false true = true ∧ t.failing = true := hfail
  have haside : (Op.commit o t).aside = true := Txn.aside_of_calm hcalm
  have hempty : ((Op.commit o t).apply s).orderly → s.case.waiting = {} := by
    intro hclean
    have hmoved := orderly_incident hclean (k := .movedWaiting) (by decide)
    simpa [Op.incident, Txn.incident, hfailing] using hmoved
  refine ⟨queues_of_aside haside (fun hclean _ => hempty hclean), fun hclean => ?_⟩
  obtain ⟨hcreated, hwork, hcopy, -⟩ := hworks.aside haside hclean
  refine ⟨hcreated, hwork, hcopy, fun _ => ?_⟩
  rw [aside_waiting haside]
  exact hempty hclean

end Rules

end Remediator
