import Remediator.Rounds.Deliveries
import Remediator.Queue.Outsiders

set_option autoImplicit false

/-! # How often a delivery is worked on

`_claim_event` counts the claims of a delivery and gives it up when there were too many; the jobs
that work on it set it to `PROCESSED` or `FAILED` from copies that may be out of date. A write
changes the columns in which the copy was changed and no others, so what is left of it is small.
-/

namespace Remediator

open Interleave

/-! ## The life of a row -/

/-- `PROCESSED` or `FAILED`. -/
def EventStatus.settled : EventStatus → Bool
  | .processed | .failed => true
  | _ => false

/-- What the commit of a job makes of a row. -/
inductive EventLife (cfg : Settings) (e e' : WebhookEvent) : Prop
  | kept (hstatus : e'.status = e.status) (hcount : e'.attemptsCount = e.attemptsCount)
  | settled (hstatus : e'.status.settled = true)
      (hcount : e'.attemptsCount = e.attemptsCount ∨ cfg.eventMaxAttempts < e'.attemptsCount)
  | claimed (hopen : e.status.settled = false) (hstatus : e'.status = .processing)
      (hcount : e'.attemptsCount = e.attemptsCount + 1)
      (hmax : e'.attemptsCount ≤ cfg.eventMaxAttempts)

/-- How a job changes its copy of a row. -/
inductive EventChange (cfg : Settings) (s : Store) (w : Write WebhookEvent) : Prop
  | kept (hstatus : w.changed.status = w.loaded.status)
      (hcount : w.changed.attemptsCount = w.loaded.attemptsCount)
  | settled (hstatus : w.changed.status.settled = true)
      (hcount : w.changed.attemptsCount = w.loaded.attemptsCount)
  /-- the end of a delivery that was claimed too often -/
  | capped (hopen : w.loaded.status.settled = false) (hstatus : w.changed.status.settled = true)
      (hmax : cfg.eventMaxAttempts < w.changed.attemptsCount)
  /-- a claim, on the row as it is -/
  | claimed (hrow : s.events[w.id]? = some w.loaded) (hopen : w.loaded.status.settled = false)
      (hstatus : w.changed.status = .processing)
      (hcount : w.changed.attemptsCount = w.loaded.attemptsCount + 1)
      (hmax : w.changed.attemptsCount ≤ cfg.eventMaxAttempts)

section Life

variable {cfg : Settings} {s : Store}

theorem EventChange.life {w : Write WebhookEvent} (h : EventChange cfg s w) {e : WebhookEvent}
    (he : s.events[w.id]? = some e) :
    EventLife cfg e (WebhookEvent.merge w.loaded w.changed e) := by
  cases h with
  | kept hstatus hcount =>
      refine .kept ?_ ?_
      · exact (congrArg (pick w.loaded.status · e.status) hstatus).trans (pick_self _ _)
      · exact (congrArg (pick w.loaded.attemptsCount · e.attemptsCount) hcount).trans
          (pick_self _ _)
  | settled hstatus hcount =>
      have hkept : (WebhookEvent.merge w.loaded w.changed e).attemptsCount = e.attemptsCount :=
        (congrArg (pick w.loaded.attemptsCount · e.attemptsCount) hcount).trans (pick_self _ _)
      rcases pick_eq_or w.loaded.status w.changed.status e.status with hpick | ⟨hpick, -⟩
      · exact .kept hpick hkept
      · exact .settled ((congrArg EventStatus.settled hpick).trans hstatus) (Or.inl hkept)
  | capped hopen hstatus hmax =>
      have hne : w.loaded.status ≠ w.changed.status := by
        intro heq
        rw [heq, hstatus] at hopen
        cases hopen
      have hpick : pick w.loaded.status w.changed.status e.status = w.changed.status := if_neg hne
      refine .settled ((congrArg EventStatus.settled hpick).trans hstatus) ?_
      rcases pick_eq_or w.loaded.attemptsCount w.changed.attemptsCount e.attemptsCount with
        hcount | ⟨hcount, -⟩
      · exact Or.inl hcount
      · exact Or.inr (Nat.lt_of_lt_of_eq hmax hcount.symm)
  | claimed hrow hopen hstatus hcount hmax =>
      rw [hrow] at he
      cases he
      refine .claimed hopen ((pick_row _ _).trans hstatus) ((pick_row _ _).trans hcount) ?_
      exact Nat.le_trans (Nat.le_of_eq (pick_row _ _)) hmax

/-- The writes of a transaction to the events: none, or one. -/
def EventTxn (cfg : Settings) (t : Txn) (s : Store) : Prop :=
  t.eventWrites = [] ∨ ∃ w, t.eventWrites = [w] ∧ EventChange cfg s w

/-- What the system does to the events. -/
inductive EventOp (cfg : Settings) (s : Store) : Op → Prop
  | internal {op : Op} (hop : op.internal = true) : EventOp cfg s op
  | commit {o : Owner} {t : Txn} (ht : EventTxn cfg t s) : EventOp cfg s (.commit o t)
  | receive {e : WebhookEvent} (he : e.fresh = true) : EventOp cfg s (.receive e)
  | deliver {e : WebhookEvent} (he : e.fresh = true) : EventOp cfg s (.deliver e)

/-- A row of the table before and after a step, by its number. -/
inductive RowLife (cfg : Settings) : Option WebhookEvent → Option WebhookEvent → Prop
  | absent : RowLife cfg none none
  | arrives {e : WebhookEvent} (he : e.fresh = true) : RowLife cfg none (some e)
  | lives {e e' : WebhookEvent} (h : EventLife cfg e e') : RowLife cfg (some e) (some e')

theorem RowLife.refl (found : Option WebhookEvent) : RowLife cfg found found := by
  cases found with
  | none => exact .absent
  | some e => exact .lives (.kept rfl rfl)

theorem RowLife.append {e : WebhookEvent} (he : e.fresh = true) (rows : List WebhookEvent) (i : ℕ) :
    RowLife cfg rows[i]? (rows ++ [e])[i]? := by
  rcases Nat.lt_trichotomy i rows.length with hlt | heq | hgt
  · rw [List.getElem?_append_left hlt]
    exact .refl _
  · subst heq
    rw [List.getElem?_eq_none (Nat.le_refl _), List.getElem?_append_right (Nat.le_refl _),
      Nat.sub_self]
    exact .arrives he
  · rw [List.getElem?_eq_none (Nat.le_of_lt hgt), List.getElem?_eq_none (by simp; omega)]
    exact .absent

theorem EventOp.row {op : Op} (h : EventOp cfg s op) (i : ℕ) :
    RowLife cfg s.events[i]? (op.apply s).events[i]? := by
  cases h with
  | internal hop =>
      cases op with
      | commit o t => cases hop
      | receive e => cases hop
      | deliver e => cases hop
      | heartbeat o n =>
          show RowLife cfg s.events[i]? (s.events.map fun e =>
            if e.claimedBy = some o then { e with leaseExpiresAt := some (s.now + n) } else e)[i]?
          rw [List.getElem?_map]
          cases s.events[i]? with
          | none => exact .absent
          | some e =>
              refine .lives (.kept ?_ ?_)
              · dsimp only
                split <;> rfl
              · dsimp only
                split <;> rfl
      | _ => exact .refl _
  | commit ht =>
      rw [commit_events]
      rcases ht with hnil | ⟨w, hw, hchange⟩
      · rw [hnil, flush_nil]
        exact .refl _
      · rw [hw, flush_cons, flush_nil, List.getElem?_modify]
        cases he : s.events[i]? with
        | none => exact .absent
        | some e =>
            refine .lives ?_
            split
            · next hi =>
                subst hi
                exact hchange.life he
            · exact .kept rfl rfl
  | receive he => exact .append he _ _
  | deliver he => exact .append he _ _

end Life

/-! ## The jobs -/

/-- Every action of the program treats the events so. -/
abbrev Lively {α : Type} (cfg : Settings) (Q : α → Prop) (p : P α) : Prop :=
  p.Each (EventOp cfg) Q (fun _ => True)

section Rules

variable {cfg : Settings} {α β : Type} {Q : α → Prop}

theorem Lively.tx {o : Owner} {body : Input → Store → Except Err (Txn × α)}
    (h : ∀ i s t a, body i s = .ok (t, a) → EventTxn cfg t s ∧ Q a) :
    Lively cfg Q (Remediator.tx o body) :=
  each_tx (fun _ => .internal rfl) (fun _ _ _ _ => trivial)
    (fun i s t a hbody _ => ⟨.commit (h i s t a hbody).1, (h i s t a hbody).2⟩)

/-- The transaction that a body commits writes no event. -/
def EventlessOutcome {α : Type} : Except Err (Txn × α) → Prop
  | .ok x => x.1.eventWrites = []
  | .error _ => True

/-- A transaction that writes no event. -/
theorem Lively.silent {o : Owner} {body : Input → Store → Except Err (Txn × α)}
    (h : ∀ i s, EventlessOutcome (body i s)) : Lively cfg (fun _ => True) (Remediator.tx o body) := by
  refine .tx (fun i s t a hbody => ⟨Or.inl ?_, trivial⟩)
  have hs := h i s
  rw [hbody] at hs
  exact hs

theorem Calmly.lively {p : P α} (h : Calmly p) : Lively cfg (fun _ => True) p := by
  refine Prog.Each.permit h (fun s op hop => ?_)
  cases op with
  | commit o t =>
      simp only [Op.calm, Bool.and_eq_true] at hop
      exact .commit (Or.inl (Txn.Calm.of_calm hop.1).eventWrites)
  | receive e => cases hop
  | deliver e => cases hop
  | _ => exact .internal rfl

theorem Silently.lively {p : P α} (h : Silently p) : Lively cfg (fun _ => True) p := by
  refine Prog.Each.permit h (fun s op hop => ?_)
  cases op with
  | commit o t =>
      simp only [Op.silent, Txn.silent, Bool.and_eq_true, List.isEmpty_iff] at hop
      exact .commit (Or.inl hop.1.2)
  | receive e => cases hop
  | deliver e => cases hop
  | _ => exact .internal rfl

theorem Lively.bind {p : P α} {k : α → P β} {R : β → Prop} (hp : Lively cfg Q p)
    (hk : ∀ a, Q a → Lively cfg R (k a)) : Lively cfg R (p >>= k) :=
  Prog.Each.bind hp hk

theorem Lively.rescue {p : P α} {h : Err → P α} (hp : Lively cfg Q p)
    (hh : ∀ e, Lively cfg Q (h e)) : Lively cfg Q (Remediator.rescue p h) := by
  refine Prog.Each.handle hp (fun e _ => ?_)
  split
  · trivial
  · exact hh e

end Rules

@[simp] theorem createApprovalRequest_events (cfg : Settings) (attempt : Nat) (raw : Doc) (t : Txn)
    (s : Store) : (createApprovalRequest cfg attempt raw t s).eventWrites = t.eventWrites := by
  unfold createApprovalRequest
  split <;> rfl

section Triage

variable {cfg : Settings} (r : Runner)

theorem finishTriage_lively (st : CaseState) (out : RunOutcome) :
    Lively cfg (fun _ => True) (r.finishTriage st out) := by
  unfold Runner.finishTriage
  split
  · refine .silent (fun _ s => ?_)
    dsimp only
    split
    · exact failCase_events _ _ _ _
    · exact createApprovalRequest_events _ _ _ _ _
  · trivial

theorem runTriage_lively (st : CaseState) : Lively cfg (fun _ => True) (r.runTriage st) :=
  .bind (Calmly.lively (run_calmly r .triage st)) (fun x _ => finishTriage_lively r x.1 x.2)

theorem reconcileBlockedTriage_lively (st : CaseState) :
    Lively cfg (fun _ => True) (r.reconcileBlockedTriage st) := by
  refine Lively.bind (Calmly.lively (reconcileBlocked_calmly r .triage st)) (fun found _ => ?_)
  split
  · trivial
  · exact finishTriage_lively r _ _

theorem processTermination_lively (st : CaseState) :
    Lively cfg (fun _ => True) (r.processTermination st) := by
  refine Lively.bind (.silent (fun _ _ => rfl)) (fun pending _ => ?_)
  split
  · exact .bind (Calmly.lively (terminateCase_calmly r st)) (fun _ _ => trivial)
  · refine Lively.bind (Calmly.lively (run_calmly r _ st)) (fun x _ => ?_)
    dsimp only
    split
    · exact finishTriage_lively r x.1 x.2
    · trivial

theorem processTriage_lively (st : CaseState) : Lively cfg (fun _ => True) (r.processTriage st) := by
  unfold Runner.processTriage
  split
  · refine Lively.bind (Calmly.lively (evaluateEligibility_calmly r _)) (fun eligible _ => ?_)
    split
    · exact runTriage_lively r _
    · trivial
  · exact runTriage_lively r _
  · exact runTriage_lively r _
  · refine Lively.bind (.silent (fun _ _ => rfl)) (fun kind _ => ?_)
    split
    · exact runTriage_lively r _
    · trivial
  · exact reconcileBlockedTriage_lively r _
  · exact processTermination_lively r _
  · trivial

theorem processCase_lively (st : CaseState) (reason : Option Reason) :
    Lively cfg (fun _ => True) (r.processCase st reason) := by
  unfold Runner.processCase
  split
  · split
    · exact Calmly.lively (process_calmly r st reason)
    · trivial
  · exact processTriage_lively r st

end Triage

/-! ### The events of a loop -/

section Events

variable (r : Runner)

theorem processLabelEvent_lively {cfg : Settings} (e : EventObj) (st : Option CaseState) :
    Lively cfg (fun _ => True) (r.processLabelEvent e st) := by
  refine .tx (fun i s t a hbody => ⟨Or.inr ?_, trivial⟩)
  dsimp only at hbody
  split at hbody
  · cases hbody
    exact ⟨_, confirmLabelWebhook_events _ _ _ _ _ _ _, .settled rfl rfl⟩
  · cases hbody
    exact ⟨_, rfl, .settled rfl rfl⟩

theorem openEvent_lively {cfg : Settings} (id : Nat) :
    Lively cfg (fun _ => True) (r.openEvent id) := by
  refine .tx (fun i s t a hbody => ⟨?_, trivial⟩)
  dsimp only at hbody
  split at hbody
  · cases hbody
    exact Or.inl rfl
  · split at hbody
    · cases hbody
      exact Or.inl rfl
    · split at hbody
      · cases hbody
        exact Or.inr ⟨_, rfl, .settled rfl rfl⟩
      · cases hbody
        exact Or.inr ⟨_, rfl, .kept rfl rfl⟩

theorem processEvent_lively {cfg : Settings} (id : Nat) :
    Lively cfg (fun _ => True) (r.processEvent id) := by
  refine Lively.bind (openEvent_lively r id) (fun work _ => ?_)
  split
  · trivial
  · exact processLabelEvent_lively r _ _
  · refine Lively.bind (processCase_lively r _ _) (fun _ _ => ?_)
    refine .tx (fun i s t a hbody => ⟨Or.inr ?_, trivial⟩)
    cases hbody
    exact ⟨_, rfl, .settled rfl rfl⟩

end Events

section Worker

variable (w : Worker)

/-- An event that is given up was open, and had its claims. -/
def EventClaim.Spent (cfg : Settings) : EventClaim → Prop
  | .capped e _ => e.row.status.settled = false ∧ cfg.eventMaxAttempts < e.row.attemptsCount + 1
  | _ => True

/-- The event that is selected is in the table, and open. -/
theorem nextEvent_open {s : Store} {e : EventObj} (h : nextEvent s = some e) :
    s.events[e.id]? = some e.row ∧ e.row.status.settled = false := by
  unfold nextEvent at h
  obtain ⟨id, hid, h⟩ := Option.bind_eq_some_iff.mp h
  obtain ⟨row, hrow, rfl⟩ := Option.map_eq_some_iff.mp h
  refine ⟨hrow, ?_⟩
  obtain ⟨hlt, hp, -⟩ := List.findIdx?_eq_some_iff_getElem.mp hid
  rw [(List.getElem?_eq_some_iff.mp hrow).2] at hp
  dsimp only
  cases hst : row.status with
  | pending => rfl
  | processing => rfl
  | processed => simp [hst] at hp
  | failed => simp [hst] at hp

theorem selectEvent_lively : Lively w.cfg (EventClaim.Spent w.cfg) w.selectEvent := by
  refine .tx (fun i s t a hbody => ?_)
  dsimp only at hbody
  split at hbody
  · cases hbody
    exact ⟨Or.inl rfl, trivial⟩
  · next e he =>
      obtain ⟨hrow, hopen⟩ := nextEvent_open he
      split at hbody
      · next hmax =>
          cases hbody
          exact ⟨Or.inl rfl, hopen, hmax⟩
      · next hmax =>
          cases hbody
          exact ⟨Or.inr ⟨_, rfl, .claimed hrow hopen rfl rfl (Nat.le_of_not_lt hmax)⟩, trivial⟩

theorem capEvent_lively {e : EventObj} {st : Option CaseState}
    (h : EventClaim.Spent w.cfg (.capped e st)) :
    Lively w.cfg (fun _ => True) (w.capEvent e st) := by
  have hchange : ∀ s, EventChange w.cfg s (e.write (Worker.capEvent.gaveUp e s)) :=
    fun s => .capped h.1 rfl h.2
  unfold Worker.capEvent
  split
  · refine .tx (fun i s t a hbody => ⟨Or.inr ?_, trivial⟩)
    cases hbody
    exact ⟨_, rfl, hchange s⟩
  · refine Lively.bind (Calmly.lively (terminateRunningAttempts_calmly w.owner)) (fun x _ => ?_)
    refine .tx (fun i s t a hbody => ⟨Or.inr ?_, trivial⟩)
    cases hbody
    exact ⟨_, failCase_events _ _ _ _, hchange s⟩

theorem claimEvent_lively (n : Nat) : Lively w.cfg (fun _ => True) (w.claimEvent n) := by
  induction n with
  | zero => trivial
  | succ n ih =>
      refine Lively.bind (selectEvent_lively w) (fun claim hclaim => ?_)
      split
      · trivial
      · trivial
      · exact .bind (capEvent_lively w hclaim) (fun _ _ => ih)

theorem releaseEvent_lively (id : Nat) : Lively w.cfg (fun _ => True) (w.releaseEvent id) := by
  refine Lively.bind (.silent (fun _ _ => rfl)) (fun hasCase _ => ?_)
  extract_lets txn rest
  have hrest : ∀ u, Lively w.cfg (fun _ => True) (rest u) := by
    intro u
    refine .tx (fun i s t a hbody => ⟨?_, trivial⟩)
    cases hbody
    unfold EventTxn
    dsimp only
    cases hw : (s.events[id]?).bind (fun row => if row.claimedBy = some w.owner then
        some (⟨id, row, { row with claimedBy := none, leaseExpiresAt := none }⟩ :
          Write WebhookEvent) else none) with
    | none => exact Or.inl rfl
    | some v =>
        refine Or.inr ⟨v, rfl, ?_⟩
        obtain ⟨row, -, hv⟩ := Option.bind_eq_some_iff.mp hw
        split at hv
        · cases hv
          exact .kept rfl rfl
        · cases hv
  split
  · exact .bind (Calmly.lively (releaseCase_calmly w)) (fun u _ => hrest u)
  · exact hrest ()

theorem markFailed_events (t : Txn) (s : Store) :
    (w.markFailed t s).eventWrites = t.eventWrites := by
  unfold Worker.markFailed
  dsimp only
  split
  · exact failCase_events _ _ _ _
  · rfl

theorem onCaseError_lively (e : Err) : Lively w.cfg (fun _ => True) (w.onCaseError e) := by
  unfold Worker.onCaseError
  split
  · exact .bind (.silent (fun _ _ => rfl)) (fun _ _ => Calmly.lively (releaseCase_calmly w))
  · trivial
  · trivial
  · trivial
  · exact .silent (fun _ _ => markFailed_events w _ _)

theorem onEventError_lively (id : Nat) (e : Err) :
    Lively w.cfg (fun _ => True) (w.onEventError id e) := by
  unfold Worker.onEventError
  split
  · refine .tx (fun i s t a hbody => ⟨?_, trivial⟩)
    dsimp only at hbody
    split at hbody
    · cases hbody
      exact Or.inl rfl
    · cases hbody
      exact Or.inr ⟨_, rfl, .settled rfl rfl⟩
  · trivial
  · trivial
  · trivial
  · refine .tx (fun i s t a hbody => ⟨?_, trivial⟩)
    dsimp only at hbody
    split at hbody
    · cases hbody
      exact Or.inl rfl
    · cases hbody
      split
      · exact Or.inr ⟨_, markFailed_events w _ _, .settled rfl rfl⟩
      · exact Or.inr ⟨_, rfl, .settled rfl rfl⟩

end Worker

/-! ### Every job -/

section Jobs

theorem withFinally_lively {cfg : Settings} {p fin : P Unit} (hp : Lively cfg (fun _ => True) p)
    (hfin : Lively cfg (fun _ => True) fin) : Lively cfg (fun _ => True) (withFinally p fin) :=
  .bind (.rescue hp (fun _ => .bind hfin (fun _ _ => trivial))) (fun _ _ => hfin)

theorem runCase_lively (w : Worker) : Lively w.cfg (fun _ => True) w.runCase :=
  .bind (.silent (fun _ _ => rfl)) (fun x _ => processCase_lively w.runner x.1 x.2)

theorem iterate_lively (w : Worker) : Lively w.cfg (fun _ => True) w.iterate := by
  refine Lively.bind (claimEvent_lively w w.rounds) (fun event _ => ?_)
  split
  · next id =>
      exact withFinally_lively (.rescue (processEvent_lively w.runner id)
        (fun e => onEventError_lively w id e)) (releaseEvent_lively w id)
  · refine Lively.bind (Calmly.lively (claimCase_calmly w)) (fun claimed _ => ?_)
    split
    · exact withFinally_lively (.rescue (runCase_lively w) (fun e => onCaseError_lively w e))
        (Calmly.lively (releaseCase_calmly w))
    · refine Lively.bind (dispatcherClaim_silently w.dispatcher).lively (fun row _ => ?_)
      split
      · exact (dispatch_silently w.dispatcher _).lively
      · trivial

/-- **All that the system does to the events.** -/
theorem events_sanctioned (cfg : Settings) : Sanctioned (system cfg) (EventOp cfg) where
  job o j := by
    cases j with
    | iterate process rounds => exact iterate_lively ⟨cfg, o, process, rounds⟩
    | slack action => exact (slackClick_silently cfg o action).lively
    | cancel => exact (cancelCase_silently o).lively
    | retry => exact (retryCase_silently cfg o).lively
    | reconcileSession rounds => exact (reconcileSession_silently cfg o rounds).lively
    | retryCi => exact (retryCi_silently o).lively
    | retryProbe => exact (retryProbe_silently o).lively
    | retryOutbox id => exact (retryOutbox_silently o id).lively
    | expireApproval id => exact (expireApproval_silently cfg o id).lively
  leave _ _ := .internal rfl
  env s op henv := by
    cases op with
    | receive e => exact .receive henv
    | deliver e =>
        simp only [system, environment, Bool.and_eq_true] at henv
        exact .deliver henv.1.1.1
    | commit o t => cases henv
    | _ => exact .internal rfl

end Jobs

/-! ## Runs -/

/-- The step takes event `i` into processing, with one more attempt. -/
def starts (i : ℕ) (s s' : Store) : ℕ :=
  match s.events[i]?, s'.events[i]? with
  | some e, some e' =>
      if e'.status = .processing ∧ e'.attemptsCount = e.attemptsCount + 1 then 1 else 0
  | _, _ => 0

/-- A pool that is reached after `n` starts of event `i`. -/
inductive Started (cfg : Settings) (i : ℕ) : Pool Store Input Op Err → ℕ → Prop
  | init : Started cfg i ⟨{}, fun _ => none⟩ 0
  | next {c c' : Pool Store Input Op Err} {n : ℕ} (ch : Choice Input Op Job)
      (h : Started cfg i c n) (hx : c.exec (system cfg) ch = some c') :
      Started cfg i c' (n + starts i c.store c'.store)

/-- How often an event was started, by its row: never before it arrives, as often as its row says
while it is open, and never more often than it may. -/
structure Bounded (cfg : Settings) (found : Option WebhookEvent) (n : ℕ) : Prop where
  bound : n ≤ cfg.eventMaxAttempts
  absent : found = none → n = 0
  counted : ∀ e, found = some e → e.status.settled = false → e.attemptsCount = n

section Runs

variable {cfg : Settings} {i : ℕ} {s s' : Store} {n : ℕ}

theorem starts_kept {e e' : WebhookEvent} (he : s.events[i]? = some e)
    (he' : s'.events[i]? = some e') (hcount : e'.attemptsCount = e.attemptsCount) :
    starts i s s' = 0 := by
  unfold starts
  rw [he, he']
  dsimp only
  rw [if_neg]
  omega

/-- One step keeps the count, and a settled event settled. -/
theorem Bounded.step (h : Bounded cfg s.events[i]? n)
    (hrow : RowLife cfg s.events[i]? s'.events[i]?) :
    Bounded cfg s'.events[i]? (n + starts i s s') ∧
      ∀ e, s.events[i]? = some e → e.status.settled = true →
        starts i s s' = 0 ∧ ∃ e', s'.events[i]? = some e' ∧ e'.status.settled = true := by
  generalize hfound : s.events[i]? = found at h hrow ⊢
  generalize hfound' : s'.events[i]? = found' at hrow ⊢
  cases hrow with
  | absent =>
      have hzero : starts i s s' = 0 := by simp [starts, hfound]
      rw [hzero]
      exact ⟨⟨h.bound, h.absent, fun e he => by cases he⟩, fun e he => by cases he⟩
  | arrives he =>
      have hzero : starts i s s' = 0 := by simp [starts, hfound]
      rw [hzero, h.absent rfl]
      refine ⟨⟨Nat.zero_le _, fun _ => rfl, fun e he' _ => ?_⟩, fun e he => by cases he⟩
      cases he'
      simp only [WebhookEvent.fresh, Bool.and_eq_true, decide_eq_true_eq] at he
      exact he.1.1.2
  | @lives e e' hlife =>
      cases hlife with
      | kept hstatus hcount =>
          rw [starts_kept hfound hfound' hcount]
          refine ⟨⟨h.bound, fun hnone => (by cases hnone), fun x hx hopen => ?_⟩, fun x hx hset => ?_⟩
          · cases hx
            rw [hstatus] at hopen
            exact hcount.trans (h.counted e rfl hopen)
          · cases hx
            exact ⟨rfl, e', rfl, by rw [hstatus]; exact hset⟩
      | settled hstatus hcount =>
          have hzero : starts i s s' = 0 := by
            unfold starts
            rw [hfound, hfound']
            dsimp only
            rw [if_neg]
            rintro ⟨hprocessing, -⟩
            rw [hprocessing] at hstatus
            cases hstatus
          rw [hzero]
          refine ⟨⟨h.bound, fun hnone => (by cases hnone), fun x hx hopen => ?_⟩, fun x hx _ => ?_⟩
          · cases hx
            rw [hstatus] at hopen
            cases hopen
          · cases hx
            exact ⟨rfl, e', rfl, hstatus⟩
      | claimed hopen hstatus hcount hmax =>
          have hone : starts i s s' = 1 := by
            unfold starts
            rw [hfound, hfound']
            exact if_pos ⟨hstatus, hcount⟩
          have hn := h.counted e rfl hopen
          rw [hone]
          refine ⟨⟨by omega, fun hnone => (by cases hnone), fun x hx _ => ?_⟩, fun x hx hset => ?_⟩
          · cases hx
            omega
          · cases hx
            rw [hset] at hopen
            cases hopen

theorem exec_row {c c' : Pool Store Input Op Err} {ch : Choice Input Op Job}
    (hperm : c.Permitted (EventOp cfg)) (hx : c.exec (system cfg) ch = some c') (i : ℕ) :
    c'.Permitted (EventOp cfg) ∧ RowLife cfg c.store.events[i]? c'.store.events[i]? := by
  obtain ⟨hperm', hstore⟩ := Pool.exec_permitted (events_sanctioned cfg) hperm hx
  refine ⟨hperm', ?_⟩
  rcases hstore with heq | ⟨op, hop, heq⟩
  · rw [heq]
    exact .refl _
  · rw [heq]
    exact hop.row i

theorem Started.bounded {c : Pool Store Input Op Err} (h : Started cfg i c n) :
    c.Permitted (EventOp cfg) ∧ Bounded cfg c.store.events[i]? n := by
  induction h with
  | init =>
      exact ⟨fun _ _ h => (by cases h), Nat.zero_le _, fun _ => rfl, fun e he => (by cases he)⟩
  | next ch _ hx ih =>
      obtain ⟨hperm, hrow⟩ := exec_row ih.1 hx i
      exact ⟨hperm, (ih.2.step hrow).1⟩

/-- A settled event stays settled and is not started again. -/
theorem Started.settled_run {c c' : Pool Store Input Op Err} {chs : List (Choice Input Op Job)}
    {e : WebhookEvent} (h : Started cfg i c n) (he : c.store.events[i]? = some e)
    (hset : e.status.settled = true) (hx : c.execAll (system cfg) chs = some c') :
    Started cfg i c' n ∧ ∃ e', c'.store.events[i]? = some e' ∧ e'.status.settled = true := by
  induction chs generalizing c e with
  | nil =>
      cases hx
      exact ⟨h, e, he, hset⟩
  | cons ch chs ih =>
      simp only [Pool.execAll] at hx
      split at hx
      · next c₁ hc₁ =>
          obtain ⟨hperm, hb⟩ := h.bounded
          obtain ⟨hzero, e', he', hset'⟩ :=
            (hb.step (exec_row hperm hc₁ i).2).2 e he hset
          have hnext := h.next ch hc₁
          rw [hzero] at hnext
          exact ih hnext he' hset' hx
      · cases hx

end Runs

/-- **A delivery is worked on a bounded number of times, and its end is final.** In every
interleaving of worker loops, clicks, operators, deliveries, lost leases and processes that die,
an event is taken into processing at most `EVENT_MAX_ATTEMPTS` times; while it is open its counter
is the number of these starts; and once it is `PROCESSED` or `FAILED` no later run of the system
starts it again or opens it again. -/
theorem event_starts_bounded (cfg : Settings) (i n : ℕ) (c : Pool Store Input Op Err)
    (h : Started cfg i c n) :
    n ≤ cfg.eventMaxAttempts ∧
      (∀ e, c.store.events[i]? = some e → e.status.settled = false → e.attemptsCount = n) ∧
      ∀ e, c.store.events[i]? = some e → e.status.settled = true →
        ∀ chs c', c.execAll (system cfg) chs = some c' → Started cfg i c' n ∧
          ∃ e', c'.store.events[i]? = some e' ∧ e'.status.settled = true := by
  obtain ⟨-, hb⟩ := h.bounded
  exact ⟨hb.bound, hb.counted, fun e he hset chs c' hx => h.settled_run he hset hx⟩

theorem event_starts_bounded_demo : ∃ c n, Started demoSettings 0 c n ∧ n = 1 ∧
    n ≤ demoSettings.eventMaxAttempts := by
  have h := ((Started.init : Started demoSettings 0 _ 0).next (.env (.receive issueOpened)) rfl
    |>.next (.spawn 1 (.iterate 0 5)) rfl).next (.step 1 smooth) rfl
  exact ⟨_, _, h, rfl, (event_starts_bounded demoSettings 0 _ _ h).1⟩

end Remediator
