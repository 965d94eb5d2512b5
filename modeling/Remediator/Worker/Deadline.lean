import Remediator.Worker.Waiting

set_option autoImplicit false

/-! # The deadline of a session

The deadline of an attempt is set where its session is attached. Nothing that happens to the
attempt afterwards moves it: neither a poll, nor an error, nor a crash, nor the job that takes the
session up again.
-/

namespace Remediator

open Interleave

/-! ## What sets a deadline -/

/-- `_timeout_seconds`. -/
def Settings.timeoutSeconds (cfg : Settings) : AttemptKind → Nat
  | .triage => cfg.triageTimeoutSeconds
  | .remediation => cfg.remediationTimeoutSeconds

/-- The attempt has the session and the deadline. -/
def AnchoredAt (sid : SessionId) (deadline : Nat) (x : Attempt) : Prop :=
  x.devinSessionId = some sid ∧ x.timeoutAt = some deadline

/-- What one operation does to the session and the deadline of an attempt: nothing, or it attaches
a session and sets the deadline, or it records a session that the job gives up, or it sets the
deadline that is missing. -/
inductive DeadlineStep (timeout : AttemptKind → Nat) (now : Nat) (x y : Attempt) : Prop
  | kept : y.devinSessionId = x.devinSessionId → y.timeoutAt = x.timeoutAt →
      DeadlineStep timeout now x y
  | attached (sid : SessionId) : x.devinSessionId = none →
      AnchoredAt sid (now + timeout x.kind) y → DeadlineStep timeout now x y
  | givenUp : x.devinSessionId = none → y.status = .cancelled → y.timeoutAt = x.timeoutAt →
      DeadlineStep timeout now x y
  | started : x.timeoutAt = none → y.devinSessionId = x.devinSessionId →
      y.timeoutAt = some (x.startedAt + timeout x.kind) → DeadlineStep timeout now x y

theorem DeadlineStep.anchored {timeout : AttemptKind → Nat} {now : Nat} {x y : Attempt}
    (h : DeadlineStep timeout now x y) {sid : SessionId} {deadline : Nat}
    (hx : AnchoredAt sid deadline x) : AnchoredAt sid deadline y := by
  obtain ⟨hsid, hdeadline⟩ := hx
  cases h with
  | kept hs ht => exact ⟨hs.trans hsid, ht.trans hdeadline⟩
  | attached sid' hnone _ => rw [hsid] at hnone; cases hnone
  | givenUp hnone _ _ => rw [hsid] at hnone; cases hnone
  | started hnone _ _ => rw [hdeadline] at hnone; cases hnone

/-! ## One worker, its crashes and its resumes -/

/-- What a job does with the runner. -/
inductive RunnerJob
  | run (r : Runner) (kind : AttemptKind) (st : CaseState)
  | reconcileBlocked (r : Runner) (kind : AttemptKind) (st : CaseState)

def RunnerJob.program (cfg : Settings) : RunnerJob → P Unit
  | .run r kind st => do
      let _ ← { r with cfg := cfg }.run kind st
      pure ()
  | .reconcileBlocked r kind st => do
      let _ ← { r with cfg := cfg }.reconcileBlocked kind st
      pure ()

/-- One worker takes up one job after the other and may crash in each of them. Meanwhile everyone
else does anything that gives no attempt a new session or deadline: time passes, the case is
cancelled, rows are inserted and written. -/
def sessionWorker (cfg : Settings) (apply : Op → Store → Store) :
    System Store Input Op Err RunnerJob where
  apply := apply
  job o j := if o = 0 then j.program cfg else pure ()
  leave := .leave
  env _ op := op.keepsAnchors

/-- Every operation of the worker is a `DeadlineStep` of every attempt. -/
def deadlineContract (cfg : Settings) (apply : Op → Store → Store) : Contract Store Op where
  inv _ := True
  allowed o s op := o = 0 ∧ ∀ (i : Nat) (x : Attempt), s.core.attempts[i]? = some x →
    ∃ y, (apply op s).core.attempts[i]? = some y ∧ DeadlineStep cfg.timeoutSeconds s.now x y

/-! ## The rows -/

/-- What the deadline of an attempt depends on. -/
def Attempt.anchor (x : Attempt) : AttemptKind × Nat × Option SessionId × Option Nat :=
  (x.kind, x.startedAt, x.devinSessionId, x.timeoutAt)

section Rows

variable {apply : Op → Store → Store}

theorem Clocked.core (h : Clocked apply) (op : Op) (s : Store) :
    (apply op s).core = (op.apply s).core := by
  have hsame := congrArg Store.core (h.same op s)
  exact hsame

theorem merge_anchor {w : Write Attempt} (h : KeepsAnchor w) (x : Attempt) :
    (Attempt.merge w.loaded w.changed x).anchor = x.anchor := by
  simp [Attempt.anchor, Attempt.merge, pick, h.1, h.2]

theorem commit_rows (o : Owner) (t : Txn) (s : Store) :
    ((Op.commit o t).apply s).core.attempts
      = flush Attempt.merge t.writes s.core.attempts ++ t.insert.toList.map (·.row) := rfl

/-- The rows keep what their deadlines depend on. -/
theorem Op.keepsAnchors_row {op : Op} (h : op.keepsAnchors = true) {s : Store} {i : Nat} {x : Attempt}
    (hx : s.core.attempts[i]? = some x) :
    ∃ y, (op.apply s).core.attempts[i]? = some y ∧ y.anchor = x.anchor := by
  have hsame : (op.apply s).core = s.core →
      ∃ y, (op.apply s).core.attempts[i]? = some y ∧ y.anchor = x.anchor :=
    fun heq => ⟨x, by rw [heq]; exact hx, rfl⟩
  cases op with
  | commit o t =>
      obtain ⟨y, hy, hanchor⟩ := flush_rel Attempt.merge (R := fun x y => y.anchor = x.anchor)
        (fun _ => rfl) (fun _ _ _ h h' => h'.trans h)
        (fun w hw _ x => merge_anchor (keepsAnchors_commit.mp h w hw) x) hx
      refine ⟨y, ?_, hanchor⟩
      rw [commit_rows]
      exact (List.getElem?_append_left (List.getElem?_eq_some_iff.mp hy).1).trans hy
  | skip => exact hsame rfl
  | post o a r => exact hsame rfl
  | get sid purpose r => exact hsame rfl
  | delete sid r => exact hsame rfl
  | find a purpose found => exact hsame rfl
  | leave o => exact hsame rfl
  | tick n => exact hsame rfl
  | heartbeat o n => exact hsame rfl
  | land a => exact hsame rfl
  | receive e => exact hsame rfl
  | setLabel on => exact hsame rfl
  | deliver e => exact hsame rfl

end Rows

/-! ## Programs of the worker -/

section Programs

variable {apply : Op → Store → Store} (hclock : Clocked apply) (r : Runner) {α β : Type}

/-- The object is as its row, in what the deadline depends on. -/
def Fresh (a : AttemptObj) (s : Store) : Prop :=
  ∃ x, s.core.attempts[a.id]? = some x ∧ x.anchor = a.row.anchor

abbrev Steps (apply : Op → Store → Store) (cfg : Settings) (p : P α) (A : Store → Prop)
    (Q : α → Store → Prop) (E : Err → Store → Prop) : Prop :=
  Safe (sessionWorker cfg apply) (deadlineContract cfg apply) 0 p A Q E

include hclock

theorem keepsAnchors_allowed {cfg : Settings} {op : Op} (h : op.keepsAnchors = true) (s : Store) :
    (deadlineContract cfg apply).allowed 0 s op := by
  refine ⟨rfl, fun i x hx => ?_⟩
  obtain ⟨y, hy, hanchor⟩ := Op.keepsAnchors_row h hx
  simp only [Attempt.anchor, Prod.mk.injEq] at hanchor
  exact ⟨y, by rw [hclock.core]; exact hy, .kept hanchor.2.2.1 hanchor.2.2.2⟩

theorem Fresh.keep {a : AttemptObj} {s : Store} (ha : Fresh a s) {op : Op}
    (h : op.keepsAnchors = true) : Fresh a (apply op s) := by
  obtain ⟨x, hx, hanchor⟩ := ha
  obtain ⟨y, hy, hsame⟩ := Op.keepsAnchors_row h hx
  exact ⟨y, by rw [hclock.core]; exact hy, hsame.trans hanchor⟩

theorem fresh_stable (cfg : Settings) (a : AttemptObj) :
    Stable (sessionWorker cfg apply) (deadlineContract cfg apply) 0 (Fresh a) := by
  intro s op _ ha hf
  cases hf with
  | other ho hop => exact absurd hop.1 ho
  | leave _ => exact ha.keep hclock rfl
  | env henv => exact ha.keep hclock henv

/-! ## Programs that give no attempt a new session or deadline -/

omit hclock

/-- Every action of the program keeps the sessions and the deadlines of the attempts. -/
abbrev Keeping (p : P α) : Prop :=
  p.Each (fun _ op => op.keepsAnchors = true) (fun _ => True) (fun _ => True)

theorem Prompt.keeping {p : P α} (h : Prompt p) : Keeping p :=
  (h.permit fun _ _ hop => hop.2).conseq (fun _ h => h) (fun _ _ => trivial)

theorem Keeping.bind {p : P α} {k : α → P β} (hp : Keeping p) (hk : ∀ a, Keeping (k a)) :
    Keeping (p >>= k) :=
  Prog.Each.bind hp (fun a _ => hk a)

theorem Keeping.tx {o : Owner} {body : Input → Store → Except Err (Txn × α)}
    (h : ∀ i s t a, body i s = .ok (t, a) → ∀ w ∈ t.writes, KeepsAnchor w) :
    Keeping (Remediator.tx o body) :=
  each_tx (fun _ => rfl) (fun _ _ _ _ => trivial)
    (fun i s t a hbody _ => ⟨keepsAnchors_commit.mpr (h i s t a hbody), trivial⟩)

/-- A transaction that writes no attempt. -/
theorem Keeping.aside {o : Owner} {body : Input → Store → Except Err (Txn × α)}
    (h : ∀ i s t a, body i s = .ok (t, a) → t.writes = []) : Keeping (Remediator.tx o body) :=
  .tx fun i s t a hbody w hw => by
    rw [h i s t a hbody] at hw
    cases hw

theorem Keeping.unlessFault (i : Input) (a : α) : Keeping (Remediator.unlessFault i a) :=
  (Prompt.unlessFault i a).keeping

theorem Keeping.ask (answer : Input → α) : Keeping (Remediator.ask answer) :=
  fun i _ => ⟨rfl, Keeping.unlessFault i _⟩

theorem Keeping.findSessionsByTag (a : Nat) (purpose : FindPurpose) :
    Keeping (Remediator.findSessionsByTag a purpose) := by
  intro i s
  refine ⟨?_, Keeping.unlessFault i _⟩
  dsimp only
  split <;> rfl

theorem Keeping.createSession (o : Owner) (a : Nat) : Keeping (Remediator.createSession o a) :=
  fun i _ => ⟨rfl, Keeping.unlessFault i _⟩

theorem deleteAll_keeping (sids : List SessionId) : Keeping (deleteAll sids) := by
  induction sids with
  | nil => trivial
  | cons x xs ih =>
      refine Keeping.bind (Prompt.terminateSession x).keeping fun result => ?_
      split
      · trivial
      · exact ih

theorem deleteTagged_keeping (a : Nat) : Keeping (deleteTagged a) := by
  refine Keeping.bind (.findSessionsByTag a .terminate) fun found => ?_
  split
  · trivial
  · exact deleteAll_keeping _

theorem terminateByTag_keeping (st : CaseState) (a : AttemptObj) :
    Keeping (r.terminateByTag st a) := by
  refine Keeping.bind (deleteTagged_keeping a.id) fun confirmed => ?_
  split
  · exact (markTerminated_prompt r st a).keeping
  · exact Prompt.keeping (.single (fun _ _ => rfl) fun _ _ => ⟨rfl, rfl⟩)

theorem lookups_keeping (a n : Nat) : Keeping (lookups a n) := by
  induction n with
  | zero => trivial
  | succ n ih =>
      refine Keeping.bind (.findSessionsByTag a .attach) fun found => ?_
      split
      · trivial
      · exact ih

theorem unresolved_keeping (st : CaseState) (a : AttemptObj) : Keeping (r.unresolved st a) :=
  Prompt.keeping (.single (fun _ _ => rfl) fun _ _ => ⟨rfl, rfl⟩)

/-- The program keeps the sessions and the deadlines, and hands on no attempt. -/
abbrev Declining (p : P (CaseState × (AttemptObj ⊕ RunOutcome))) : Prop :=
  p.Each (fun _ op => op.keepsAnchors = true) (fun x => ∃ out, x.2 = .inr out) (fun _ => True)

theorem failCreate_declining (st : CaseState) (a : AttemptObj) (create : CreateState) :
    Declining (r.failCreate st a create) := by
  refine each_tx (fun _ => rfl) (fun _ _ _ _ => trivial) fun i s t x hbody _ => ?_
  cases hbody
  refine ⟨keepsAnchors_commit.mpr (failCase_keepsAnchors fun w hw => ?_), _, rfl⟩
  rw [List.mem_singleton.mp hw]
  exact ⟨rfl, rfl⟩

theorem refuse_declining (st : CaseState) {ws : List (Write Attempt)}
    (h : ∀ w ∈ ws, KeepsAnchor w) : Declining (r.refuse st ws) := by
  refine each_tx (fun _ => rfl) (fun _ _ _ _ => trivial) fun i s t x hbody _ => ?_
  cases hbody
  exact ⟨keepsAnchors_commit.mpr (failCase_keepsAnchors h), _, rfl⟩

/-- The objects `_settle_previous_sessions` closes keep their sessions and deadlines. -/
theorem settlePrevious_keeping (now : Nat) (as : List AttemptObj) (ws : List (Write Attempt))
    (h : ∀ w ∈ ws, KeepsAnchor w) :
    (settlePrevious now as ws).Each (fun _ op => op.keepsAnchors = true)
      (fun out => ∀ w ∈ out.1, KeepsAnchor w) (fun _ => True) := by
  induction as generalizing ws with
  | nil => exact h
  | cons a as ih =>
      have hclosed : ∀ w ∈ ws ++ [closePrevious now a], KeepsAnchor w := by
        intro w hw
        rcases List.mem_append.mp hw with hw | hw
        · exact h w hw
        · rw [List.mem_singleton.mp hw]
          exact ⟨rfl, rfl⟩
      unfold settlePrevious
      split
      · split
        · exact h
        · exact ih _ hclosed
      · split
        · exact ih _ h
        · refine Prog.Each.bind (Prompt.getSession _ .inspect).keeping fun got _ => ?_
          split
          · exact ih _ hclosed
          · exact h
          · split
            · exact h
            · refine Prog.Each.bind (Prompt.terminateSession _).keeping fun result _ => ?_
              split
              · exact h
              · exact ih _ hclosed

theorem poll_keeping (sid : SessionId) (n : Nat) (st : CaseState) (a : AttemptObj) :
    Keeping (r.poll sid n st a) := by
  induction n generalizing st a with
  | zero => trivial
  | succ n ih =>
      rw [poll_succ]
      refine Keeping.bind (.tx fun i s t check hbody w hw => ?_) fun check => ?_
      · dsimp only at hbody
        split at hbody
        · cases hbody
          rw [List.mem_singleton.mp hw]
          exact ⟨rfl, rfl⟩
        · split at hbody
          · cases hbody
            cases hw
          · cases hbody
            cases hw
      · cases check with
        | cancel st a => exact (handleTimeout_prompt r st a sid).keeping
        | expired st => exact (handleTimeout_prompt r st a sid).keeping
        | goOn st =>
            refine Keeping.bind (Prompt.getSession sid .settle).keeping fun got => ?_
            have hrecord : ∀ status reason, Keeping (r.recordPoll a status reason) :=
              fun status reason => (recordPoll_prompt r a status reason).keeping
            unfold Runner.afterRead
            split
            · exact (fail_prompt r st a).keeping
            · exact .bind (hrecord _ _) fun a => ih st a
            · next snap =>
                generalize (Devin.disposition snap).disposition = d
                split
                · exact .bind (hrecord _ _) fun a => ih st a
                · exact .bind (hrecord _ _) fun a => ih st a
                · exact .bind (hrecord _ _) fun a => (settle_prompt r st a snap _).keeping

theorem readRetained_keeping (as : List AttemptObj) :
    (r.readRetained as).Each (fun _ op => op.keepsAnchors = true) (fun _ => True)
      (fun _ => True) := by
  induction as with
  | nil => trivial
  | cons a as ih =>
      have hannotate : ∀ reason, Keeping (r.annotate a reason) :=
        fun reason => Prompt.keeping (.single (fun _ _ => rfl) fun _ _ => ⟨rfl, rfl⟩)
      unfold Runner.readRetained
      split
      · trivial
      · refine Keeping.bind (Prompt.getSession _ .reconcile).keeping fun got => ?_
        split
        · split
          · exact .bind ih fun _ => trivial
          · exact .bind (hannotate _) fun _ => .bind ih fun _ => trivial
        · exact .bind (hannotate _) fun _ => .bind ih fun _ => trivial
        · exact .bind (hannotate _) fun _ => .bind ih fun _ => trivial

theorem reconcileBlocked_keeping (kind : AttemptKind) (st : CaseState) :
    Keeping (r.reconcileBlocked kind st) := by
  refine Keeping.bind (.aside fun i s t a hbody => by cases hbody; rfl) fun candidates => ?_
  refine Keeping.bind (readRetained_keeping r candidates) fun read => ?_
  split
  · trivial
  · next a snap _ =>
      refine Keeping.bind (.tx fun i s t out hbody w hw => ?_) fun out =>
        .bind (settle_prompt r _ _ snap .finished).keeping fun _ => trivial
      cases hbody
      rcases List.mem_append.mp hw with hw | hw
      · obtain ⟨x, -, rfl⟩ := List.mem_map.mp hw
        exact ⟨rfl, rfl⟩
      · rw [List.mem_singleton.mp hw]
        exact ⟨rfl, rfl⟩

/-! ## What the worker knows of its attempt -/

include hclock

theorem Keeping.steps {cfg : Settings} {p : P α} (hp : Keeping p) (A : Store → Prop) :
    Steps apply cfg p A (fun _ _ => True) (fun _ _ => True) :=
  (Safe.of_each (fun s _ _ hop => keepsAnchors_allowed hclock hop s) hp).pre fun _ _ _ => trivial

/-- The object stays as its row while the program runs. -/
theorem Keeping.fresh {cfg : Settings} {p : P α} (hp : Keeping p) (a : AttemptObj) :
    Steps apply cfg p (Fresh a) (fun _ => Fresh a) (fun _ => Fresh a) := by
  induction p with
  | ret x => exact fun _ _ ha => ha
  | raise e => exact fun _ _ ha => ha
  | act op next ih =>
      intro i s _ ha
      obtain ⟨hop, hnext⟩ := hp i s
      exact ⟨keepsAnchors_allowed hclock hop s, _, fresh_stable hclock cfg a, ha.keep hclock hop,
        ih i s hnext⟩

/-- One transaction: the rule asks about what is committed, and about the rows when nothing is. -/
theorem steps_tx {cfg : Settings} {o : Owner} {body : Input → Store → Except Err (Txn × α)}
    {A : Store → Prop} {Q : α → Store → Prop} {E : Err → Store → Prop}
    (hQ : ∀ x, Stable (sessionWorker cfg apply) (deadlineContract cfg apply) 0 (Q x))
    (hE : ∀ e, Stable (sessionWorker cfg apply) (deadlineContract cfg apply) 0 (E e))
    (hskip : ∀ e s, A s → E e (apply .skip s))
    (hcommit : ∀ i s t x, A s → body i s = .ok (t, x) →
      (deadlineContract cfg apply).allowed 0 s (.commit o t) ∧ Q x (apply (.commit o t) s)) :
    Steps apply cfg (tx o body) A Q E := by
  intro i s _ hA
  dsimp only
  cases hout : Txn.outcome body i s with
  | error e => exact ⟨keepsAnchors_allowed hclock rfl s, _, hE e, hskip e s hA, fun _ _ h => h⟩
  | ok x =>
      obtain ⟨hallowed, hpost⟩ := hcommit i s x.1 x.2 hA (outcome_ok hout).1
      exact ⟨hallowed, _, hQ x.2, hpost, fun _ _ h => h⟩

omit hclock in
theorem commit_single_row {o : Owner} {t : Txn} {s : Store} {w : Write Attempt}
    (ht : t.writes = [w]) {i : Nat} {x : Attempt} (hx : s.core.attempts[i]? = some x) :
    ((Op.commit o t).apply s).core.attempts[i]?
      = some (if w.id = i then Attempt.merge w.loaded w.changed x else x) := by
  have hrow : (s.core.attempts.modify w.id (Attempt.merge w.loaded w.changed))[i]?
      = some (if w.id = i then Attempt.merge w.loaded w.changed x else x) := by
    rw [List.getElem?_modify, hx]
    split <;> rfl
  rw [commit_rows, ht, flush_cons, flush_nil]
  exact (List.getElem?_append_left (List.getElem?_eq_some_iff.mp hrow).1).trans hrow

/-- A commit of one object. -/
theorem single_allowed {cfg : Settings} {o : Owner} {t : Txn} {s : Store} {w : Write Attempt}
    (ht : t.writes = [w]) (hstep : ∀ x, s.core.attempts[w.id]? = some x →
      DeadlineStep cfg.timeoutSeconds s.now x (Attempt.merge w.loaded w.changed x)) :
    (deadlineContract cfg apply).allowed 0 s (.commit o t) := by
  refine ⟨rfl, fun i x hx => ⟨if w.id = i then Attempt.merge w.loaded w.changed x else x, ?_, ?_⟩⟩
  · rw [hclock.core]
    exact commit_single_row ht hx
  · by_cases hi : w.id = i
    · rw [if_pos hi]
      subst hi
      exact hstep x hx
    · rw [if_neg hi]
      exact .kept rfl rfl

/-- The object of a commit is as its row afterwards. -/
theorem single_fresh {o : Owner} {t : Txn} {s : Store} {a : AttemptObj} {row : Attempt}
    (ht : t.writes = [a.write row]) (ha : Fresh a s) (hkind : row.kind = a.row.kind)
    (hstart : row.startedAt = a.row.startedAt) : Fresh ⟨a.id, row⟩ (apply (.commit o t) s) := by
  obtain ⟨x, hx, hanchor⟩ := ha
  refine ⟨Attempt.merge a.row row x, ?_, ?_⟩
  · rw [hclock.core, commit_single_row ht hx]
    exact congrArg some (if_pos rfl)
  · simp only [Attempt.anchor, Prod.mk.injEq] at hanchor
    obtain ⟨hk, hs, hsid, hdeadline⟩ := hanchor
    simp only [Attempt.anchor, Attempt.merge, Prod.mk.injEq]
    refine ⟨hk.trans hkind.symm, hs.trans hstart.symm, ?_, ?_⟩
    · unfold pick
      split
      · next heq => exact hsid.trans heq
      · rfl
    · unfold pick
      split
      · next heq => exact hdeadline.trans heq
      · rfl

/-- A commit of one object that keeps its session and its deadline. -/
theorem keeping_tx_fresh {cfg : Settings} {o : Owner}
    {body : Input → Store → Except Err (Txn × α)} {a : AttemptObj} (obj : α → AttemptObj)
    (h : ∀ i s t x, body i s = .ok (t, x) → ∃ row, t.writes = [a.write row] ∧
      row.anchor = a.row.anchor ∧ obj x = ⟨a.id, row⟩) :
    Steps apply cfg (tx o body) (Fresh a)
      (fun x s => Fresh (obj x) s ∧ (obj x).row.anchor = a.row.anchor) (fun _ _ => True) := by
  refine steps_tx hclock (fun x => (fresh_stable hclock cfg (obj x)).and Stable.const)
    (fun _ => Stable.true) (fun _ _ _ => trivial) ?_
  intro i s t x ha hbody
  obtain ⟨row, ht, hanchor, hobj⟩ := h i s t x hbody
  have hparts := hanchor
  simp only [Attempt.anchor, Prod.mk.injEq] at hparts
  obtain ⟨hkind, hstart, hsid, hdeadline⟩ := hparts
  have hkeeps : (Op.commit o t).keepsAnchors = true := by
    rw [keepsAnchors_commit, ht]
    intro w hw
    rw [List.mem_singleton.mp hw]
    exact ⟨hsid, hdeadline⟩
  rw [hobj]
  exact ⟨keepsAnchors_allowed hclock hkeeps s, single_fresh hclock ht ha hkind hstart, hanchor⟩

/-- **`_attach` sets the deadline together with the session**, or gives the session up. -/
theorem attach_steps (st : CaseState) {a : AttemptObj} (hnone : a.row.devinSessionId = none)
    (sid : SessionId) (create : CreateState) :
    Steps apply r.cfg (r.attach st a sid create) (Fresh a) (fun x => Fresh x.2)
      (fun _ _ => True) := by
  have htimeout : r.timeoutSeconds a.row.kind = r.cfg.timeoutSeconds a.row.kind := by
    cases a.row.kind <;> rfl
  have hattach : Steps apply r.cfg (tx r.owner (fun _ s =>
      let dst := (phaseForKind a.row.kind).running
      let row := { a.row with
        createState := create, status := .running, devinSessionId := some sid
        reconciliationReason := none
        timeoutAt := some (s.now + r.timeoutSeconds a.row.kind) }
      .ok ({ r.txn with writes := [a.write row], moves := [r.move st dst] }, dst,
        (⟨a.id, row⟩ : AttemptObj))))
      (Fresh a) (fun x => Fresh x.2) (fun _ => Fresh a) := by
    refine steps_tx hclock (fun x => fresh_stable hclock r.cfg x.2)
      (fun _ => fresh_stable hclock r.cfg a) (fun _ s ha => ha.keep hclock rfl) ?_
    intro i s t x ha hbody
    cases hbody
    refine ⟨single_allowed hclock rfl ?_, single_fresh hclock rfl ha rfl rfl⟩
    intro x hx
    obtain ⟨y, hy, hanchor⟩ := ha
    obtain rfl : y = x := Option.some.inj (hy.symm.trans hx)
    simp only [Attempt.anchor, Prod.mk.injEq] at hanchor
    obtain ⟨hkind, -, hsid, hdeadline⟩ := hanchor
    refine .attached sid (hsid.trans hnone) ⟨?_, ?_⟩
    · simp [Attempt.merge, AttemptObj.write, pick, hnone]
    · show pick a.row.timeoutAt (some (s.now + r.timeoutSeconds a.row.kind)) y.timeoutAt = _
      rw [hkind, ← htimeout]
      unfold pick
      split
      · next heq => exact hdeadline.trans heq
      · rfl
  refine Safe.handle hattach fun e => ?_
  split
  · exact fun _ _ _ => trivial
  · dsimp only
    split
    · refine Safe.bind (Q := fun _ _ => True) ?_ fun _ => ?_
      · refine steps_tx hclock (fun _ => Stable.true) (fun _ => Stable.true)
          (fun _ _ _ => trivial) ?_
        intro i s t x ha hbody
        obtain ⟨y, hy, hanchor⟩ := ha
        cases hbody
        refine ⟨single_allowed hclock (by rw [hy]; rfl) ?_, trivial⟩
        intro x hx
        obtain rfl : y = x := Option.some.inj (hy.symm.trans hx)
        simp only [Attempt.anchor, Prod.mk.injEq] at hanchor
        refine .givenUp (hanchor.2.2.1.trans hnone) ?_ ?_
        · show pick y.status .cancelled y.status = .cancelled
          unfold pick
          split
          · next heq => exact heq
          · rfl
        · show pick y.timeoutAt y.timeoutAt y.timeoutAt = y.timeoutAt
          exact if_pos rfl
      · exact Safe.bind ((Prompt.terminateSession sid).keeping.steps hclock _)
          fun _ _ _ _ => trivial
    · exact fun _ _ _ => trivial

omit hclock in
theorem Attempt.anchor_session {x y : Attempt} (h : x.anchor = y.anchor) :
    x.devinSessionId = y.devinSessionId := by
  simp only [Attempt.anchor, Prod.mk.injEq] at h
  exact h.2.2.1

/-- What a part of the runner that may attach leaves: the object is as its row. -/
def Handed : AttemptObj ⊕ RunOutcome → Store → Prop
  | .inl a => Fresh a
  | .inr _ => fun _ => True

theorem declining_steps {cfg : Settings} {p : P (CaseState × (AttemptObj ⊕ RunOutcome))}
    (hp : Declining p) (A : Store → Prop) :
    Steps apply cfg p A (fun x => Handed x.2) (fun _ _ => True) := by
  refine (Safe.of_each (fun s _ _ hop => keepsAnchors_allowed hclock hop s) hp).conseq
    (fun _ _ _ => trivial) (fun x s _ hx => ?_) fun _ _ _ _ => trivial
  obtain ⟨out, hout⟩ := hx
  rw [hout]
  trivial

theorem reconcileCreate_steps (st : CaseState) {a : AttemptObj}
    (hnone : a.row.devinSessionId = none) :
    Steps apply r.cfg (r.reconcileCreate st a) (Fresh a) (fun x => Handed x.2) (fun _ _ => True) := by
  refine Safe.bind (keeping_tx_fresh hclock (fun x => x.2) ?_) fun x => ?_
  · intro i s t x hbody
    cases hbody
    exact ⟨_, rfl, rfl, rfl⟩
  obtain ⟨st, b⟩ := x
  by_cases hsame : b.row.anchor = a.row.anchor
  · have hb : b.row.devinSessionId = none := (Attempt.anchor_session hsame).trans hnone
    refine Safe.pre (P := Fresh b) ?_ fun _ _ h => h.1
    refine Safe.bind (Q := fun _ => Fresh b) ?_ fun found => ?_
    · exact ((lookups_keeping b.id _).fresh hclock b).conseq (fun _ _ h => h) (fun _ _ _ h => h)
        fun _ _ _ _ => trivial
    · split
      · exact Safe.bind (attach_steps hclock r st hb _ .reconciled) fun _ _ _ h => h
      · exact Safe.bind ((unresolved_keeping r st b).steps hclock _) fun _ _ _ _ => trivial
  · exact Safe.unreached fun s _ h => hsame h.2

theorem send_steps (st : CaseState) {a : AttemptObj} (hnone : a.row.devinSessionId = none) :
    Steps apply r.cfg (r.send st a) (Fresh a) (fun x => Handed x.2) (fun _ _ => True) := by
  refine Safe.bind (Q := fun _ => Fresh a) ?_ fun built => ?_
  · exact ((Keeping.ask _).fresh hclock a).conseq (fun _ _ h => h) (fun _ _ _ h => h)
      fun _ _ _ _ => trivial
  split
  · exact declining_steps hclock (failCreate_declining r st a .notSent) _
  · refine Safe.bind (keeping_tx_fresh hclock id ?_) fun b => ?_
    · intro i s t x hbody
      cases hbody
      exact ⟨_, rfl, rfl, rfl⟩
    by_cases hsame : b.row.anchor = a.row.anchor
    · have hb : b.row.devinSessionId = none := (Attempt.anchor_session hsame).trans hnone
      refine Safe.pre (P := Fresh b) ?_ fun _ _ h => h.1
      refine Safe.bind (Q := fun _ => Fresh b) ?_ fun answer => ?_
      · exact ((Keeping.createSession r.owner b.id).fresh hclock b).conseq (fun _ _ h => h)
          (fun _ _ _ h => h) fun _ _ _ _ => trivial
      · split
        · exact declining_steps hclock (failCreate_declining r st b .apiError) _
        · refine Safe.bind (keeping_tx_fresh hclock (fun x => x.2) ?_) fun x => ?_
          · intro i s t x hbody
            cases hbody
            exact ⟨_, rfl, rfl, rfl⟩
          obtain ⟨st, c⟩ := x
          by_cases hsame' : c.row.anchor = b.row.anchor
          · exact (reconcileCreate_steps hclock r st
              ((Attempt.anchor_session hsame').trans hb)).pre fun _ _ h => h.1
          · exact Safe.unreached fun s _ h => hsame' h.2
        · exact Safe.bind (attach_steps hclock r st hb _ .created) fun _ _ _ h => h
    · exact Safe.unreached fun s _ h => hsame h.2

theorem insertAttempt_steps (kind : AttemptKind) (ordinal : Nat) (ctx : Option RemediationContext) :
    Steps apply r.cfg (r.insertAttempt kind ordinal ctx) (fun _ => True)
      (fun a s => Fresh a s ∧ a.row.devinSessionId = none) (fun _ _ => True) := by
  refine steps_tx hclock (fun a => (fresh_stable hclock r.cfg a).and Stable.const)
    (fun _ => Stable.true) (fun _ _ _ => trivial) ?_
  intro i s t a _ hbody
  cases hbody
  refine ⟨keepsAnchors_allowed hclock rfl s, ⟨_, ?_, rfl⟩, ?_⟩
  · rw [hclock.core, commit_rows]
    simp [Runner.txn]
  · cases ctx <;> rfl

theorem create_steps (kind : AttemptKind) (st : CaseState) :
    Steps apply r.cfg (r.create kind st) (fun _ => True) (fun x => Handed x.2)
      (fun _ _ => True) := by
  refine Safe.bind (Q := fun _ _ => True) ?_ fun x => ?_
  · exact (Keeping.aside fun i s t x hbody => by cases hbody; rfl).steps hclock _
  obtain ⟨ordinal, previous, now⟩ := x
  dsimp only
  split
  · exact declining_steps hclock (refuse_declining r st (by simp)) _
  · refine Safe.bind (Q := fun x _ => ∀ w ∈ x.1, KeepsAnchor w) ?_ fun x => ?_
    · exact (Safe.of_each (fun s _ _ hop => keepsAnchors_allowed hclock hop s)
        (settlePrevious_keeping now previous [] (by simp))).pre fun _ _ _ => trivial
    obtain ⟨ws, refused⟩ := x
    by_cases hws : ∀ w ∈ ws, KeepsAnchor w
    · dsimp only
      split
      · exact declining_steps hclock (refuse_declining r st hws) _
      · refine Safe.bind (Q := fun _ _ => True) ?_ fun _ => ?_
        · refine (Keeping.tx fun i s t x hbody => ?_).steps hclock _
          cases hbody
          exact hws
        split
        · exact declining_steps hclock (refuse_declining r st (by simp)) _
        · generalize (if kind = .remediation then r.remediation else none) = ctx
          split
          · exact fun _ _ _ => trivial
          · refine Safe.bind (insertAttempt_steps hclock r kind ordinal ctx) fun a => ?_
            by_cases hnone : a.row.devinSessionId = none
            · exact (send_steps hclock r st hnone).pre fun _ _ h => h.1
            · exact Safe.unreached fun s _ h => hnone h.2
    · exact Safe.unreached fun s _ h => hws h

/-- `_poll` sets a deadline that is missing, and nothing else. -/
theorem startPoll_steps (st : CaseState) (a : AttemptObj) :
    Steps apply r.cfg (r.startPoll st a) (Fresh a) (fun _ _ => True) (fun _ _ => True) := by
  have htimeout : r.timeoutSeconds a.row.kind = r.cfg.timeoutSeconds a.row.kind := by
    cases a.row.kind <;> rfl
  unfold Runner.startPoll
  split
  · exact fun _ _ _ => trivial
  · next sid _ =>
      dsimp only
      split
      · exact (poll_keeping r sid r.rounds st a).steps hclock _
      · next hmissing =>
          have hmissing : a.row.timeoutAt = none := by simpa using hmissing
          refine Safe.bind (Q := fun _ _ => True) ?_ fun b =>
            (poll_keeping r sid r.rounds st b).steps hclock _
          refine steps_tx hclock (fun _ => Stable.true) (fun _ => Stable.true)
            (fun _ _ _ => trivial) ?_
          intro i s t b ha hbody
          obtain ⟨y, hy, hanchor⟩ := ha
          cases hbody
          refine ⟨single_allowed hclock rfl ?_, trivial⟩
          intro x hx
          obtain rfl : y = x := Option.some.inj (hy.symm.trans hx)
          simp only [Attempt.anchor, Prod.mk.injEq] at hanchor
          obtain ⟨hkind, hstart, hsid, hdeadline⟩ := hanchor
          refine .started (hdeadline.trans hmissing) ?_ ?_
          · show pick a.row.devinSessionId a.row.devinSessionId y.devinSessionId = _
            exact if_pos rfl
          · show pick a.row.timeoutAt _ y.timeoutAt = _
            rw [hkind, hstart, ← htimeout, hmissing]
            simp [pick, AttemptObj.write]

omit hclock in
theorem newestAttempt_row {p : Attempt → Bool} {as : List Attempt} {a : AttemptObj}
    (h : newestAttempt p as = some a) : as[a.id]? = some a.row := by
  have hmem := List.mem_of_getLast? h
  unfold attemptObjs at hmem
  obtain ⟨hmem, -⟩ := List.mem_filter.mp hmem
  obtain ⟨x, hx, rfl⟩ := List.mem_map.mp hmem
  exact List.mem_zipIdx_iff_getElem?.mp hx

theorem run_steps (kind : AttemptKind) (st : CaseState) :
    Steps apply r.cfg (r.run kind st) (fun _ => True) (fun _ _ => True) (fun _ _ => True) := by
  refine Safe.bind (Q := fun found s => ∀ a, found = some a → Fresh a s) ?_ fun found => ?_
  · refine steps_tx hclock (fun found => Stable.all fun a => Stable.imp fun _ =>
      fresh_stable hclock r.cfg a) (fun _ => Stable.true) (fun _ _ _ => trivial) ?_
    intro i s t found _ hbody
    cases hbody
    refine ⟨keepsAnchors_allowed hclock rfl s, fun a ha => Fresh.keep hclock ?_ rfl⟩
    exact ⟨a.row, newestAttempt_row ha, rfl⟩
  cases found with
  | none =>
      refine Safe.pre (P := fun _ => True) ?_ fun _ _ _ => trivial
      refine Safe.bind (Q := fun _ _ => True) ?_ fun granted => ?_
      · exact (Keeping.aside fun i s t x hbody => by cases hbody; rfl).steps hclock _
      split
      · exact fun _ _ _ => trivial
      · refine Safe.bind (create_steps hclock r kind st) fun x => ?_
        obtain ⟨st, a | out⟩ := x
        · exact startPoll_steps hclock r st a
        · exact fun _ _ _ => trivial
  | some a =>
      refine Safe.pre (P := Fresh a) ?_ fun _ _ h => h a rfl
      dsimp only
      split
      · split
        · exact (terminateByTag_keeping r st a).steps hclock _
        · exact (handleTimeout_prompt r st a _).keeping.steps hclock _
      · split
        · next hnone =>
            refine Safe.bind (reconcileCreate_steps hclock r st (by simpa using hnone)) fun x => ?_
            obtain ⟨st, b | out⟩ := x
            · exact startPoll_steps hclock r st b
            · exact fun _ _ _ => trivial
        · refine Safe.bind (Q := fun _ => Fresh a) ?_ fun st =>
            startPoll_steps hclock r st a
          refine ((Keeping.aside fun i s t x hbody => ?_).fresh hclock a).conseq
            (fun _ _ h => h) (fun _ _ _ h => h) fun _ _ _ _ => trivial
          split at hbody
          · cases hbody
            rfl
          · cases hbody
            rfl

theorem sessionWorker_sound (cfg : Settings) :
    Sound (sessionWorker cfg apply) (deadlineContract cfg apply) where
  act _ _ _ _ _ := trivial
  leave _ _ _ := trivial
  env _ _ _ _ := trivial
  job o j := by
    by_cases ho : o = 0
    · subst ho
      cases j with
      | run r kind st =>
          exact Safe.bind (run_steps hclock { r with cfg := cfg } kind st) fun _ _ _ _ => trivial
      | reconcileBlocked r kind st =>
          exact Safe.bind ((reconcileBlocked_keeping { r with cfg := cfg } kind st).steps hclock _)
            fun _ _ _ _ => trivial
    · show Safe _ _ o (if o = 0 then j.program cfg else pure ()) _ _ _
      rw [if_neg ho]
      exact fun _ _ _ => trivial

/-- Every operation of a schedule is a `DeadlineStep` of every attempt. -/
theorem performed_rows {cfg : Settings} {s : Store} {op : Op}
    (h : Performed (sessionWorker cfg apply) (deadlineContract cfg apply) s op) {i : Nat}
    {x : Attempt} (hx : s.core.attempts[i]? = some x) :
    ∃ y, (apply op s).core.attempts[i]? = some y ∧
      DeadlineStep cfg.timeoutSeconds s.now x y := by
  cases h with
  | act hop => exact hop.2 i x hx
  | leave o => exact (keepsAnchors_allowed hclock rfl s).2 i x hx
  | env henv => exact (keepsAnchors_allowed hclock henv s).2 i x hx

end Programs

/-! ## The deadline ends polling -/

/-- Polling ends by the deadline of the attempt. -/
structure EndsByDeadline (cfg : Settings) (apply : Op → Store → Store) : Prop where
  /-- `_poll` ends, whatever happens meanwhile -/
  terminates : ∀ (r : Runner), r.cfg = cfg → ∀ (R : Store → Store → Prop),
    (∀ s s', R s s' → s.now ≤ s'.now) → ∀ st a s, PollTerminates apply R r st a s
  /-- the deadline is set with the session -/
  sets : ∀ s₀ c, Pool.Reachable (sessionWorker cfg apply) s₀ c →
    ∀ ch c', c.exec (sessionWorker cfg apply) ch = some c' →
    ∀ (i : Nat) x, c.store.core.attempts[i]? = some x → ∃ y, c'.store.core.attempts[i]? = some y ∧
      DeadlineStep cfg.timeoutSeconds c.store.now x y
  /-- the deadline of an attached session is not moved, across crashes and resumes -/
  stays : ∀ s₀ c, Pool.Reachable (sessionWorker cfg apply) s₀ c →
    ∀ chs c', c.execAll (sessionWorker cfg apply) chs = some c' →
    ∀ (i : Nat) x sid deadline, c.store.core.attempts[i]? = some x → AnchoredAt sid deadline x →
      ∃ y, c'.store.core.attempts[i]? = some y ∧ AnchoredAt sid deadline y
  /-- an iteration at or after the deadline goes the final path -/
  final : ∀ (r : Runner), r.cfg = cfg → ∀ (R : Store → Store → Prop),
    (∀ s s', R s s' → s.now ≤ s'.now) → ∀ sid n st a deadline, a.row.timeoutAt = some deadline →
    ∀ s l res s', (r.pollWaiting sid n st a).Runs apply R s l res s' →
      Iterates sid deadline cfg.devinPollIntervalSeconds ((r.pollWaiting sid n st a).steps l)

/-- **With a positive poll interval, polling ends by the deadline that was set with the session.** -/
theorem poll_ends_by_deadline {apply : Op → Store → Store} (hclock : Clocked apply) (cfg : Settings)
    (hinterval : 0 < cfg.devinPollIntervalSeconds) : EndsByDeadline cfg apply where
  terminates := by
    rintro r rfl R hR st a s
    exact startPollWaiting_terminates r hclock hR hinterval st a s
  sets := by
    intro s₀ c hreach ch c' hx i x hrow
    obtain ⟨hinv, halive⟩ := hreach.safe (sessionWorker_sound hclock cfg) trivial
    rcases Pool.exec_performed hx hinv halive with heq | ⟨op, hop, heq⟩
    · rw [heq]
      exact ⟨x, hrow, .kept rfl rfl⟩
    · rw [heq]
      exact performed_rows hclock hop hrow
  stays := by
    intro s₀ c hreach chs c' hx i x sid deadline hrow hanchored
    obtain ⟨hinv, halive⟩ := hreach.safe (sessionWorker_sound hclock cfg) trivial
    have hrel := Pool.execAll_performed (sessionWorker_sound hclock cfg)
      (R := fun s s' => ∀ x, s.core.attempts[i]? = some x → AnchoredAt sid deadline x →
        ∃ y, s'.core.attempts[i]? = some y ∧ AnchoredAt sid deadline y)
      (fun s x hrow hx => ⟨x, hrow, hx⟩)
      (fun s s' s'' h h' x hrow hx => by
        obtain ⟨y, hy, hanchored⟩ := h x hrow hx
        exact h' y hy hanchored)
      (fun s op _ hop x hrow hx => by
        obtain ⟨y, hy, hstep⟩ := performed_rows hclock hop hrow
        exact ⟨y, hy, hstep.anchored hx⟩)
      hinv halive hx
    exact hrel x hrow hanchored
  final := by
    rintro r rfl R hR sid n st a deadline hdeadline s l res s' h
    exact (pollWaiting_iterates r hclock hR sid deadline n hdeadline h).1

/-! ## A passed deadline and an empty interval -/

theorem clocked_apply : Clocked Op.apply where
  same _ _ := rfl
  forward op s := by
    cases op with
    | tick n => exact Nat.le_add_right _ _
    | commit o t => exact Nat.le_succ _
    | _ => exact Nat.le_succ _
  sleeps _ _ := Nat.le_refl _

def demoWaiter (cfg : Settings) : Runner where
  cfg := cfg
  owner := 0
  claim := none
  rounds := 1

/-- A running triage attempt whose deadline is 50. -/
def demoWaited : AttemptObj where
  id := 0
  row :=
    { kind := .triage
      ordinal := 1
      operationKey := .triage 1
      startedAt := 10
      createState := .created
      devinSessionId := some 0
      createSentAt := some 10
      timeoutAt := some 50 }

/-- A case with that attempt. -/
def demoWaiting (now : Nat) : Store where
  now := now
  case := { created := true, state := .triaging }
  core := { attempts := [demoWaited.row] }
  sessions := [{ attempt := 0 }]

/-- The job resumes the session and crashes after a check and a read; the next job resumes it. -/
def demoCrash : List (Choice Input Op RunnerJob) :=
  [.spawn 0 (.run (demoWaiter demoSettings) .triage .triaging), .step 0 {}, .step 0 {},
    .step 0 {}, .step 0 {}, .kill 0,
    .spawn 0 (.run (demoWaiter demoSettings) .triage .triaging), .step 0 {}, .step 0 {}]

theorem poll_ends_by_deadline_demo :
    (∃ l s' res, ((demoWaiter demoSettings).pollWaiting 0 1 .triaging demoWaited).Runs Op.apply
        (· = ·) (demoWaiting 60) l res s' ∧
      Iterates 0 50 10
        (((demoWaiter demoSettings).pollWaiting 0 1 .triaging demoWaited).steps l)) ∧
    PollTerminates Op.apply (· = ·) (demoWaiter demoSettings) .triaging demoWaited
      (demoWaiting 20) ∧
    ∃ c', Pool.execAll (sessionWorker demoSettings Op.apply) ⟨demoWaiting 20, fun _ => none⟩
        demoCrash = some c' ∧
      ∃ y, c'.store.core.attempts[0]? = some y ∧ AnchoredAt 0 50 y := by
  have hends := poll_ends_by_deadline clocked_apply demoSettings (by decide)
  have hrun : ((demoWaiter demoSettings).pollWaiting 0 1 .triaging demoWaited).Runs Op.apply
      (· = ·) (demoWaiting 60) _ (.ok _) _ :=
    .act {} rfl (.act {} rfl (.act {} rfl (.act {} rfl (.ret _ _))))
  have hforward : ∀ s s' : Store, s = s' → s.now ≤ s'.now := by
    rintro s s' rfl
    exact Nat.le_refl _
  obtain ⟨c', hcrash⟩ : ∃ c', Pool.execAll (sessionWorker demoSettings Op.apply)
      ⟨demoWaiting 20, fun _ => none⟩ demoCrash = some c' := ⟨_, rfl⟩
  refine ⟨⟨_, _, _, hrun, ?_⟩, ?_, c', hcrash, ?_⟩
  · exact hends.final _ rfl _ hforward 0 1 _ _ 50 rfl _ _ _ _ hrun
  · exact hends.terminates _ rfl _ hforward _ _ _
  · exact hends.stays _ _ .init _ _ hcrash 0 demoWaited.row 0 50 rfl ⟨rfl, rfl⟩

/-- The operations take no time. -/
def instantly (op : Op) (s : Store) : Store :=
  { op.apply s with now := match op with | .tick n => s.now + n | _ => s.now }

theorem clocked_instantly : Clocked instantly where
  same _ _ := rfl
  forward op s := by
    cases op with
    | tick n => exact Nat.le_add_right _ _
    | _ => exact Nat.le_refl _
  sleeps _ _ := Nat.le_refl _

/-- The poll loop with an empty interval. -/
def impatient : Settings := { demoSettings with devinPollIntervalSeconds := 0 }

/-- When every read fails and the clock stands still, the loop does any number of rounds. -/
theorem impatient_halts (n : Nat) {a : AttemptObj} {st : CaseState} {s : Store}
    (hdeadline : a.row.timeoutAt = some 50) (hnow : s.now = 20) (hstate : s.case.state = .triaging) :
    ∃ l s', ((demoWaiter impatient).pollWaiting 0 n st a).Runs instantly (· = ·) s l
      (.error .halt) s' := by
  induction n generalizing a st s with
  | zero => exact ⟨[], s, .raise _ _⟩
  | succ n ih =>
      let row := { a.row with status := .reconciling, reconciliationReason := some .other }
      let checked := instantly (.commit 0 {}) s
      let read := instantly (.get 0 .settle .error) checked
      let recorded := instantly
        (.commit 0 { (demoWaiter impatient).txn with writes := [a.write row] }) read
      obtain ⟨l, s', hrest⟩ := @ih ⟨a.id, row⟩ s.case.state (instantly (.tick 0) recorded)
        hdeadline hnow hstate
      have hsleep : (sleep 0 >>= fun _ => (demoWaiter impatient).pollWaiting 0 n s.case.state
          ⟨a.id, row⟩).Runs instantly (· = ·) recorded (({}, recorded) :: l) (.error .halt) s' :=
        .act ({} : Input) rfl hrest
      have hrecord : ((demoWaiter impatient).afterReadWaiting 0 n s.case.state a .error).Runs
          instantly (· = ·) read (({}, read) :: ({}, recorded) :: l) (.error .halt) s' :=
        runs_commit rfl (outcome_plain rfl rfl rfl rfl) hsleep
      have hread : ((demoWaiter impatient).afterCheckWaiting 0 n a (.goOn s.case.state)).Runs
          instantly (· = ·) checked _ (.error .halt) s' :=
        .act ({} : Input) rfl hrecord
      rw [pollWaiting_succ]
      refine ⟨_, s', runs_commit (i := {}) (t := {}) (x := .goOn s.case.state) rfl ?_ hread⟩
      refine outcome_plain rfl ?_ rfl rfl
      simp [hstate, hdeadline, hnow]

/-- **With an empty interval the loop need not end**: no wait brings the deadline closer. -/
theorem empty_interval_polls_on : impatient.devinPollIntervalSeconds = 0 ∧ Clocked instantly ∧
    ¬ PollTerminates instantly (· = ·) (demoWaiter impatient) .triaging demoWaited
      (demoWaiting 20) := by
  refine ⟨rfl, clocked_instantly, ?_⟩
  rintro ⟨N, hN⟩
  obtain ⟨l, s', hrun⟩ := @impatient_halts N demoWaited .triaging (demoWaiting 20) rfl rfl rfl
  exact hN N (Nat.le_refl _) l _ s' hrun rfl

end Remediator
