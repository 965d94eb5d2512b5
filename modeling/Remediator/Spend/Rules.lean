import Remediator.Spend

set_option autoImplicit false

/-! # What a job at work knows

Rules for the programs under the contract. A job at work relies on what it has loaded: others
neither insert attempts nor run probes nor dispatch the case in the meantime, as long as one job at
a time works on it.
-/

namespace Remediator

open Interleave

/-! ## Knowledge -/

/-- A remediation attempt with this context would have its evidence. -/
def RemediationContext.Backed (ctx : RemediationContext) (c : Core) : Prop :=
  ∀ (r : Runner) (ordinal now : Nat), (r.newAttempt .remediation ordinal now (some ctx)).Backed c

/-- What `_load_context` goes by: the recorded decision, or a free run of the newest probe. -/
structure RemediationContext.Loaded (ctx : RemediationContext) (s : Store) : Prop where
  bare : ctx.probe = none → ∃ (r : ApprovalRequest) (d : ProbePolicyDecision),
    s.approvals[ctx.approval]? = some r ∧ r.triageResultHash = ctx.triageResultHash ∧
      probePolicyDecision s.core ctx.triageResultHash = some d ∧ ctx.baseSha = d.baseSha
  probed : ctx.probe.isSome = true → s.core.freeRun = true

/-- The job's copy of the state is right about whether the case is dispatched. -/
structure Store.Follows (s : Store) (st : CaseState) : Prop where
  decided : st.dispatched = true → s.straight → s.Decided
  outside : st.dispatched = false → s.case.state.dispatched = false

/-- What a job has loaded: the context of its attempt, whether the last dispatch was for a run that
is free, and its copy of the state. -/
structure Knowledge where
  context : Option RemediationContext := none
  decided : Bool := false
  copy : Option CaseState := none

/-- The job is the one at work, and what it knows is still true. -/
structure Knows (o : Owner) (k : Knowledge) (s : Store) : Prop where
  works : s.history.atWork = some o
  backed : ∀ ctx, k.context = some ctx → ctx.Backed s.core
  loaded : ∀ ctx, k.context = some ctx → ctx.Loaded s
  decided : s.straight → k.decided = true → s.Decided
  follows : ∀ st, k.copy = some st → s.Follows st

/-- As long as one job at a time has worked on the case, it knows that. -/
def Informed (o : Owner) (k : Knowledge) (s : Store) : Prop := s.alone → Knows o k s

/-- The thread has inserted the attempt and not yet sent its request. -/
def Inserted (o : Owner) (a : Nat) (s : Store) : Prop := s.history.inserted o = some a

/-- The program of a job at work sees to the contract. -/
abbrev Frugal (cfg : Settings) (o : Owner) {α : Type} (p : P α) : Prop :=
  Safe (system cfg) (spendContract cfg) o p (Informed o {}) (fun _ => Informed o {})
    (fun _ => Informed o {})

theorem Knows.drop {o : Owner} {k : Knowledge} {s : Store} (h : Knows o k s) : Knows o {} s where
  works := h.works
  backed := fun _ hctx => by cases hctx
  loaded := fun _ hctx => by cases hctx
  decided := fun _ hyes => by cases hyes
  follows := fun _ hst => by cases hst

theorem Informed.drop {o : Owner} {k : Knowledge} {s : Store} (h : Informed o k s) :
    Informed o {} s :=
  fun halone => (h halone).drop

/-- A context that is as good as one that is known. -/
theorem Informed.narrow {o : Owner} {known ctx : Option RemediationContext} {s : Store}
    (h : Informed o { context := known, decided := known.isSome } s)
    (hctx : ∀ x, ctx = some x → known = some x) :
    Informed o { context := ctx, decided := ctx.isSome } s := by
  intro halone
  have hknows := h halone
  refine ⟨hknows.works, fun x hx => hknows.backed x (hctx x hx),
    fun x hx => hknows.loaded x (hctx x hx), fun hstraight hsome => ?_, fun _ hst => by cases hst⟩
  obtain ⟨x, hx⟩ := Option.isSome_iff_exists.mp hsome
  exact hknows.decided hstraight (Option.isSome_iff_exists.mpr ⟨x, hctx x hx⟩)

/-- Between states that are not after the dispatch the copy may change. -/
theorem Informed.copied {o : Owner} {st st' : CaseState} {s : Store}
    (h : Informed o { copy := some st } s) (hst : st.dispatched = false)
    (hst' : st'.dispatched = false) : Informed o { copy := some st' } s := by
  intro halone
  have hknows := h halone
  refine ⟨hknows.works, fun _ hctx => (by cases hctx), fun _ hctx => (by cases hctx),
    fun _ hyes => (by cases hyes), ?_⟩
  rintro st'' ⟨⟩
  refine ⟨fun hyes => ?_, fun _ => (hknows.follows st rfl).outside hst⟩
  rw [hst'] at hyes
  cases hyes

/-! ## What a step leaves true -/

/-- Runs that are free stay free while nothing is linked to them. -/
theorem NewAttempt.Backed.grow {n : NewAttempt} {c c' : Core} (h : n.Backed c)
    (hexecutions : ∀ (e : Nat) (x : ProbeExecution), c.executions[e]? = some x →
      c'.executions[e]? = some x)
    (hsnapshots : c'.snapshots = c.snapshots) : n.Backed c' := by
  refine ⟨fun hkind hstatus => hsnapshots.trans (h.bare hkind hstatus), h.needs, fun e he => ?_⟩
  obtain ⟨x, hx, hfree, hbacks⟩ := h.link e he
  obtain ⟨p, hp, hscript⟩ := hbacks.script
  exact ⟨x, hexecutions e x hx, hfree, hbacks.target, hbacks.verdict, hbacks.snapshot,
    hbacks.commit, p, by rwa [hsnapshots], hscript⟩

section Steps

variable {o o' : Owner} {k : Knowledge} {t : Txn} {s : Store}

theorem link_of_none (h : t.insert = none) : t.link = none := by
  unfold Txn.link
  rw [h]
  rfl

theorem RemediationContext.Loaded.commit {ctx : RemediationContext} (h : ctx.Loaded s)
    (hinsert : t.insert = none) (hsnapshots : t.snapshots = []) :
    ctx.Loaded ((Op.commit o' t).apply s) := by
  refine ⟨fun hbare => ?_, fun hprobe => ?_⟩
  · obtain ⟨r, d, hr, hhash, hd, hbase⟩ := h.bare hbare
    obtain ⟨r', hr', hsame⟩ := approval_commit hr
    exact ⟨r', d, hr', hsame.trans hhash, probePolicyDecision_commit hd, hbase⟩
  · exact freeRun_stays (link_of_none hinsert) hsnapshots (h.probed hprobe)

theorem Store.Follows.commit {st : CaseState} (h : s.Follows st)
    (hvalid : movesOk t.moves s.case = true) (henters : ¬ t.enters) (hsnapshots : t.snapshots = [])
    (hruns : ∀ x ∈ t.executions, x.target ≠ .base) :
    ((Op.commit o' t).apply s).Follows st := by
  refine ⟨fun hst hstraight => ?_, fun hst => ?_⟩
  · exact (h.decided hst (straight_of_apply hstraight)).commit henters hsnapshots hruns
  · cases hend : ((Op.commit o' t).apply s).case.state.dispatched with
    | false => rfl
    | true =>
        have hbefore := dispatched_before hvalid (fun m hm hdst => henters ⟨m, hm, hdst⟩) hend
        exact hbefore.symm.trans (h.outside hst)

/-- What is known is kept by a commit that does nothing of what only a job at work does. -/
theorem Informed.commit (h : Informed o k s) (hvalid : movesOk t.moves s.case = true)
    (hstarts : t.starts = false) (hinsert : t.insert = none) (hsnapshots : t.snapshots = [])
    (hruns : ∀ x ∈ t.executions, x.target ≠ .base) (henters : ¬ t.enters) :
    Informed o k ((Op.commit o' t).apply s) := by
  intro halone
  have hknows := h (alone_of_apply halone)
  refine ⟨?_, fun ctx hctx r ordinal now => ?_, fun ctx hctx => ?_, fun hstraight hyes => ?_,
    fun st hst => ?_⟩
  · show (if t.starts then some o' else s.history.atWork) = some o
    rw [hstarts]
    exact hknows.works
  · refine (hknows.backed ctx hctx r ordinal now).grow (fun e x hx => ?_) ?_
    · rw [commit_execution hx]
      unfold Txn.linked
      rw [link_of_none hinsert, if_neg nofun]
    · show s.core.snapshots ++ t.snapshots = s.core.snapshots
      rw [hsnapshots, List.append_nil]
  · exact (hknows.loaded ctx hctx).commit hinsert hsnapshots
  · exact (hknows.decided (straight_of_apply hstraight) hyes).commit henters hsnapshots hruns
  · exact (hknows.follows st hst).commit hvalid henters hsnapshots hruns

/-- The job stays at work. -/
theorem Informed.stays (h : Informed o k s) (hstarts : t.starts = false) :
    Informed o {} ((Op.commit o' t).apply s) := by
  intro halone
  refine ⟨?_, fun _ hctx => (by cases hctx), fun _ hctx => (by cases hctx),
    fun _ hyes => (by cases hyes), fun _ hst => (by cases hst)⟩
  show (if t.starts then some o' else s.history.atWork) = some o
  rw [hstarts]
  exact (h (alone_of_apply halone)).works

/-- An operation that concerns nothing of it. -/
theorem Informed.still {op : Op} (h : Informed o k s)
    (hwork : (op.apply s).history.atWork = s.history.atWork)
    (hstate : (op.apply s).case.state = s.case.state) (hlog : (op.apply s).log = s.log)
    (hcore : (op.apply s).core = s.core) (happrovals : (op.apply s).approvals = s.approvals) :
    Informed o k (op.apply s) := by
  intro halone
  have hknows := h (alone_of_apply halone)
  refine ⟨hwork.trans hknows.works, fun ctx hctx => ?_, fun ctx hctx => ?_,
    fun hstraight hyes => ?_, fun st hst => ⟨fun hyes hstraight => ?_, fun hno => ?_⟩⟩
  · rw [hcore]
    exact hknows.backed ctx hctx
  · obtain ⟨hbare, hprobed⟩ := hknows.loaded ctx hctx
    refine ⟨?_, ?_⟩
    · rw [happrovals, hcore]
      exact hbare
    · rw [hcore]
      exact hprobed
  · unfold Store.Decided
    rw [hlog, hcore]
    exact hknows.decided (straight_of_apply hstraight) hyes
  · unfold Store.Decided
    rw [hlog, hcore]
    exact (hknows.follows st hst).decided hyes (straight_of_apply hstraight)
  · rw [hstate]
    exact (hknows.follows st hst).outside hno

/-- The transaction neither takes up the case nor does anything that only a job at work does. -/
def Txn.thrifty (t : Txn) : Bool :=
  !t.starts && t.insert.isNone && t.executions.isEmpty && t.snapshots.isEmpty &&
    t.moves.all (fun m => !decide (m.dst = .remediationCreateIntent))

structure Txn.Thrifty (t : Txn) : Prop where
  starts : t.starts = false
  insert : t.insert = none
  executions : t.executions = []
  snapshots : t.snapshots = []
  enters : ¬ t.enters

theorem Txn.Thrifty.of_thrifty (h : t.thrifty = true) : t.Thrifty := by
  simp only [Txn.thrifty, Bool.and_eq_true, Bool.not_eq_true', Option.isNone_iff_eq_none,
    List.isEmpty_iff, List.all_eq_true, decide_eq_false_iff_not] at h
  obtain ⟨⟨⟨⟨hstarts, hinsert⟩, hexecutions⟩, hsnapshots⟩, hmoves⟩ := h
  exact ⟨hstarts, hinsert, hexecutions, hsnapshots, fun ⟨m, hm, hdst⟩ => hmoves m hm hdst⟩

theorem Txn.Thrifty.busy (h : t.Thrifty) : ¬ t.Busy := by
  rintro (hinsert | hsnapshots | hexecutions | henters)
  · rw [h.insert] at hinsert
    cases hinsert
  · exact hsnapshots h.snapshots
  · exact hexecutions h.executions
  · exact h.enters henters

/-- A calm transaction that spends nothing is thrifty. -/
theorem thrifty_of_calm {slots : Bool} (h : t.calm slots false = true) : t.thrifty = true := by
  have hmoves : t.moves.all (fun m => !decide (m.dst = .remediationCreateIntent)) = true := by
    simp only [Txn.calm, Bool.and_eq_true, List.all_eq_true] at h
    refine List.all_eq_true.mpr (fun m hm => ?_)
    have hcalm := h.1.1.1.1.1.1.2 m hm
    simp only [Move.calm, Bool.and_eq_true] at hcalm
    simpa using calm_dst hcalm.1
  simp only [Txn.calm, Bool.and_eq_true, Bool.or_false] at h
  simp [Txn.thrifty, h, hmoves]

theorem Informed.thrifty (h : Informed o k s) (hvalid : movesOk t.moves s.case = true)
    (ht : t.thrifty = true) : Informed o k ((Op.commit o' t).apply s) := by
  have ht := Txn.Thrifty.of_thrifty ht
  refine h.commit hvalid ht.starts ht.insert ht.snapshots (fun x hx => ?_) ht.enters
  rw [ht.executions] at hx
  cases hx

variable {cfg : Settings}

/-- A transaction that inserts no attempt. -/
theorem spends_of_none (hvalid : movesOk t.moves s.case = true) (h : t.insert = none)
    (hstarts : t.starts = true → o' = o)
    (hworks : s.alone → t.Busy → s.history.atWork = some o)
    (hruns : ∀ x ∈ t.executions, x.target = .base → x.attemptId = none)
    (hprobes : s.alone → t.snapshots ≠ [] ∨ (∃ x ∈ t.executions, x.target = .base) →
      (movesEnd t.moves s.case.state).dispatched = false) :
    t.Spends cfg o o' s := by
  have hnone : ∀ n, t.insert ≠ some n := by
    intro n hn
    rw [h] at hn
    cases hn
  refine ⟨hvalid, ?_, hstarts, fun n hn => absurd hn (hnone n), fun n hn => absurd hn (hnone n),
    hworks, fun _ n hn => absurd hn (hnone n), hruns, hprobes, fun _ n hn => absurd hn (hnone n)⟩
  unfold Txn.unique
  rw [h]

theorem spends_of_thrifty (hvalid : movesOk t.moves s.case = true) (h : t.thrifty = true) :
    t.Spends cfg o o' s := by
  have h := Txn.Thrifty.of_thrifty h
  have hruns : ∀ x, x ∉ t.executions := by
    intro x hx
    rw [h.executions] at hx
    cases hx
  refine spends_of_none hvalid h.insert (fun hyes => ?_) (fun _ hbusy => absurd hbusy h.busy)
    (fun x hx => absurd hx (hruns x)) (fun _ hprobe => ?_)
  · rw [h.starts] at hyes
    cases hyes
  · rcases hprobe with hsnapshots | ⟨x, hx, -⟩
    · exact absurd h.snapshots hsnapshots
    · exact absurd hx (hruns x)

/-- The others do nothing of it while one job works on the case. -/
theorem informed_stable (cfg : Settings) (o : Owner) (k : Knowledge) :
    Stable (system cfg) (spendContract cfg) o (Informed o k) := by
  intro s op _ h hop
  cases hop with
  | @other o' _ hne hallowed =>
      cases op with
      | commit o'' t =>
          have hspends : t.Spends cfg o' o'' s := hallowed
          intro halone
          have hbefore := alone_of_apply halone
          have hwork := (h hbefore).works
          have hidle : ¬ t.Busy := by
            intro hbusy
            have hother := hspends.works hbefore hbusy
            rw [hwork] at hother
            exact hne (Option.some.inj hother).symm
          unfold Txn.Busy at hidle
          push Not at hidle
          obtain ⟨hinsert, hsnapshots, hexecutions, henters⟩ := hidle
          refine h.commit hspends.valid ?_ ?_ hsnapshots (fun x hx => ?_) henters halone
          · have hcrowd := (not_hit_apply halone).2 .crowded (List.mem_singleton.mpr rfl)
            simpa [Op.incident, Txn.incident, hwork] using hcrowd
          · simpa using hinsert
          · rw [hexecutions] at hx
            cases hx
      | leave o'' => exact absurd hallowed not_false
      | heartbeat o'' n => exact h.still rfl (heartbeat_state o'' n s) rfl rfl rfl
      | _ => exact h.still rfl rfl rfl rfl rfl
  | @leave o' hne =>
      intro halone
      have hbefore := alone_of_apply halone
      refine h.still ?_ rfl rfl rfl rfl halone
      show (if s.history.atWork = some o' then none else s.history.atWork) = s.history.atWork
      rw [(h hbefore).works, if_neg (fun heq => hne (Option.some.inj heq).symm)]
  | env henv =>
      cases op with
      | commit o'' t => cases henv
      | leave o'' => cases henv
      | heartbeat o'' n => exact h.still rfl (heartbeat_state o'' n s) rfl rfl rfl
      | _ => exact h.still rfl rfl rfl rfl rfl

end Steps

/-! ## Proof rules -/

section Rules

variable {cfg : Settings} {o : Owner} {α β : Type} {k : Knowledge}

theorem Frugal.ret (a : α) : Frugal cfg o (.ret a) := fun _ _ hs => hs

theorem Frugal.raise (e : Err) : Frugal cfg o (.raise e : P α) := fun _ _ hs => hs

theorem Frugal.bind {p : P α} {k : α → P β} (hp : Frugal cfg o p)
    (hk : ∀ a, Frugal cfg o (k a)) : Frugal cfg o (p >>= k) :=
  Safe.bind hp hk

theorem Frugal.ite {c : Prop} [Decidable c] {p q : P α} (hp : c → Frugal cfg o p)
    (hq : ¬ c → Frugal cfg o q) : Frugal cfg o (if c then p else q) := by
  split
  · next h => exact hp h
  · next h => exact hq h

/-- A job at work that makes neither attempts nor runs. -/
theorem Thrifty.keeps {p : P α} (h : Thrifty p) :
    Safe (system cfg) (spendContract cfg) o p (Informed o k) (fun _ => Informed o k)
      (fun _ => Informed o {}) := by
  refine (Safe.of_each_keep (informed_stable cfg o k) (fun s op _ hs hop => ?_) h).conseq
    (fun _ _ hs => hs) (fun _ _ _ hs => hs.2) (fun _ _ _ hs => hs.2.drop)
  cases op with
  | commit o' t =>
      simp only [Op.calm, Bool.and_eq_true] at hop
      have hthrifty := thrifty_of_calm hop.1
      exact ⟨spends_of_thrifty hop.2 hthrifty, hs.thrifty hop.2 hthrifty⟩
  | post o' a r => cases hop
  | leave o' => cases hop
  | skip => exact ⟨trivial, hs.still rfl rfl rfl rfl rfl⟩
  | get => exact ⟨trivial, hs.still rfl rfl rfl rfl rfl⟩
  | delete => exact ⟨trivial, hs.still rfl rfl rfl rfl rfl⟩
  | find => exact ⟨trivial, hs.still rfl rfl rfl rfl rfl⟩
  | _ => cases hop

theorem Thrifty.frugal {p : P α} (h : Thrifty p) : Frugal cfg o p := h.keeps

/-- A program from which nothing is known that does not have to be at work. -/
theorem Outer.frugal {p : P α} (h : Outer p) :
    Safe (system cfg) (spendContract cfg) o p (fun _ => True) (fun _ _ => True)
      (fun _ _ => True) := by
  refine Safe.of_each (fun s op _ hop => ?_) h
  cases op with
  | commit o' t =>
      simp only [Op.outer, Txn.outer, Bool.and_eq_true] at hop
      have hthrifty : t.thrifty = true := by simp [Txn.thrifty, hop]
      exact spends_of_thrifty hop.2 hthrifty
  | post o' a r => cases hop
  | leave o' => cases hop
  | _ => trivial

/-- One transaction of the job. -/
theorem spend_tx {Q : α → Store → Prop} {body : Input → Store → Except Err (Txn × α)}
    (hQ : ∀ a, Stable (system cfg) (spendContract cfg) o (Q a))
    (h : ∀ i s t a, Informed o k s → body i s = .ok (t, a) → movesOk t.moves s.case = true →
      t.unique s.core = true → t.Spends cfg o o s ∧ Q a ((Op.commit o t).apply s)) :
    Safe (system cfg) (spendContract cfg) o (Remediator.tx o body) (Informed o k) Q
      (fun _ => Informed o {}) :=
  safe_tx (fun _ => trivial) (informed_stable cfg o {})
    (fun _ hs => hs.drop.still rfl rfl rfl rfl rfl) hQ
    (fun i s t a _ hs hbody hvalid hunique => h i s t a hs hbody hvalid hunique)

theorem Frugal.tx {body : Input → Store → Except Err (Txn × α)}
    (h : ∀ i s t a, body i s = .ok (t, a) → t.thrifty = true) :
    Frugal cfg o (Remediator.tx o body) :=
  spend_tx (fun _ => informed_stable cfg o {}) (fun i s t a hs hbody hvalid _ =>
    ⟨spends_of_thrifty hvalid (h i s t a hbody), hs.thrifty hvalid (h i s t a hbody)⟩)

/-- The others leave it to the thread to send its request. -/
theorem inserted_stable (cfg : Settings) (o : Owner) (a : Nat) :
    Stable (system cfg) (spendContract cfg) o (Inserted o a) := by
  intro s op _ h hop
  cases hop with
  | @other o' _ hne hallowed =>
      cases op with
      | commit o'' t =>
          have hspends : t.Spends cfg o' o'' s := hallowed
          show ((Op.commit o'' t).apply s).history.inserted o = some a
          rw [commit_inserted, if_neg]
          · exact h
          · rintro ⟨rfl, hsome⟩
            obtain ⟨n, hn⟩ := Option.isSome_iff_exists.mp hsome
            exact hne (hspends.own n hn).symm
      | post o'' b r =>
          obtain ⟨rfl, -⟩ : o'' = o' ∧ _ := hallowed
          show (if o = o'' then none else s.history.inserted o) = some a
          rw [if_neg (Ne.symm hne)]
          exact h
      | leave o'' => exact absurd hallowed not_false
      | _ => exact h
  | @leave o' hne =>
      show (if o = o' then none else s.history.inserted o) = some a
      rw [if_neg (Ne.symm hne)]
      exact h
  | env henv =>
      cases op with
      | commit o'' t => cases henv
      | post o'' b r => cases henv
      | leave o'' => cases henv
      | _ => exact h

theorem Inserted.commit {a : Nat} {t : Txn} {s : Store} (h : Inserted o a s)
    (hnone : t.insert = none) : Inserted o a ((Op.commit o t).apply s) := by
  unfold Inserted
  rw [commit_inserted, hnone, if_neg (by simp)]
  exact h

end Rules

end Remediator
