import Remediator.Queue.Outsiders

set_option autoImplicit false

/-! # What a dispatch decides

A case comes to `REMEDIATION_CREATE_INTENT` by a dispatch with a probe, from
`PROBE_VALIDATING_BASE`, or without one, from `REMEDIATION_APPROVED`. Which of them it was is the
last entry of that kind in the log. `_load_context` does not read it: it goes by the snapshots and
runs that the case has.
-/

namespace Remediator

/-! ## The last dispatch -/

/-- The states of a case between its dispatch and the end of the session, unless the session is to
be ended. -/
def CaseState.dispatched : CaseState → Bool
  | .remediationCreateIntent | .remediationReconcilingCreate | .remediating => true
  | _ => false

/-- The attempt is one that the last dispatch leads to: without a probe it has none, and is pinned
to the commit of the decision that was recorded for the hash of its round; a verified one is from a
dispatch with a probe. -/
structure Store.DispatchedAs (s : Store) (a : Attempt) : Prop where
  bare : intentFrom s.log = some .remediationApproved →
    a.probeStatus = .notConfigured ∧ a.probeSnapshotId = none ∧
      ∃ (id : Nat) (r : ApprovalRequest) (d : ProbePolicyDecision),
        a.approvalRequestId = some id ∧ s.approvals[id]? = some r ∧
          a.triageResultHash = some r.triageResultHash ∧
          probePolicyDecision s.core r.triageResultHash = some d ∧ a.baseSha = some d.baseSha
  verified : a.probeStatus = .verified → intentFrom s.log = some .probeValidatingBase

/-- One job at a time has worked on the case, it was not dispatched without a probe while a run was
free, and no job that was to end its sessions has created one for such a run. -/
def Store.straight (s : Store) : Prop := ¬ s.hit [.crowded, .bareWithRun, .createdTerminating]

/-- A run that is free is one that the last dispatch was for. -/
def Store.Decided (s : Store) : Prop :=
  s.core.freeRun = true → intentFrom s.log = some .probeValidatingBase

/-! ## The log -/

theorem intentFrom_append (log rows : List StateTransition) :
    intentFrom (log ++ rows) = (intentFrom rows).or (intentFrom log) := by
  unfold intentFrom
  rw [List.filter_append, List.getLast?_append, Option.map_or]

theorem intentFrom_eq_none {rows : List StateTransition}
    (h : ∀ x ∈ rows, x.dst ≠ .remediationCreateIntent) : intentFrom rows = none := by
  unfold intentFrom
  rw [List.filter_eq_nil_iff.mpr (fun x hx => by simpa using h x hx)]
  rfl

theorem intentFrom_some {rows : List StateTransition} {st : CaseState}
    (h : intentFrom rows = some st) :
    ∃ x ∈ rows, x.dst = .remediationCreateIntent ∧ x.src = st := by
  obtain ⟨x, hx, rfl⟩ := Option.map_eq_some_iff.mp h
  obtain ⟨hmem, hdst⟩ := List.mem_filter.mp (List.mem_of_getLast? hx)
  exact ⟨x, hmem, of_decide_eq_true hdst, rfl⟩

/-- The entries that a transaction adds. -/
def Txn.rows (t : Txn) : List StateTransition := t.moves.map (fun m => ⟨m.src, m.dst, m.actor⟩)

/-- The transaction moves the case to `REMEDIATION_CREATE_INTENT`. -/
def Txn.enters (t : Txn) : Prop := ∃ m ∈ t.moves, m.dst = .remediationCreateIntent

theorem intentFrom_rows {t : Txn} (h : ¬ t.enters) : intentFrom t.rows = none := by
  refine intentFrom_eq_none (fun x hx hdst => ?_)
  obtain ⟨m, hm, rfl⟩ := List.mem_map.mp hx
  exact h ⟨m, hm, hdst⟩

theorem intentFrom_commit {o : Owner} {t : Txn} {s : Store} (h : ¬ t.enters) :
    intentFrom ((Op.commit o t).apply s).log = intentFrom s.log := by
  show intentFrom (s.log ++ t.rows) = intentFrom s.log
  rw [intentFrom_append, intentFrom_rows h]
  rfl

theorem rows_entered {t : Txn} (h : t.enters) : intentFrom t.rows ≠ none := by
  obtain ⟨m, hm, hdst⟩ := h
  unfold intentFrom
  intro hnone
  have hnil := List.getLast?_eq_none_iff.mp (Option.map_eq_none_iff.mp hnone)
  exact List.filter_eq_nil_iff.mp hnil ⟨m.src, m.dst, m.actor⟩
    (List.mem_map.mpr ⟨m, hm, rfl⟩) (by simpa using hdst)

/-! ## The transitions -/

/-- There are two ways to the state. -/
theorem allowed_intent (src : CaseState) (probeNotConfigured : Bool)
    (h : .remediationCreateIntent ∈ src.allowed probeNotConfigured) :
    src = .probeValidatingBase ∨ src = .remediationApproved := by
  revert h
  cases src <;> cases probeNotConfigured <;> decide

/-- There is no other way into the states after it. -/
theorem allowed_dispatched (src : CaseState) (probeNotConfigured : Bool) :
    ∀ dst ∈ src.allowed probeNotConfigured, dst.dispatched = true →
      dst ≠ .remediationCreateIntent → src.dispatched = true := by
  cases src <;> cases probeNotConfigured <;> decide

theorem movesOk_allowed {ms : List Move} {c : Case} (h : movesOk ms c = true) :
    ∀ m ∈ ms, m.dst ∈ m.src.allowed m.probeNotConfigured := by
  induction ms generalizing c with
  | nil => exact fun m hm => by cases hm
  | cons m ms ih =>
      simp only [movesOk, Move.ok, Bool.and_eq_true, decide_eq_true_eq] at h
      intro m' hm'
      rcases List.mem_cons.mp hm' with rfl | hm'
      · exact h.1.1.2
      · exact ih h.2 m' hm'

/-- A case that is dispatched after the moves was so before them, or was moved to
`REMEDIATION_CREATE_INTENT`. -/
theorem dispatched_before {ms : List Move} {c : Case} (h : movesOk ms c = true)
    (hnot : ∀ m ∈ ms, m.dst ≠ .remediationCreateIntent)
    (hend : (movesEnd ms c.state).dispatched = true) : c.state.dispatched = true := by
  induction ms generalizing c with
  | nil => exact hend
  | cons m ms ih =>
      simp only [movesOk, Move.ok, Bool.and_eq_true, decide_eq_true_eq] at h
      have hdst : m.dst.dispatched = true :=
        ih h.2 (fun m' hm' => hnot m' (List.mem_cons_of_mem _ hm')) hend
      rw [h.1.1.1]
      exact allowed_dispatched m.src m.probeNotConfigured m.dst h.1.1.2 hdst
        (hnot m List.mem_cons_self)

/-! ## Free runs -/

theorem freeRun_iff {c : Core} : c.freeRun = true ↔ ∃ p, c.snapshots.getLast? = some p ∧
    ∃ x ∈ c.executions, x.probeSnapshotId = c.snapshots.length - 1 ∧ x.target = .base ∧
      x.verdict = .matched ∧ x.commitSha = p.baseSha ∧ x.scriptHash = p.scriptHash ∧
      x.attemptId = none := by
  unfold Core.freeRun
  cases c.snapshots.getLast? with
  | none => simp
  | some p => simp [and_assoc]

/-- What `_matched_base_execution` finds for the newest probe is free. -/
theorem freeRun_of_matched {c : Core} {probe : Nat × ProbeSnapshot} {e : Nat}
    (hprobe : latestProbeSnapshot c = some probe) (h : matchedBaseExecution c probe = some e) :
    c.freeRun = true := by
  obtain ⟨p, hp, rfl⟩ := Option.map_eq_some_iff.mp hprobe
  have hmem := (List.mem_filter.mp (List.mem_of_getLast? h)).2
  split at hmem
  · next x hx =>
      simp only [Bool.and_eq_true, decide_eq_true_eq, Option.isNone_iff_eq_none] at hmem
      obtain ⟨⟨⟨⟨⟨hsnapshot, htarget⟩, hverdict⟩, hcommit⟩, hscript⟩, hfree⟩ := hmem
      exact freeRun_iff.mpr ⟨p, hp, x, List.mem_of_getElem? hx, hsnapshot, htarget, hverdict,
        hcommit, hscript, hfree⟩
  · cases hmem

/-! ## The recorded decision -/

theorem approvedRequest_get {approvals : List ApprovalRequest} {as : List Attempt} {id : Nat}
    {r : ApprovalRequest} (h : approvedRequest approvals as = some (id, r)) :
    approvals[id]? = some r := by
  unfold approvedRequest at h
  split at h
  · next req hlast =>
      split at h
      · cases h
        rw [← List.getLast?_eq_getElem?]
        exact hlast
      · cases h
  · cases h

theorem probePolicyDecision_commit {o : Owner} {t : Txn} {s : Store} {hash : String}
    {d : ProbePolicyDecision} (h : probePolicyDecision s.core hash = some d) :
    probePolicyDecision ((Op.commit o t).apply s).core hash = some d := by
  show (s.core.decisions ++ t.decisions).find? _ = some d
  rw [List.find?_append]
  unfold probePolicyDecision at h
  rw [h]
  rfl

/-- A round keeps its hash. -/
theorem approval_commit {o : Owner} {t : Txn} {s : Store} {id : Nat} {r : ApprovalRequest}
    (h : s.approvals[id]? = some r) :
    ∃ r', ((Op.commit o t).apply s).approvals[id]? = some r' ∧
      r'.triageResultHash = r.triageResultHash := by
  obtain ⟨r', hr', hhash⟩ := flush_rel ApprovalRequest.merge
    (R := fun x y => y.triageResultHash = x.triageResultHash) (fun _ => rfl)
    (fun _ _ _ h₁ h₂ => h₂.trans h₁) (fun _ _ _ _ => rfl) h
  refine ⟨r', ?_, hhash⟩
  obtain ⟨hlt, hget⟩ := List.getElem?_eq_some_iff.mp hr'
  rw [commit_approvals, List.getElem?_append_left hlt]
  exact hr'

end Remediator
