import Mathlib.Data.List.Perm.Basic
import Mathlib.Data.List.Sort
import Remediator.Lib.OrderedDict
import Remediator.Worker.Stages

set_option autoImplicit false

/-! # The evaluation of check runs

`evaluate_checks` collapses the reported runs into a dictionary by name and classifies the run
that is left under each relevant name. `report` is the function with everything it returns;
`evaluateChecks`, which the pipeline branches on, is its overall state.

Of several runs with one name the dictionary keeps the first. The overall state therefore is a
function of the reported runs, and not of the order in which GitHub lists them, exactly when the
runs that share a relevant name cannot change it: `Decisive`.
-/

namespace Remediator.Checks

/-! ## What `evaluate_checks` returns -/

structure Report where
  overall : CiOverall
  missing : List String
  summary : String

/-- The names classified by the loop, with what the summary says of the failed ones. -/
structure Tally where
  failed : List String := []
  pending : List String := []
  passed : List String := []

/-- `by_name`. -/
def byName (checks : List CheckRun) : List (String × CheckRun) :=
  checks.foldl (fun d observed => OrderedDict.setdefault observed.name observed d) []

/-- The text of `run.conclusion` in the summary. -/
def conclusionText (run : CheckRun) : String := run.conclusion.getD "None"

/-- One round of the loop; `explicit` says that a list of required checks is configured. -/
def Tally.add (d : List (String × CheckRun)) (explicit : Bool) (t : Tally) (name : String) :
    Tally :=
  match List.lookup name d with
  | none => t
  | some run =>
      if run.status ≠ "completed" then { t with pending := t.pending ++ [name] }
      else if run.conclusion = some "success" then { t with passed := t.passed ++ [name] }
      else if run.conclusion = some "neutral" ∨ run.conclusion = some "skipped" then
        if explicit = false then { t with passed := t.passed ++ [name] }
        else { t with failed := t.failed ++ [name ++ " (" ++ conclusionText run ++ "; required)"] }
      else { t with failed := t.failed ++ [name ++ " (" ++ conclusionText run ++ ")"] }

def nameLe (a b : String) : Bool := decide (a ≤ b)

/-- `required_names`. -/
def requiredNames (d : List (String × CheckRun)) (required : List String) : List String :=
  if required.isEmpty then (d.map (·.1)).mergeSort nameLe else required

/-- The summary of an evaluation that waits. -/
def waiting (pending missing : List String) : String :=
  "; ".intercalate
    ((if pending.isEmpty then [] else ["pending: " ++ ", ".intercalate pending]) ++
      (if missing.isEmpty then [] else ["missing required: " ++ ", ".intercalate missing]))

/-- `evaluate_checks`. -/
def report (checks : List CheckRun) (required : List String) : Report :=
  if checks.isEmpty then ⟨.absent, required, "no check runs reported for this commit"⟩
  else
    let d := byName checks
    let names := requiredNames d required
    let missing := names.filter (fun name => (List.lookup name d).isNone)
    let t := names.foldl (Tally.add d (!required.isEmpty)) {}
    if t.failed.isEmpty = false then
      ⟨.failed, missing, "failed: " ++ ", ".intercalate t.failed⟩
    else if t.pending.isEmpty = false ∨ missing.isEmpty = false then
      ⟨.pending, missing, waiting t.pending missing⟩
    else ⟨.passed, [], "passed: " ++ ", ".intercalate t.passed⟩

/-! ## The report and the verdict of the pipeline -/

theorem lookup_byName (checks : List CheckRun) (name : String) :
    List.lookup name (byName checks) = firstRun checks name := by
  have hfold : ∀ (runs : List CheckRun) (d : List (String × CheckRun)),
      List.lookup name (runs.foldl
        (fun d observed => OrderedDict.setdefault observed.name observed d) d) =
      (List.lookup name d).or (firstRun runs name) := by
    intro runs
    induction runs with
    | nil => exact fun d => (Option.or_none).symm
    | cons run runs ih =>
        intro d
        rw [List.foldl_cons, ih, OrderedDict.lookup_setdefault, Option.or_assoc]
        congr 1
        unfold firstRun
        by_cases hname : run.name = name
        · rw [if_pos hname.symm, Option.some_or, List.find?_cons_of_pos (by simpa using hname)]
        · rw [if_neg (Ne.symm hname), Option.none_or,
            List.find?_cons_of_neg (by simpa using hname)]
  exact hfold checks []

theorem firstRun_isSome {checks : List CheckRun} {name : String} :
    (firstRun checks name).isSome = true ↔ name ∈ checks.map (·.name) := by
  unfold firstRun
  rw [List.find?_isSome, List.mem_map]
  simp only [decide_eq_true_eq]

theorem judgeCheck_missing {explicit : Bool} {run : Option CheckRun} :
    judgeCheck explicit run = .missing ↔ run = none := by
  cases run with
  | none => exact ⟨fun _ => rfl, fun _ => rfl⟩
  | some run =>
      unfold judgeCheck
      constructor
      · intro h
        dsimp only at h
        split_ifs at h
      · exact nofun

theorem Tally.add_failed (d : List (String × CheckRun)) (explicit : Bool) (t : Tally)
    (name : String) : (t.add d explicit name).failed = [] ↔
      t.failed = [] ∧ judgeCheck explicit (List.lookup name d) ≠ .failed := by
  unfold Tally.add judgeCheck
  cases List.lookup name d with
  | none => simp
  | some run =>
      cases explicit with
      | true => dsimp only; split_ifs <;> simp_all
      | false => dsimp only; split_ifs <;> simp_all

theorem Tally.add_pending (d : List (String × CheckRun)) (explicit : Bool) (t : Tally)
    (name : String) : (t.add d explicit name).pending = [] ↔
      t.pending = [] ∧ judgeCheck explicit (List.lookup name d) ≠ .pending := by
  unfold Tally.add judgeCheck
  cases List.lookup name d with
  | none => simp
  | some run =>
      cases explicit with
      | true => dsimp only; split_ifs <;> simp_all
      | false => dsimp only; split_ifs <;> simp_all

/-- A list that one round extends exactly on a verdict stays empty when no name gets it. -/
theorem Tally.foldl_nil (d : List (String × CheckRun)) (explicit : Bool) (verdict : CheckVerdict)
    (part : Tally → List String)
    (hadd : ∀ t name, part (Tally.add d explicit t name) = [] ↔
      part t = [] ∧ judgeCheck explicit (List.lookup name d) ≠ verdict)
    (names : List String) (t : Tally) :
    part (names.foldl (Tally.add d explicit) t) = [] ↔
      part t = [] ∧ ∀ name ∈ names, judgeCheck explicit (List.lookup name d) ≠ verdict := by
  induction names generalizing t with
  | nil => simp
  | cons name names ih =>
      rw [List.foldl_cons, ih, hadd, List.forall_mem_cons, and_assoc]

/-- The names that count. -/
def names (checks : List CheckRun) (required : List String) : List String :=
  if required.isEmpty then checks.map (·.name) else required

/-- How the first run of a name that counts is judged. -/
def verdict (checks : List CheckRun) (required : List String) (name : String) : CheckVerdict :=
  judgeCheck (!required.isEmpty) (firstRun checks name)

theorem evaluateChecks_eq (checks : List CheckRun) (required : List String) :
    evaluateChecks checks required =
      if checks = [] then .absent
      else if ∃ name ∈ names checks required, verdict checks required name = .failed then .failed
      else if ∃ name ∈ names checks required, verdict checks required name = .pending ∨
          verdict checks required name = .missing then .pending
      else .passed := by
  have hmem : ∀ v, ((names checks required).map (verdict checks required)).contains v = true ↔
      ∃ name ∈ names checks required, verdict checks required name = v := by
    intro v
    rw [List.contains_iff_mem, List.mem_map]
  change (if checks.isEmpty then CiOverall.absent
    else if ((names checks required).map (verdict checks required)).contains .failed then .failed
    else if ((names checks required).map (verdict checks required)).contains .pending ||
        ((names checks required).map (verdict checks required)).contains .missing then .pending
    else .passed) = _
  simp only [List.isEmpty_iff, hmem, Bool.or_eq_true, ← exists_or, ← and_or_left]

theorem mem_requiredNames (checks : List CheckRun) (required : List String) (name : String) :
    name ∈ requiredNames (byName checks) required ↔ name ∈ names checks required := by
  unfold requiredNames names
  split
  · rw [List.mem_mergeSort, OrderedDict.mem_keys_iff, lookup_byName, firstRun_isSome]
  · rfl

/-- **The pipeline branches on the overall state of the report.** -/
theorem report_overall (checks : List CheckRun) (required : List String) :
    (report checks required).overall = evaluateChecks checks required := by
  rw [evaluateChecks_eq]
  unfold report
  by_cases hnil : checks = []
  · rw [if_pos hnil, if_pos (List.isEmpty_iff.mpr hnil)]
  rw [if_neg hnil, if_neg (by simpa [List.isEmpty_iff] using hnil)]
  have hfailed := Tally.foldl_nil (byName checks) (!required.isEmpty) .failed (·.failed)
    (Tally.add_failed _ _) (requiredNames (byName checks) required) {}
  have hpending := Tally.foldl_nil (byName checks) (!required.isEmpty) .pending (·.pending)
    (Tally.add_pending _ _) (requiredNames (byName checks) required) {}
  have hmissing : ((requiredNames (byName checks) required).filter
      (fun name => (List.lookup name (byName checks)).isNone)) = [] ↔
        ∀ name ∈ names checks required, verdict checks required name ≠ .missing := by
    rw [List.filter_eq_nil_iff]
    simp only [mem_requiredNames, lookup_byName, Option.isNone_iff_eq_none, verdict, ne_eq,
      judgeCheck_missing]
  simp only [mem_requiredNames, lookup_byName, true_and] at hfailed hpending
  change (_ ↔ ∀ name ∈ names checks required, verdict checks required name ≠ .failed) at hfailed
  change (_ ↔ ∀ name ∈ names checks required, verdict checks required name ≠ .pending) at hpending
  dsimp only
  simp only [List.isEmpty_eq_false_iff, ne_eq, hfailed, hpending, hmissing]
  by_cases hf : ∃ name ∈ names checks required, verdict checks required name = .failed
  · rw [if_pos (by simpa using hf), if_pos hf]
  rw [if_neg (by simpa using hf), if_neg hf]
  by_cases hp : ∃ name ∈ names checks required, verdict checks required name = .pending ∨
      verdict checks required name = .missing
  · rw [if_pos (by grind), if_pos hp]
  · rw [if_neg (by grind), if_neg hp]

/-! ## When the order of the runs does not matter -/

/-- The runs that count: all of them, or those that carry a required name. -/
def Relevant (required : List String) (run : CheckRun) : Prop :=
  required = [] ∨ run.name ∈ required

/-- A conclusion that lets a completed run pass: the neutral ones only without a required list. -/
def Accepted (required : List String) (conclusion : Option String) : Prop :=
  conclusion = some "success" ∨
    required = [] ∧ (conclusion = some "neutral" ∨ conclusion = some "skipped")

/-- What a success has to mean. -/
def AllPass (checks : List CheckRun) (required : List String) : Prop :=
  checks ≠ [] ∧
    (required = [] → ∀ run ∈ checks, run.status = "completed" ∧
      (run.conclusion = some "success" ∨ run.conclusion = some "neutral" ∨
        run.conclusion = some "skipped")) ∧
    (required ≠ [] → ∀ name ∈ required, (∃ run ∈ checks, run.name = name) ∧
      ∀ run ∈ checks, run.name = name →
        run.status = "completed" ∧ run.conclusion = some "success")

/-- The evaluation of these runs is exact and does not depend on their order. -/
structure Exact (checks : List CheckRun) (required : List String) : Prop where
  success : (report checks required).overall = .passed ↔ AllPass checks required
  failure : ∀ run ∈ checks, Relevant required run → run.status = "completed" →
    ¬Accepted required run.conclusion → (report checks required).overall = .failed
  order : ∀ checks', checks'.Perm checks →
    (report checks' required).overall = (report checks required).overall

/-- The runs decide the overall state whatever their order: some name that counts has runs and
all of them failed; or no run that counts failed, and either some name that counts has no
completed run or every run that counts is completed. -/
def Decisive (checks : List CheckRun) (required : List String) : Prop :=
  (∃ name ∈ names checks required, (∃ run ∈ checks, run.name = name) ∧
      ∀ run ∈ checks, run.name = name →
        run.status = "completed" ∧ ¬Accepted required run.conclusion) ∨
    (∀ run ∈ checks, Relevant required run → run.status = "completed" →
        Accepted required run.conclusion) ∧
      ((∃ name ∈ names checks required, ∀ run ∈ checks, run.name = name →
          run.status ≠ "completed") ∨
        ∀ run ∈ checks, Relevant required run → run.status = "completed")

/-- How one run counts by itself. -/
def judge (required : List String) (run : CheckRun) : CheckVerdict :=
  judgeCheck (!required.isEmpty) (some run)

theorem judge_pending {required : List String} {run : CheckRun} :
    judge required run = .pending ↔ run.status ≠ "completed" := by
  unfold judge judgeCheck
  dsimp only
  split_ifs with hstatus <;> simp [hstatus]

theorem judge_failed {required : List String} {run : CheckRun} :
    judge required run = .failed ↔ run.status = "completed" ∧ ¬Accepted required run.conclusion := by
  unfold judge judgeCheck Accepted
  dsimp only
  split_ifs with hstatus hsuccess hneutral
  · exact ⟨nofun, fun h => absurd h.1 hstatus⟩
  · exact ⟨nofun, fun h => absurd (Or.inl hsuccess) h.2⟩
  · exact ⟨nofun, fun h => absurd (Or.inr ⟨by simpa using hneutral.2, hneutral.1⟩) h.2⟩
  · refine ⟨fun _ => ⟨not_not.mp hstatus, ?_⟩, fun _ => rfl⟩
    rintro (h | ⟨hnone, h⟩)
    · exact hsuccess h
    · exact hneutral ⟨h, by rw [hnone]; rfl⟩

theorem judge_passed {required : List String} {run : CheckRun} :
    judge required run = .passed ↔ run.status = "completed" ∧ Accepted required run.conclusion := by
  have hp := @judge_pending required run
  have hf := @judge_failed required run
  have hm : judge required run ≠ .missing := fun h => by
    cases judgeCheck_missing.mp h
  cases hj : judge required run with
  | missing => exact absurd hj hm
  | pending =>
      rw [hj] at hp
      exact ⟨nofun, fun h => absurd h.1 (hp.mp rfl)⟩
  | failed =>
      rw [hj] at hf
      exact ⟨nofun, fun h => absurd h.2 (hf.mp rfl).2⟩
  | passed =>
      rw [hj] at hp hf
      have hdone : run.status = "completed" := by
        by_contra h
        cases hp.mpr h
      refine ⟨fun _ => ⟨hdone, ?_⟩, fun _ => rfl⟩
      by_contra h
      cases hf.mpr ⟨hdone, h⟩

theorem mem_names {checks : List CheckRun} {required : List String} {run : CheckRun}
    (hrun : run ∈ checks) : run.name ∈ names checks required ↔ Relevant required run := by
  unfold names Relevant
  by_cases hnil : required = []
  · rw [if_pos (List.isEmpty_iff.mpr hnil)]
    exact ⟨fun _ => Or.inl hnil, fun _ => List.mem_map_of_mem hrun⟩
  · rw [if_neg (by simpa [List.isEmpty_iff] using hnil)]
    exact ⟨Or.inr, fun h => h.resolve_left hnil⟩

theorem names_perm {checks checks' : List CheckRun} (h : checks'.Perm checks)
    (required : List String) (name : String) :
    name ∈ names checks' required ↔ name ∈ names checks required := by
  unfold names
  split
  · exact (h.map _).mem_iff
  · rfl

theorem verdict_some {checks : List CheckRun} {required : List String} {name : String}
    {run : CheckRun} (h : firstRun checks name = some run) :
    run ∈ checks ∧ run.name = name ∧ verdict checks required name = judge required run := by
  refine ⟨List.mem_of_find?_eq_some h, ?_, ?_⟩
  · simpa using List.find?_some h
  · unfold verdict
    rw [h]
    rfl

/-- A name without a run is missing; otherwise one of its runs is judged. -/
theorem verdict_cases (checks : List CheckRun) (required : List String) (name : String) :
    (verdict checks required name = .missing ∧ ∀ run ∈ checks, run.name ≠ name) ∨
      ∃ run ∈ checks, run.name = name ∧ verdict checks required name = judge required run := by
  cases hfirst : firstRun checks name with
  | none =>
      refine Or.inl ⟨judgeCheck_missing.mpr hfirst, ?_⟩
      intro run hrun hname
      have hsome := firstRun_isSome.mpr (List.mem_map.mpr ⟨run, hrun, hname⟩)
      rw [hfirst] at hsome
      cases hsome
  | some run =>
      obtain ⟨hrun, hname, hv⟩ := @verdict_some _ required _ _ hfirst
      exact Or.inr ⟨run, hrun, hname, hv⟩

/-- The runs with those that `first` selects in front. -/
def upfront (first : CheckRun → Bool) (checks : List CheckRun) : List CheckRun :=
  checks.filter first ++ checks.filter (fun run => !first run)

theorem upfront_perm (first : CheckRun → Bool) (checks : List CheckRun) :
    (upfront first checks).Perm checks :=
  List.filter_append_perm first checks

/-- A selected run of the name is the one that is judged. -/
theorem verdict_upfront (first : CheckRun → Bool) {checks : List CheckRun} {name : String}
    (required : List String) (h : ∃ run ∈ checks, run.name = name ∧ first run = true) :
    ∃ run ∈ checks, first run = true ∧
      verdict (upfront first checks) required name = judge required run := by
  obtain ⟨run, hrun, hname, hfirst⟩ := h
  have hsome : ((checks.filter first).find? (fun c => decide (c.name = name))).isSome = true := by
    rw [List.find?_isSome]
    exact ⟨run, List.mem_filter.mpr ⟨hrun, hfirst⟩, decide_eq_true hname⟩
  obtain ⟨run', hrun'⟩ := Option.isSome_iff_exists.mp hsome
  have hfind : firstRun (upfront first checks) name = some run' := by
    unfold firstRun upfront
    rw [List.find?_append, hrun', Option.some_or]
  have hmem := List.mem_filter.mp (List.mem_of_find?_eq_some hrun')
  exact ⟨run', hmem.1, hmem.2, (verdict_some hfind).2.2⟩

theorem evaluateChecks_failed {checks : List CheckRun} {required : List String} :
    evaluateChecks checks required = .failed ↔
      ∃ name ∈ names checks required, verdict checks required name = .failed := by
  rw [evaluateChecks_eq]
  by_cases hnil : checks = []
  · rw [if_pos hnil, hnil]
    refine ⟨nofun, ?_⟩
    rintro ⟨name, _, h⟩
    cases h
  · rw [if_neg hnil]
    split_ifs with h h' <;> simp [h]

theorem evaluateChecks_passed {checks : List CheckRun} {required : List String} :
    evaluateChecks checks required = .passed ↔ checks ≠ [] ∧
      ∀ name ∈ names checks required, verdict checks required name = .passed := by
  rw [evaluateChecks_eq]
  by_cases hnil : checks = []
  · rw [if_pos hnil]
    exact ⟨nofun, fun h => absurd hnil h.1⟩
  · rw [if_neg hnil]
    split_ifs with hf hp
    · obtain ⟨name, hname, hv⟩ := hf
      exact ⟨nofun, fun h => by cases (h.2 name hname).symm.trans hv⟩
    · obtain ⟨name, hname, hv⟩ := hp
      refine ⟨nofun, fun h => ?_⟩
      rw [h.2 name hname] at hv
      rcases hv with hv | hv <;> cases hv
    · refine ⟨fun _ => ⟨hnil, fun name hname => ?_⟩, fun _ => rfl⟩
      cases hv : verdict checks required name with
      | passed => rfl
      | failed => exact absurd ⟨name, hname, hv⟩ hf
      | pending => exact absurd ⟨name, hname, Or.inl hv⟩ hp
      | missing => exact absurd ⟨name, hname, Or.inr hv⟩ hp

/-- A success says of every name that counts that it has runs and that all of them pass. -/
theorem allPass_iff {checks : List CheckRun} {required : List String} :
    AllPass checks required ↔ checks ≠ [] ∧
      ∀ name ∈ names checks required, (∃ run ∈ checks, run.name = name) ∧
        ∀ run ∈ checks, run.name = name → judge required run = .passed := by
  unfold AllPass names
  simp only [judge_passed, Accepted]
  refine and_congr_right fun _ => ?_
  by_cases hnil : required = []
  · rw [if_pos (List.isEmpty_iff.mpr hnil)]
    simp only [hnil, ne_eq, not_true_eq_false, true_imp_iff, false_imp_iff, and_true, true_and,
      List.mem_map]
    constructor
    · rintro h name ⟨run, hrun, hname⟩
      exact ⟨⟨run, hrun, hname⟩, fun run' hrun' _ => h run' hrun'⟩
    · intro h run hrun
      exact (h run.name ⟨run, hrun, rfl⟩).2 run hrun rfl
  · rw [if_neg (by simpa [List.isEmpty_iff] using hnil)]
    simp [hnil]

theorem judge_ne_missing (required : List String) (run : CheckRun) :
    judge required run ≠ .missing := by
  intro h
  cases judgeCheck_missing.mp h

/-- A name all of whose runs failed decides the evaluation. -/
theorem failed_of_name {checks : List CheckRun} {required : List String} {name : String}
    (hname : name ∈ names checks required) (hsome : ∃ run ∈ checks, run.name = name)
    (hall : ∀ run ∈ checks, run.name = name → judge required run = .failed) :
    evaluateChecks checks required = .failed := by
  refine evaluateChecks_failed.mpr ⟨name, hname, ?_⟩
  rcases verdict_cases checks required name with ⟨_, hnone⟩ | ⟨run, hrun, hrname, hv⟩
  · obtain ⟨run, hrun, hrname⟩ := hsome
    exact absurd hrname (hnone run hrun)
  · rw [hv]
    exact hall run hrun hrname

/-- A name without a completed run keeps the evaluation waiting, when no run failed. -/
theorem pending_of_name {checks : List CheckRun} {required : List String} {name : String}
    (hne : checks ≠ []) (hname : name ∈ names checks required)
    (hfailed : ∀ run ∈ checks, Relevant required run → judge required run ≠ .failed)
    (hall : ∀ run ∈ checks, run.name = name → judge required run = .pending) :
    evaluateChecks checks required = .pending := by
  rw [evaluateChecks_eq, if_neg hne, if_neg, if_pos]
  · refine ⟨name, hname, ?_⟩
    rcases verdict_cases checks required name with ⟨hv, _⟩ | ⟨run, hrun, hrname, hv⟩
    · exact Or.inr hv
    · exact Or.inl (hv.trans (hall run hrun hrname))
  · rintro ⟨name', hname', hv'⟩
    rcases verdict_cases checks required name' with ⟨hv, _⟩ | ⟨run, hrun, hrname, hv⟩
    · cases hv.symm.trans hv'
    · rw [← hrname] at hname'
      exact hfailed run hrun ((mem_names hrun).mp hname') (hv.symm.trans hv')

/-- With every name present and every run passing, the evaluation passes. -/
theorem passed_of_all {checks : List CheckRun} {required : List String} (hne : checks ≠ [])
    (hall : ∀ name ∈ names checks required, ∃ run ∈ checks, run.name = name ∧
      verdict checks required name = judge required run ∧ judge required run = .passed) :
    evaluateChecks checks required = .passed := by
  refine evaluateChecks_passed.mpr ⟨hne, fun name hname => ?_⟩
  obtain ⟨run, _, _, hv, hp⟩ := hall name hname
  exact hv.trans hp

theorem decisive_iff {checks : List CheckRun} {required : List String} :
    Decisive checks required ↔
      (∃ name ∈ names checks required, (∃ run ∈ checks, run.name = name) ∧
        ∀ run ∈ checks, run.name = name → judge required run = .failed) ∨
      (∀ run ∈ checks, Relevant required run → judge required run ≠ .failed) ∧
        ((∃ name ∈ names checks required, ∀ run ∈ checks, run.name = name →
            judge required run = .pending) ∨
          ∀ run ∈ checks, Relevant required run → judge required run ≠ .pending) := by
  unfold Decisive
  simp only [judge_failed, judge_pending, ne_eq, not_and, not_not]

theorem Decisive.perm {checks checks' : List CheckRun} {required : List String}
    (h : Decisive checks required) (hperm : checks'.Perm checks) : Decisive checks' required := by
  unfold Decisive at h ⊢
  simpa only [names_perm hperm, hperm.mem_iff] using h

/-- What decisive runs are evaluated to. -/
theorem Decisive.overall {checks : List CheckRun} {required : List String}
    (h : Decisive checks required) :
    (evaluateChecks checks required = .passed ↔ AllPass checks required) ∧
      (evaluateChecks checks required = .failed ↔
        ∃ run ∈ checks, Relevant required run ∧ judge required run = .failed) := by
  by_cases hne : checks = []
  · subst hne
    refine ⟨⟨nofun, fun h => absurd rfl h.1⟩, nofun, ?_⟩
    rintro ⟨run, hrun, _⟩
    cases hrun
  rcases decisive_iff.mp h with ⟨name, hname, ⟨run, hrun, hrname⟩, hall⟩ | ⟨hfailed, hrest⟩
  · -- one name has failed for good
    rw [failed_of_name hname ⟨run, hrun, hrname⟩ hall]
    refine ⟨⟨nofun, fun hpass => ?_⟩, fun _ => ?_, fun _ => rfl⟩
    · have hp := ((allPass_iff.mp hpass).2 name hname).2 run hrun hrname
      cases hp.symm.trans (hall run hrun hrname)
    · rw [← hrname] at hname
      exact ⟨run, hrun, (mem_names hrun).mp hname, hall run hrun hrname⟩
  · have hnofail : ¬∃ run ∈ checks, Relevant required run ∧ judge required run = .failed := by
      rintro ⟨run, hrun, hrel, hf⟩
      exact hfailed run hrun hrel hf
    by_cases hwait : ∃ name ∈ names checks required, ∀ run ∈ checks, run.name = name →
        judge required run = .pending
    · obtain ⟨name, hname, hall⟩ := hwait
      rw [pending_of_name hne hname hfailed hall]
      refine ⟨⟨nofun, fun hpass => ?_⟩, nofun, fun hf => absurd hf hnofail⟩
      obtain ⟨⟨run, hrun, hrname⟩, hp⟩ := (allPass_iff.mp hpass).2 name hname
      cases (hp run hrun hrname).symm.trans (hall run hrun hrname)
    · -- every name has a run, and every run that counts passes
      have hpending := hrest.resolve_left hwait
      have hpass : ∀ run ∈ checks, Relevant required run → judge required run = .passed := by
        intro run hrun hrel
        cases hj : judge required run with
        | passed => rfl
        | failed => exact absurd hj (hfailed run hrun hrel)
        | pending => exact absurd hj (hpending run hrun hrel)
        | missing => exact absurd hj (judge_ne_missing required run)
      have hrun : ∀ name ∈ names checks required, ∃ run ∈ checks, run.name = name ∧
          verdict checks required name = judge required run ∧
          judge required run = .passed := by
        intro name hname
        rcases verdict_cases checks required name with ⟨_, hnone⟩ | ⟨run, hrun, hrname, hv⟩
        · exact absurd ⟨name, hname, fun run hrun h => absurd h (hnone run hrun)⟩ hwait
        · rw [← hrname] at hname
          exact ⟨run, hrun, hrname, hv, hpass run hrun ((mem_names hrun).mp hname)⟩
      rw [passed_of_all hne hrun]
      refine ⟨⟨fun _ => allPass_iff.mpr ⟨hne, fun name hname => ?_⟩, fun _ => rfl⟩, nofun,
        fun hf => absurd hf hnofail⟩
      obtain ⟨run, hrun, hrname, _⟩ := hrun name hname
      refine ⟨⟨run, hrun, hrname⟩, fun run' hrun' hrname' => hpass run' hrun' ?_⟩
      exact (mem_names hrun').mp (hrname' ▸ hname)

theorem eq_nil_of_perm {checks checks' : List CheckRun} (hperm : checks'.Perm checks) :
    checks' = [] ↔ checks = [] := by
  rw [← List.length_eq_zero_iff, hperm.length_eq, List.length_eq_zero_iff]

theorem AllPass.perm {checks checks' : List CheckRun} {required : List String}
    (hperm : checks'.Perm checks) : AllPass checks' required ↔ AllPass checks required := by
  unfold AllPass
  simp only [hperm.mem_iff, eq_nil_of_perm hperm, ne_eq]

/-- Two evaluations agree when they pass together and fail together. -/
theorem evaluateChecks_congr {checks checks' : List CheckRun} {required : List String}
    (hnil : checks' = [] ↔ checks = [])
    (hpassed : evaluateChecks checks' required = .passed ↔ evaluateChecks checks required = .passed)
    (hfailed : evaluateChecks checks' required = .failed ↔
      evaluateChecks checks required = .failed) :
    evaluateChecks checks' required = evaluateChecks checks required := by
  rw [evaluateChecks_eq checks', evaluateChecks_eq checks] at *
  by_cases hne : checks = []
  · rw [if_pos hne, if_pos (hnil.mpr hne)]
  · have hne' : checks' ≠ [] := fun h => hne (hnil.mp h)
    rw [if_neg hne, if_neg hne'] at *
    split_ifs at * <;> simp_all

/-- **The evaluation is exact and order-independent exactly on decisive runs.** -/
theorem exact_iff_decisive (checks : List CheckRun) (required : List String) :
    Exact checks required ↔ Decisive checks required := by
  constructor
  · rintro ⟨hsuccess, hfailure, horder⟩
    simp only [report_overall] at hsuccess hfailure horder
    rw [decisive_iff]
    by_cases hfailed : ∃ run ∈ checks, Relevant required run ∧ judge required run = .failed
    · -- some run failed: were no name failed for good, other runs could come first
      obtain ⟨run, hrun, hrel, hj⟩ := hfailed
      obtain ⟨hdone, hbad⟩ := judge_failed.mp hj
      have hoverall := hfailure run hrun hrel hdone hbad
      left
      by_contra hnone
      push Not at hnone
      have hup := horder (upfront (fun run => decide (judge required run ≠ .failed)) checks)
        (upfront_perm _ _)
      rw [hoverall, evaluateChecks_failed] at hup
      obtain ⟨name, hname, hv⟩ := hup
      rw [names_perm (upfront_perm _ _)] at hname
      rcases verdict_cases (upfront (fun run => decide (judge required run ≠ .failed)) checks)
        required name with ⟨hv', _⟩ | ⟨run', hrun', hname', _⟩
      · cases hv'.symm.trans hv
      · rw [(upfront_perm _ _).mem_iff] at hrun'
        obtain ⟨run₁, hrun₁, hname₁, hj₁⟩ := hnone name hname ⟨run', hrun', hname'⟩
        obtain ⟨run₂, _, hj₂, hv₂⟩ := verdict_upfront
          (fun run => decide (judge required run ≠ .failed)) required
          ⟨run₁, hrun₁, hname₁, decide_eq_true hj₁⟩
        exact of_decide_eq_true hj₂ (hv₂.symm.trans hv)
    · right
      refine ⟨fun run hrun hrel hj => hfailed ⟨run, hrun, hrel, hj⟩, ?_⟩
      by_cases hwait : ∃ name ∈ names checks required, ∀ run ∈ checks, run.name = name →
          judge required run = .pending
      · exact Or.inl hwait
      · -- every name has a completed run: with these in front the evaluation passes
        right
        intro run hrun hrel hj
        push Not at hwait
        have hup := horder (upfront (fun run => decide (judge required run = .passed)) checks)
          (upfront_perm _ _)
        have hpassed : evaluateChecks
            (upfront (fun run => decide (judge required run = .passed)) checks) required =
              .passed := by
          refine evaluateChecks_passed.mpr ⟨?_, fun name hname => ?_⟩
          · intro hnil
            rw [← (upfront_perm (fun run => decide (judge required run = .passed))
              checks).mem_iff, hnil] at hrun
            cases hrun
          · rw [names_perm (upfront_perm _ _)] at hname
            obtain ⟨run₁, hrun₁, hname₁, hj₁⟩ := hwait name hname
            have hpass₁ : judge required run₁ = .passed := by
              cases hj' : judge required run₁ with
              | passed => rfl
              | pending => exact absurd hj' hj₁
              | missing => exact absurd hj' (judge_ne_missing required run₁)
              | failed =>
                  rw [← hname₁] at hname
                  exact absurd ⟨run₁, hrun₁, (mem_names hrun₁).mp hname, hj'⟩ hfailed
            obtain ⟨run₂, _, hj₂, hv₂⟩ := verdict_upfront
              (fun run => decide (judge required run = .passed)) required
              ⟨run₁, hrun₁, hname₁, decide_eq_true hpass₁⟩
            exact hv₂.trans (of_decide_eq_true hj₂)
        rw [hpassed] at hup
        have hall := (allPass_iff.mp (hsuccess.mp hup.symm)).2 run.name ((mem_names hrun).mpr hrel)
        cases (hall.2 run hrun rfl).symm.trans hj
  · intro h
    refine ⟨?_, ?_, ?_⟩
    · rw [report_overall]
      exact h.overall.1
    · intro run hrun hrel hdone hbad
      rw [report_overall]
      exact h.overall.2.mpr ⟨run, hrun, hrel, judge_failed.mpr ⟨hdone, hbad⟩⟩
    · intro checks' hperm
      rw [report_overall, report_overall]
      refine evaluateChecks_congr (eq_nil_of_perm hperm) ?_ ?_
      · rw [h.overall.1, (h.perm hperm).overall.1, AllPass.perm hperm]
      · rw [h.overall.2, (h.perm hperm).overall.2]
        simp only [hperm.mem_iff]

/-- A red run behind a green one of the same name is not seen. -/
theorem rerun_hides_failure :
    ¬∀ (checks : List CheckRun) (required : List String), Exact checks required := by
  intro h
  have hexact := h [⟨"lint", "completed", some "success"⟩, ⟨"lint", "completed", some "failure"⟩] []
  have hfailed := hexact.failure ⟨"lint", "completed", some "failure"⟩ (by simp) (Or.inl rfl) rfl
    (by simp [Accepted])
  rw [report_overall] at hfailed
  revert hfailed
  decide

end Remediator.Checks
