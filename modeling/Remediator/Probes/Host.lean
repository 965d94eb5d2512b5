import Mathlib.Data.Rat.Defs
import Remediator.Lib.Runs

set_option autoImplicit false

/-! # The host of a probe

What `LocalProbeRunner` of `remediator/probes/runner.py` does to the machine it runs on, one action
at a time, and the two sweeps that end a run. Between any two actions the processes of the probe
fork, exec and end as they like.
-/

namespace Remediator.Probes.Host

open Interleave

/-! ## Processes -/

/-- The first thread of a process. It may end before the others do: then `/proc` shows the process
as a zombie with an empty environment, until another thread replaces it with an exec. -/
inductive Leader
  | present
  | ended
  | replaced
  deriving DecidableEq

/-- A process of the user that runs probes, with the value of `REMEDIATOR_PROBE_RUN` in its
environment. It is alive as long as one of its threads runs. -/
structure Proc where
  marker : Option String
  alive : Bool
  leader : Leader := .present

/-- The processes in the order of their birth, without the runner, its parent and the first
process. -/
abbrev Table : Type := List Proc

/-- What time does to the processes: none is forgotten, none comes back to life, none gets a marker
it did not have, and none gets back the thread it began with. An exec may drop the marker. -/
def Later (s s' : Table) : Prop :=
  ∀ (p : ℕ) (x : Proc), s[p]? = some x →
    ∃ y, s'[p]? = some y ∧ (y.alive = true → x.alive = true) ∧
      (y.leader = .present → x.leader = .present) ∧ (y.marker = x.marker ∨ y.marker = none)

theorem Later.refl (s : Table) : Later s s := fun _ x hx => ⟨x, hx, id, id, Or.inl rfl⟩

theorem Later.trans {s s' s'' : Table} (h : Later s s') (h' : Later s' s'') : Later s s'' := by
  intro p x hx
  obtain ⟨y, hy, halive, hlead, hmark⟩ := h p x hx
  obtain ⟨z, hz, halive', hlead', hmark'⟩ := h' p y hy
  refine ⟨z, hz, fun hlive => halive (halive' hlive), fun hfirst => hlead (hlead' hfirst), ?_⟩
  rcases hmark' with hmark' | hmark'
  · rw [hmark']
    exact hmark
  · exact Or.inr hmark'

theorem Later.length_le {s s' : Table} (h : Later s s') : s.length ≤ s'.length := by
  rcases Nat.eq_zero_or_pos s.length with hzero | hpos
  · omega
  · obtain ⟨y, hy, -⟩ := h (s.length - 1) _ (List.getElem?_eq_getElem (by omega))
    have hlt := (List.getElem?_eq_some_iff.mp hy).1
    omega

/-! ## Actions -/

/-- How a child ends, with what it wrote in the pieces that were read. A child that is overdue is
still there when its time is up; the task may be cancelled while it waits. -/
inductive Child
  | unstarted (error : String)
  | exited (code : Int) (out err : List (List UInt8))
  | overdue (out err : List (List UInt8))
  | cancelled

/-- A child that is started and waited for. -/
structure Exec where
  argv : List String
  env : List (String × String)
  /-- the number of seconds it is waited for -/
  timeout : ℚ
  child : Child

/-- What one action of the runner meets. -/
structure Answer where
  clock : ℚ := 0
  exposed : List String := []
  installed : String → Bool := fun _ => true
  /-- the `OSError` of the call -/
  error : Option String := none
  /-- the directory `mkdtemp` makes -/
  path : String := ""
  /-- the value of `uuid.uuid4().hex` -/
  unique : String := ""
  /-- what `hash_of` finds for the lockfiles -/
  lockfiles : Option String := none
  child : Child := .exited 0 [] []
  /-- `/proc` cannot be listed -/
  unlisted : Bool := false
  /-- the process is gone, or may not be signalled -/
  denied : Bool := false
  /-- the `status` of a process is no UTF-8: it has the name of the process -/
  garbled : Bool := false
  /-- the slot of the executor is taken -/
  locked : Bool := false
  /-- the task is cancelled while another thread sweeps -/
  cancelled : Bool := false

inductive Op
  | look
  | mkdir (path : String)
  | write (path text : String)
  /-- make the directories of a download cache -/
  | cache (path : String)
  | exec (e : Exec)
  /-- `SIGKILL` for a process -/
  | kill (p : ℕ)
  | sleep
  | rmtree (path : String)

/-- `PROBE_RUN_MARKER`. -/
def probeRunMarker : String := "REMEDIATOR_PROBE_RUN"

def Exec.marker (e : Exec) : Option String := e.env.lookup probeRunMarker

/-- A process is dead once it was sent the signal. -/
def killed (p : ℕ) (s : Table) : Table := s.modify p (fun x => { x with alive := false })

def Op.apply : Op → Table → Table
  | .exec e, s =>
      match e.child with
      | .unstarted _ => s
      | .exited _ _ _ => s ++ [{ marker := e.marker, alive := false }]
      | .overdue _ _ | .cancelled => s ++ [{ marker := e.marker, alive := true }]
  | .kill p, s => killed p s
  | _, s => s

/-- The exceptions that leave the runner. -/
inductive Exc
  | os (error : String)
  | cancelled
  /-- a name is used before it is bound -/
  | unboundLocal
  | undecodable
  deriving DecidableEq

abbrev P (α : Type) : Type := Prog Table Answer Op Exc α

def ask {α : Type} (f : Answer → α) : P α := .act (fun _ _ => .look) (fun i _ => .ret (f i))

theorem later_append (s : Table) (x : Proc) : Later s (s ++ [x]) := by
  intro p y hy
  refine ⟨y, ?_, id, id, Or.inl rfl⟩
  rw [List.getElem?_append_left (List.getElem?_eq_some_iff.mp hy).1]
  exact hy

theorem later_killed (p : ℕ) (s : Table) : Later s (killed p s) := by
  intro q x hx
  unfold killed
  rw [List.getElem?_modify, hx]
  by_cases hq : p = q
  · exact ⟨{ x with alive := false }, by simp [hq], (fun h => by cases h), id, Or.inl rfl⟩
  · exact ⟨x, by simp [hq], id, id, Or.inl rfl⟩

theorem later_apply (op : Op) (s : Table) : Later s (op.apply s) := by
  cases op with
  | exec e =>
      unfold Op.apply
      dsimp only
      split
      · exact Later.refl s
      · exact later_append s _
      · exact later_append s _
      · exact later_append s _
  | kill p => exact later_killed p s
  | look => exact Later.refl s
  | mkdir path => exact Later.refl s
  | write path text => exact Later.refl s
  | cache path => exact Later.refl s
  | sleep => exact Later.refl s
  | rmtree path => exact Later.refl s

/-- The processes move on during a run. -/
theorem runs_later {α : Type} {p : P α} {s s' : Table} {l : List (Answer × Table)}
    {r : Except Exc α} (h : p.Runs Op.apply Later s l r s') : Later s s' := by
  induction h with
  | ret a s => exact Later.refl s
  | raise e s => exact Later.refl s
  | act i hR _ ih => exact hR.trans ((later_apply _ _).trans ih)

/-! ## Sweeps -/

/-- Whom a sweep looks for: the processes with a marker, or all of the user. -/
inductive Hunt
  | marked (marker : String)
  | stray

def Hunt.wants (hunt : Hunt) (x : Proc) : Bool :=
  x.alive && decide (x.leader ≠ .ended) && match hunt with
    | .marked marker => decide (x.marker = some marker)
    | .stray => true

theorem Hunt.wants_iff {hunt : Hunt} {x : Proc} : hunt.wants x = true ↔
    x.alive = true ∧ x.leader ≠ .ended ∧ ∀ marker, hunt = .marked marker → x.marker = some marker := by
  unfold wants
  rw [Bool.and_eq_true, Bool.and_eq_true, decide_eq_true_eq, and_assoc]
  refine and_congr_right fun _ => and_congr_right fun _ => ?_
  cases hunt with
  | stray => simp
  | marked marker => simp

/-- Whoever still has the thread it began with is not wanted unless it was before. -/
theorem Hunt.wants_later {hunt : Hunt} {s s' : Table} (h : Later s s') {p : ℕ} {x y : Proc}
    (hx : s[p]? = some x) (hy : s'[p]? = some y) (hfirst : y.leader = .present)
    (hw : hunt.wants y = true) : hunt.wants x = true := by
  obtain ⟨z, hz, halive, hlead, hmark⟩ := h p x hx
  obtain rfl := Option.some.inj (hy.symm.trans hz)
  obtain ⟨hlive, -, hmarker⟩ := wants_iff.mp hw
  refine wants_iff.mpr ⟨halive hlive, ?_, fun marker hhunt => ?_⟩
  · rw [hlead hfirst]
    decide
  · have hsome := hmarker marker hhunt
    rcases hmark with hmark | hmark
    · exact hmark.symm.trans hsome
    · rw [hsome] at hmark
      cases hmark

/-- `stray_pids` reads texts, `marked_pids` bytes. -/
def Hunt.decodes : Hunt → Bool
  | .marked _ => false
  | .stray => true

/-- The entries of `/proc` are read one after the other; that of a process that is gone cannot be
read. -/
def readEntries (hunt : Hunt) : List ℕ → P (List ℕ)
  | [] => .ret []
  | p :: ps => .act (fun _ _ => .look) fun i s =>
      if i.garbled && hunt.decodes then .raise .undecodable
      else do
        let rest ← readEntries hunt ps
        pure (if s[p]?.any hunt.wants then p :: rest else rest)

/-- The processes that `/proc` lists. -/
def entries (s : Table) : List ℕ :=
  (List.range s.length).filter fun p => s[p]?.any (·.alive)

/-- `marked_pids` and `stray_pids`. -/
def wantedPids (hunt : Hunt) : P (List ℕ) :=
  .act (fun _ _ => .look) fun i s =>
    if i.unlisted then .ret [] else readEntries hunt (entries s)

/-- A process that has gone, or may not be signalled, is passed over. -/
def killEach : List ℕ → P Unit
  | [] => .ret ()
  | p :: ps => .act (fun i _ => if i.denied then .look else .kill p) fun _ _ => killEach ps

/-- `kill_marked_processes` and `kill_stray_processes`, with the rounds that are left. -/
def sweep (hunt : Hunt) : ℕ → P Unit
  | 0 => .ret ()
  | rounds + 1 => do
      let pids ← wantedPids hunt
      if pids = [] then pure ()
      else do
        killEach pids
        .act (fun _ _ => .sleep) fun _ _ => sweep hunt rounds

/-- `range(10)`. -/
def maxRounds : ℕ := 10

section Sweeps

variable {hunt : Hunt} {s s' : Table} {l : List (Answer × Table)}

/-- Who is wanted after a scan that began in `s` is found, or was born since, or lost the thread it
began with. -/
def Missed (hunt : Hunt) (s s' : Table) (found : List ℕ) : Prop :=
  ∀ p x y, s[p]? = some x → s'[p]? = some y → y.leader = .present → hunt.wants y = true → p ∈ found

theorem readEntries_runs {ps found : List ℕ}
    (h : (readEntries hunt ps).Runs Op.apply Later s l (.ok found) s') :
    ∀ p ∈ ps, ∀ y, s'[p]? = some y → p < s.length → y.leader = .present →
      hunt.wants y = true → p ∈ found := by
  induction ps generalizing s l found with
  | nil => simp
  | cons q ps ih =>
      obtain ⟨i, s₁, l', hR, rfl, hn⟩ := Prog.Runs.act_inv h
      split at hn
      · obtain ⟨-, hres, -⟩ := hn.raise_inv
        cases hres
      rcases Prog.Runs.bind_inv hn with ⟨e, he, -⟩ | ⟨rest, s₂, l₁, l₂, rfl, hrest, hk⟩
      · cases he
      obtain ⟨-, hfound, rfl⟩ := Prog.Runs.ret_inv hk
      have hfound := Except.ok.inj hfound
      have hlater : Later s₁ s' := runs_later hrest
      intro p hp y hy hlt hfirst hw
      have hlt₁ : p < s₁.length := Nat.lt_of_lt_of_le hlt hR.length_le
      rcases List.mem_cons.mp hp with rfl | hp
      · -- the process was wanted when its entry was read
        have hread : s₁[p]?.any hunt.wants = true := by
          rw [List.getElem?_eq_getElem hlt₁]
          exact Hunt.wants_later hlater (List.getElem?_eq_getElem hlt₁) hy hfirst hw
        rw [hfound, if_pos hread]
        exact List.mem_cons_self
      · have hmem := ih hrest p hp y hy hlt₁ hfirst hw
        rw [hfound]
        split
        · exact List.mem_cons_of_mem _ hmem
        · exact hmem

theorem mem_entries {p : ℕ} {x : Proc} (hx : s[p]? = some x) (halive : x.alive = true) :
    p ∈ entries s := by
  refine List.mem_filter.mpr ⟨List.mem_range.mpr (List.getElem?_eq_some_iff.mp hx).1, ?_⟩
  rw [hx]
  exact halive

/-- A scan that could list the processes finds everyone who is still wanted at its end and was
there at its beginning, with the thread it began with. -/
theorem wantedPids_runs {found : List ℕ}
    (h : (wantedPids hunt).Runs Op.apply Later s l (.ok found) s')
    (hlisted : ∀ x ∈ l, x.1.unlisted = false) : Missed hunt s s' found := by
  obtain ⟨i, s₁, l', hR, rfl, hn⟩ := Prog.Runs.act_inv h
  rw [if_neg (by rw [hlisted _ List.mem_cons_self]; decide)] at hn
  intro p x y hx hy hfirst hw
  obtain ⟨z, hz, -⟩ := hR p x hx
  have hlater : Later s₁ s' := runs_later hn
  have hwz : hunt.wants z = true := Hunt.wants_later hlater hz hy hfirst hw
  exact readEntries_runs hn p (mem_entries hz (Hunt.wants_iff.mp hwz).1) y hy
    (List.getElem?_eq_some_iff.mp hz).1 hfirst hw

/-- The rounds of a sweep that found somebody: it sleeps after each of them. -/
def rounds (steps : List (Prog.Step Table Answer Op)) : ℕ :=
  steps.countP fun step => match step.op with
    | .sleep => true
    | _ => false

theorem rounds_append (steps steps' : List (Prog.Step Table Answer Op)) :
    rounds (steps ++ steps') = rounds steps + rounds steps' := List.countP_append

/-- Nobody is wanted any more who was there in `s`, with the thread it began with. -/
def Cleared (hunt : Hunt) (s s' : Table) : Prop :=
  ∀ (p : ℕ) (x y : Proc), s[p]? = some x → s'[p]? = some y → y.leader = .present →
    hunt.wants y = false

theorem Cleared.since {s₁ : Table} (h : Cleared hunt s₁ s') (hlater : Later s s₁) :
    Cleared hunt s s' := by
  intro p x y hx hy
  obtain ⟨z, hz, -⟩ := hlater p x hx
  exact h p z y hz hy

/-- **After a sweep nobody is wanted who was there before it**, with the thread it began with, unless
every round of it found somebody. -/
theorem sweep_runs {n : ℕ} (h : (sweep hunt n).Runs Op.apply Later s l (.ok ()) s')
    (hlisted : ∀ x ∈ l, x.1.unlisted = false) :
    Cleared hunt s s' ∨ n ≤ rounds ((sweep hunt n).steps l) := by
  induction n generalizing s l with
  | zero => exact Or.inr (Nat.zero_le _)
  | succ n ih =>
      rcases Prog.Runs.bind_inv h with ⟨e, he, -⟩ | ⟨pids, s₁, l₁, l₂, rfl, hscan, hk⟩
      · cases he
      have hmissed := wantedPids_runs hscan fun x hx => hlisted x (List.mem_append_left _ hx)
      by_cases hnil : pids = []
      · rw [if_pos hnil] at hk
        obtain ⟨-, -, rfl⟩ := Prog.Runs.ret_inv hk
        refine Or.inl fun p x y hx hy hfirst => ?_
        by_contra hw
        have hmem := hmissed p x y hx hy hfirst (eq_true_of_ne_false hw)
        rw [hnil] at hmem
        cases hmem
      · rw [if_neg hnil] at hk
        rcases Prog.Runs.bind_inv hk with ⟨e, he, -⟩ | ⟨u, s₂, l₃, l₄, rfl, hkill, hrest⟩
        · cases he
        obtain ⟨i, s₃, l₅, hR, rfl, hsweep⟩ := Prog.Runs.act_inv hrest
        have hlater : Later s s₃ :=
          (runs_later hscan).trans ((runs_later hkill).trans hR)
        have hsteps : (sweep hunt (n + 1)).steps (l₁ ++ (l₃ ++ (i, s₃) :: l₅)) =
            (wantedPids hunt).steps l₁ ++ ((killEach pids).steps l₃ ++
              ⟨i, s₃, .sleep⟩ :: (sweep hunt n).steps l₅) := by
          refine (Prog.Runs.steps_bind hscan _).trans (congrArg _ ?_)
          rw [if_neg hnil]
          exact Prog.Runs.steps_bind hkill _
        have hlisted' : ∀ x ∈ l₅, x.1.unlisted = false := fun x hx =>
          hlisted x (List.mem_append_right _ (List.mem_append_right _ (List.mem_cons_of_mem _ hx)))
        rcases ih hsweep hlisted' with hclean | hfull
        · exact Or.inl (hclean.since hlater)
        · refine Or.inr ?_
          have hone : rounds (⟨i, s₃, .sleep⟩ :: (sweep hunt n).steps l₅) =
              rounds ((sweep hunt n).steps l₅) + 1 := List.countP_cons_of_pos rfl
          rw [hsteps, rounds_append, rounds_append, hone]
          omega

end Sweeps

end Remediator.Probes.Host
