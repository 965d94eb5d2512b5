import Remediator.Probes.Local

set_option autoImplicit false

/-! # The conduct of a run

What a run of the local runner does, whatever the host answers: the commands it starts follow a
plan, and only a plan that was followed to its end gives a verdict.
-/

namespace Remediator.Probes.Host

open Interleave OrderedDict

/-! ## What is kept of the output -/

/-- What is read from a pipe. -/
def received : List (List UInt8) → List UInt8
  | [] => []
  | chunk :: chunks => if chunk = [] then [] else chunk ++ received chunks

/-- A capture that has read `d`. -/
structure BoundedCapture.Kept (limit : Int) (d : List UInt8) (c : BoundedCapture) : Prop where
  bound : c.limit = limit
  buffer : c.buffer = d.take limit.toNat
  truncated : c.truncated = true ↔ d ≠ [] ∧ limit < d.length

theorem BoundedCapture.Kept.take {limit : Int} {d chunk : List UInt8} {c : BoundedCapture}
    (h : c.Kept limit d) (hchunk : chunk ≠ []) : (c.take chunk).Kept limit (d ++ chunk) := by
  have hpos : 0 < chunk.length := List.length_pos_iff.mpr hchunk
  have hlength : c.buffer.length = min limit.toNat d.length := by
    rw [h.buffer, List.length_take]
  refine ⟨h.bound, ?_, ?_⟩
  · unfold BoundedCapture.take
    dsimp only
    rw [h.bound]
    split
    · next hroom =>
        -- everything read so far was kept
        have hlt : d.length < limit.toNat := by omega
        have hroom' : (limit - c.buffer.length).toNat = limit.toNat - d.length := by omega
        rw [hroom', h.buffer, List.take_of_length_le (Nat.le_of_lt hlt), List.take_append,
          List.take_of_length_le (Nat.le_of_lt hlt)]
    · next hroom =>
        have hle : limit.toNat ≤ d.length := by omega
        rw [h.buffer, List.take_append_of_le_length hle]
  · unfold BoundedCapture.take
    dsimp only
    rw [Bool.or_eq_true, decide_eq_true_eq, h.truncated, h.bound, List.length_append]
    constructor
    · rintro (⟨-, hlt⟩ | hlt)
      · exact ⟨by simp [hchunk], by omega⟩
      · exact ⟨by simp [hchunk], by omega⟩
    · rintro ⟨-, hlt⟩
      by_cases hd : limit < d.length
      · by_cases hnil : d = []
        · refine Or.inr ?_
          rw [hnil, List.length_nil] at hd hlength
          omega
        · exact Or.inl ⟨hnil, hd⟩
      · exact Or.inr (by omega)

theorem BoundedCapture.Kept.drain {limit : Int} {d : List UInt8} {c : BoundedCapture}
    (h : c.Kept limit d) (chunks : List (List UInt8)) :
    (c.drain chunks).Kept limit (d ++ received chunks) := by
  induction chunks generalizing c d with
  | nil => simpa [BoundedCapture.drain, received] using h
  | cons chunk chunks ih =>
      unfold BoundedCapture.drain received
      split
      · simpa using h
      · next hchunk =>
          rw [← List.append_assoc]
          exact ih (h.take hchunk)

/-- **A bounded capture keeps the first bytes and knows whether there were more**, however the
output is cut into pieces. -/
theorem drain_keeps_front (limit : Int) (chunks : List (List UInt8)) :
    (BoundedCapture.drain { limit := limit } chunks).buffer =
        (received chunks).take limit.toNat ∧
      ((BoundedCapture.drain { limit := limit } chunks).truncated = true ↔
        received chunks ≠ [] ∧ limit < (received chunks).length) := by
  have hnew : BoundedCapture.Kept limit [] { limit := limit } := ⟨rfl, by simp, by simp⟩
  have h := hnew.drain chunks
  exact ⟨h.buffer, h.truncated⟩

/-- The last bytes. -/
def lastBytes (limit : ℕ) (d : List UInt8) : List UInt8 := d.drop (d.length - limit)

theorem lastBytes_of_le {limit : ℕ} {d : List UInt8} (h : d.length ≤ limit) :
    lastBytes limit d = d := by
  unfold lastBytes
  rw [Nat.sub_eq_zero_of_le h, List.drop_zero]

theorem lastBytes_append (limit : ℕ) (d chunk : List UInt8) :
    lastBytes limit (lastBytes limit d ++ chunk) = lastBytes limit (d ++ chunk) := by
  have hlength : (lastBytes limit d).length = min limit d.length := by
    unfold lastBytes
    rw [List.length_drop]
    omega
  unfold lastBytes at hlength ⊢
  rw [List.length_append, List.length_append, hlength]
  rcases Nat.lt_or_ge limit chunk.length with hlt | hge
  · -- only the chunk is left
    rw [List.drop_append, List.drop_append, hlength]
    have h₁ : (List.drop (d.length - limit) d).length ≤ min limit d.length + chunk.length - limit := by
      omega
    have h₂ : d.length ≤ d.length + chunk.length - limit := by omega
    rw [List.drop_of_length_le h₁, List.drop_of_length_le h₂]
    congr 2
    omega
  · have h₁ : min limit d.length + chunk.length - limit ≤
        (List.drop (d.length - limit) d).length := by omega
    have h₂ : d.length + chunk.length - limit ≤ d.length := by omega
    rw [List.drop_append_of_le_length h₁, List.drop_append_of_le_length h₂, List.drop_drop]
    congr 2
    omega

/-- **A tail capture keeps the last bytes**, however the output is cut into pieces. -/
theorem tailDrain_keeps_back (limit : ℕ) (chunks : List (List UInt8)) :
    tailDrain limit [] chunks = lastBytes limit (received chunks) := by
  have hkeep : ∀ d, tailDrain limit (lastBytes limit d) chunks =
      lastBytes limit (d ++ received chunks) := by
    induction chunks with
    | nil => simp [tailDrain, received]
    | cons chunk chunks ih =>
        intro d
        unfold tailDrain received
        split
        · rw [List.append_nil]
        · dsimp only
          rw [← List.append_assoc, ← ih (d ++ chunk), ← lastBytes_append]
          congr 1
          split
          · rfl
          · next hle => rw [lastBytes_of_le (Nat.le_of_not_lt hle)]
  have hnil : lastBytes limit [] = [] := List.drop_nil
  have h := hkeep []
  rw [hnil, List.nil_append] at h
  exact h

/-- What is kept of the output does not depend on the pieces it was read in. -/
theorem captures_keep (limit : Int) (n : ℕ) (chunks : List (List UInt8)) :
    (BoundedCapture.drain { limit := limit } chunks).buffer =
        (received chunks).take limit.toNat ∧
      ((BoundedCapture.drain { limit := limit } chunks).truncated = true ↔
        received chunks ≠ [] ∧ limit < (received chunks).length) ∧
      tailDrain n [] chunks = lastBytes n (received chunks) :=
  ⟨(drain_keeps_front limit chunks).1, (drain_keeps_front limit chunks).2,
    tailDrain_keeps_back n chunks⟩

/-! ## What a run does -/

/-- What is seen of a run: the directories it makes and removes, the script it writes and the
children it starts. -/
def Op.visible : Op → Bool
  | .mkdir _ | .write _ _ | .exec _ | .rmtree _ => true
  | .look | .cache _ | .kill _ | .sleep => false

def events (steps : List (Prog.Step Table Answer Op)) : List Op :=
  (steps.map (·.op)).filter Op.visible

theorem events_append (steps steps' : List (Prog.Step Table Answer Op)) :
    events (steps ++ steps') = events steps ++ events steps' := by
  simp [events]

/-- Every run of `p` is as `T` says: the events, and how it ends. -/
def Tracks {α : Type} (p : P α) (T : List Op → Except Exc α → Prop) : Prop :=
  ∀ s l r s', p.Runs Op.apply Later s l r s' → T (events (p.steps l)) r

section Tracks

variable {α β : Type} {T T' : List Op → Except Exc α → Prop}

theorem Tracks.ret {a : α} (h : T [] (.ok a)) : Tracks (.ret a) T := by
  intro s l r s' hrun
  obtain ⟨rfl, rfl, -⟩ := hrun.ret_inv
  exact h

theorem Tracks.raise {e : Exc} (h : T [] (.error e)) : Tracks (.raise e) T := by
  intro s l r s' hrun
  obtain ⟨rfl, rfl, -⟩ := hrun.raise_inv
  exact h

theorem Tracks.weaken {p : P α} (h : Tracks p T) (himp : ∀ es r, T es r → T' es r) :
    Tracks p T' := fun s l r s' hrun => himp _ _ (h s l r s' hrun)

/-- An action and what comes after it. -/
theorem Tracks.act {op : Answer → Table → Op} {next : Answer → Table → P α}
    (h : ∀ i s, Tracks (next i s) fun es r => T ([op i s].filter Op.visible ++ es) r) :
    Tracks (.act op next) T := by
  intro s l r s' hrun
  obtain ⟨i, s₁, l', -, rfl, hn⟩ := hrun.act_inv
  have hsteps : events ((Prog.act op next).steps ((i, s₁) :: l')) =
      [op i s₁].filter Op.visible ++ events ((next i s₁).steps l') :=
    List.filter_append [op i s₁] _
  rw [hsteps]
  exact h i s₁ _ _ _ _ hn

theorem Tracks.bind {p : P β} {k : β → P α} {A : List Op → Except Exc β → Prop}
    {B : β → List Op → Except Exc α → Prop} (hp : Tracks p A) (hk : ∀ b, Tracks (k b) (B b))
    (herror : ∀ es e, A es (.error e) → T es (.error e))
    (hok : ∀ b es₁ es₂ r, A es₁ (.ok b) → B b es₂ r → T (es₁ ++ es₂) r) :
    Tracks (p.bind k) T := by
  intro s l r s' hrun
  rcases hrun.bind_inv with ⟨e, rfl, hfail⟩ | ⟨b, s₁, l₁, l₂, rfl, hfirst, hrest⟩
  · rw [hfail.steps_bind_error]
    exact herror _ e (hp _ _ _ _ hfail)
  · rw [hfirst.steps_bind, events_append]
    exact hok b _ _ r (hp _ _ _ _ hfirst) (hk b _ _ _ _ hrest)

theorem Tracks.handle {p : P α} {handler : Exc → P α} {A : List Op → Except Exc α → Prop}
    {B : Exc → List Op → Except Exc α → Prop} (hp : Tracks p A)
    (hh : ∀ e, Tracks (handler e) (B e)) (hok : ∀ a es, A es (.ok a) → T es (.ok a))
    (herror : ∀ e es₁ es₂ r, A es₁ (.error e) → B e es₂ r → T (es₁ ++ es₂) r) :
    Tracks (p.handle handler) T := by
  intro s l r s' hrun
  rcases hrun.handle_inv with ⟨a, rfl, hfirst, hsteps⟩ | ⟨e, s₁, l₁, l₂, rfl, hfail, hrest, hsteps⟩
  · have hview : (p.handle handler).steps l = p.steps l := hsteps id
    rw [hview]
    exact hok a _ (hp _ _ _ _ hfirst)
  · have hview : (p.handle handler).steps (l₁ ++ l₂) = p.steps l₁ ++ (handler e).steps l₂ :=
      hsteps id
    rw [hview, events_append]
    exact herror e _ _ r (hp _ _ _ _ hfail) (hh e _ _ _ _ hrest)

/-- A part that shows nothing and raises what is allowed. -/
def Unseen {α : Type} (p : P α) (E : Exc → Prop) : Prop :=
  Tracks p fun es r => es = [] ∧ ∀ e, r = .error e → E e

theorem Unseen.bind {p : P β} {k : β → P α} {E : Exc → Prop} (hp : Unseen p E)
    (herror : ∀ e, E e → T [] (.error e)) (hk : ∀ b, Tracks (k b) T) : Tracks (p.bind k) T := by
  refine Tracks.bind hp hk (fun es e h => ?_) (fun b es₁ es₂ r h h' => ?_)
  · rw [h.1]
    exact herror e (h.2 e rfl)
  · rw [h.1]
    exact h'

theorem Unseen.ask {f : Answer → α} {E : Exc → Prop} : Unseen (ask f) E :=
  Tracks.act fun _ _ => Tracks.ret ⟨rfl, fun _ h => by cases h⟩

theorem Unseen.then {p : P β} {k : β → P α} {E : Exc → Prop} (hp : Unseen p E)
    (hk : ∀ b, Unseen (k b) E) : Unseen (p.bind k) E :=
  Unseen.bind hp (fun e he => ⟨rfl, fun _ h => by cases h; exact he⟩) hk

theorem readEntries_unseen {hunt : Hunt} {E : Exc → Prop}
    (hdecodes : hunt.decodes = true → E .undecodable) (ps : List ℕ) :
    Unseen (readEntries hunt ps) E := by
  induction ps with
  | nil => exact Tracks.ret ⟨rfl, fun _ h => by cases h⟩
  | cons p ps ih =>
      refine Tracks.act fun i s => ?_
      split
      · next hgarbled =>
          refine Tracks.raise ⟨rfl, fun e he => ?_⟩
          cases he
          exact hdecodes (Bool.and_eq_true_iff.mp hgarbled).2
      · exact Unseen.then ih fun _ => Tracks.ret ⟨rfl, fun _ h => by cases h⟩

theorem killEach_unseen (ps : List ℕ) {E : Exc → Prop} : Unseen (killEach ps) E := by
  induction ps with
  | nil => exact Tracks.ret ⟨rfl, fun _ h => by cases h⟩
  | cons p ps ih =>
      refine Tracks.act fun i _ => ?_
      cases i.denied <;> exact ih

theorem sweep_unseen {hunt : Hunt} {E : Exc → Prop}
    (hdecodes : hunt.decodes = true → E .undecodable) (n : ℕ) : Unseen (sweep hunt n) E := by
  induction n with
  | zero => exact Tracks.ret ⟨rfl, fun _ h => by cases h⟩
  | succ n ih =>
      refine Unseen.then (Tracks.act fun i s => ?_) fun pids => ?_
      · cases i.unlisted with
        | true => exact Tracks.ret ⟨rfl, fun _ h => by cases h⟩
        | false => exact readEntries_unseen hdecodes _
      · split
        · exact Tracks.ret ⟨rfl, fun _ h => by cases h⟩
        · exact Unseen.then (killEach_unseen pids) fun _ => Tracks.act fun _ _ => ih

theorem killGroup_unseen (child : ℕ) {E : Exc → Prop} : Unseen (killGroup child) E := by
  refine Tracks.act fun i _ => ?_
  cases i.denied <;> exact Tracks.ret ⟨rfl, fun _ h => by cases h⟩

theorem stopChild_unseen (env : List (String × String)) (child : ℕ) :
    Unseen (stopChild env child) (· = .cancelled) := by
  refine Unseen.then (killGroup_unseen child) fun _ =>
    Unseen.then (sweep_unseen (fun h => by cases h) _) fun _ => ?_
  refine Tracks.act fun i _ => ?_
  cases i.child with
  | cancelled => exact Tracks.raise ⟨rfl, fun _ h => by cases h; rfl⟩
  | unstarted error => exact Tracks.ret ⟨rfl, fun _ h => by cases h⟩
  | exited code out err => exact Tracks.ret ⟨rfl, fun _ h => by cases h⟩
  | overdue out err => exact Tracks.ret ⟨rfl, fun _ h => by cases h⟩

theorem Tracks.exec {argv : List String} {env : List (String × String)} {timeout : ℚ}
    {next : ℕ → Child → P α} (hcancelled : T [.exec ⟨argv, env, timeout, .cancelled⟩]
      (.error .cancelled))
    (h : ∀ place child, Tracks (next place child) fun es r =>
      T (.exec ⟨argv, env, timeout, child⟩ :: es) r) :
    Tracks (exec argv env timeout next) T := by
  refine Tracks.act fun i s => ?_
  cases i.child with
  | cancelled => exact Tracks.raise hcancelled
  | unstarted error => exact h s.length (.unstarted error)
  | exited code out err => exact h s.length (.exited code out err)
  | overdue out err => exact h s.length (.overdue out err)

end Tracks

/-! ## Plans -/

/-- A step of a plan: what is done, and when the plan goes on. -/
structure Task where
  does : Op → Prop
  succeeds : Op → Prop

/-- A plan is followed, to its end or not: every step that has a successor succeeded. -/
inductive Progress : List Task → List Op → Bool → Prop
  | stopped (tasks : List Task) : Progress tasks [] false
  | failed {task : Task} {op : Op} (tasks : List Task) : task.does op →
      Progress (task :: tasks) [op] false
  | done : Progress [] [] true
  | next {task : Task} {op : Op} {tasks : List Task} {ops : List Op} {b : Bool} :
      task.does op → task.succeeds op → Progress tasks ops b →
      Progress (task :: tasks) (op :: ops) b

theorem Progress.append {tasks tasks' : List Task} {ops ops' : List Op} {b : Bool}
    (h : Progress tasks ops true) (h' : Progress tasks' ops' b) :
    Progress (tasks ++ tasks') (ops ++ ops') b := by
  generalize hb : true = full at h
  induction h with
  | stopped => cases hb
  | failed => cases hb
  | done => exact h'
  | next hdoes hok _ ih => exact .next hdoes hok (ih hb)

theorem Progress.stops {tasks : List Task} {ops : List Op} (h : Progress tasks ops false)
    (tasks' : List Task) : Progress (tasks ++ tasks') ops false := by
  generalize hb : false = full at h
  induction h with
  | stopped => exact .stopped _
  | failed tasks hdoes => exact .failed _ hdoes
  | done => cases hb
  | next hdoes hok _ ih => exact .next hdoes hok (ih hb)

theorem Progress.length_le {tasks : List Task} {ops : List Op} {b : Bool}
    (h : Progress tasks ops b) : ops.length ≤ tasks.length := by
  induction h with
  | stopped => exact Nat.zero_le _
  | failed => exact Nat.succ_le_succ (Nat.zero_le _)
  | done => exact Nat.le_refl _
  | next _ _ _ ih => exact Nat.succ_le_succ ih

theorem Progress.length_eq {tasks : List Task} {ops : List Op} (h : Progress tasks ops true) :
    ops.length = tasks.length := by
  generalize hb : true = full at h
  induction h with
  | stopped => cases hb
  | failed => cases hb
  | done => rfl
  | next _ _ _ ih => exact congrArg Nat.succ (ih hb)

/-- A child with the arguments and the environment. -/
def command (env : List (String × String)) (ok : Child → Prop) (argv : List String) : Task where
  does op := ∃ e, op = .exec e ∧ e.argv = argv ∧ e.env = env
  succeeds op := ∃ e, op = .exec e ∧ ok e.child

/-- The child ends well. -/
def Child.Zero (child : Child) : Prop := ∃ out err, child = .exited 0 out err

/-- A part of the plan is through. -/
def finished : Except Exc (Option String) → Bool
  | .ok none => true
  | _ => false

section Runner

variable (r : LocalProbeRunner) (spec : RunSpec)

/-- What a loop over commands does with one of them. -/
theorem command_tracks {argv : List String} {env : List (String × String)} {timeout : ℚ}
    {next : ℕ → Child → P (Option String)} {tasks : List Task}
    (hgood : ∀ place out err, Tracks (next place (.exited 0 out err)) fun es res =>
      Progress tasks es (finished res))
    (hbad : ∀ place child, ¬ child.Zero → Tracks (next place child) fun es res =>
      es = [] ∧ finished res = false) :
    Tracks (exec argv env timeout next) fun es res =>
      Progress (command env Child.Zero argv :: tasks) es (finished res) := by
  refine Tracks.exec (.failed _ ⟨_, rfl, rfl, rfl⟩) fun place child => ?_
  by_cases hzero : child.Zero
  · obtain ⟨out, err, rfl⟩ := hzero
    exact (hgood place out err).weaken fun es res h =>
      .next ⟨_, rfl, rfl, rfl⟩ ⟨_, rfl, out, err, rfl⟩ h
  · refine (hbad place child hzero).weaken fun es res h => ?_
    rw [h.1, h.2]
    exact .failed _ ⟨_, rfl, rfl, rfl⟩

theorem stopped_tracks (env : List (String × String)) (place : ℕ) (reason : String) :
    Tracks (do
      stopChild env place
      pure (some reason)) fun es res => es = [] ∧ finished res = false :=
  Unseen.bind (stopChild_unseen env place) (fun _ _ => ⟨rfl, rfl⟩) fun _ => Tracks.ret ⟨rfl, rfl⟩

theorem fetchExactCommit_tracks (env : List (String × String)) (steps : List (List String)) :
    Tracks (r.fetchExactCommit spec env steps) fun es res =>
      Progress (steps.map (command env Child.Zero)) es (finished res) := by
  induction steps with
  | nil => exact Tracks.ret .done
  | cons argv steps ih =>
      refine command_tracks (fun place out err => ih) fun place child hbad => ?_
      cases child with
      | unstarted error => exact Tracks.ret ⟨rfl, rfl⟩
      | exited code out err =>
          dsimp only
          split
          · next hzero => exact absurd ⟨out, err, by rw [hzero]⟩ hbad
          · exact Tracks.ret ⟨rfl, rfl⟩
      | overdue out err => exact stopped_tracks env place _
      | cancelled => exact stopped_tracks env place _

theorem setupLoop_tracks (env : List (String × String)) (deadline : ℚ)
    (steps : List (List String)) :
    Tracks (r.setupLoop spec env deadline steps) fun es res =>
      Progress (steps.map (command env Child.Zero)) es (finished res) := by
  induction steps with
  | nil => exact Tracks.ret .done
  | cons argv steps ih =>
      refine Unseen.bind (E := fun _ => False) Unseen.ask (fun _ h => h.elim) fun now => ?_
      split
      · exact Tracks.ret (.stopped _)
      refine command_tracks (fun place out err => ih) fun place child hbad => ?_
      cases child with
      | unstarted error => exact Tracks.ret ⟨rfl, rfl⟩
      | exited code out err =>
          dsimp only
          split
          · next hzero => exact absurd ⟨out, err, by rw [hzero]⟩ hbad
          · exact Tracks.ret ⟨rfl, rfl⟩
      | overdue out err => exact stopped_tracks env place _
      | cancelled => exact stopped_tracks env place _

theorem runSetup_tracks (env : List (String × String)) :
    Tracks (r.runSetup spec env) fun es res =>
      Progress (spec.setupSteps.map (command env Child.Zero)) es (finished res) := by
  unfold LocalProbeRunner.runSetup
  split
  · next hnil =>
      rw [hnil]
      exact Tracks.ret .done
  · exact Unseen.bind (E := fun _ => False) Unseen.ask (fun _ h => h.elim)
      fun now => setupLoop_tracks r spec env _ _

theorem capture_tracks (argv : List String) (env : List (String × String)) (timeout : ℚ) :
    Tracks (r.capture argv env timeout) fun es res =>
      ∃ child, es = [.exec ⟨argv, env, timeout, child⟩] ∧
        ∀ line, res = .ok line → line = r.captured child := by
  refine Tracks.exec ⟨_, rfl, fun _ h => by cases h⟩ fun place child => ?_
  cases child with
  | overdue out err =>
      exact Unseen.bind (E := fun _ => False) (killGroup_unseen place) (fun _ h => h.elim)
        fun _ => Tracks.ret ⟨_, rfl, fun _ h => by cases h; rfl⟩
  | unstarted error => exact Tracks.ret ⟨_, rfl, fun _ h => by cases h; rfl⟩
  | exited code out err => exact Tracks.ret ⟨_, rfl, fun _ h => by cases h; rfl⟩
  | cancelled => exact Tracks.ret ⟨_, rfl, fun _ h => by cases h; rfl⟩

/-- The two questions about the checkout. -/
def LocalProbeRunner.identityTasks (env : List (String × String)) : List Task :=
  [command env (r.captured · = spec.commitSha)
      ["git", "rev-parse", "--verify", "HEAD^\x7bcommit\x7d"],
    command env (r.captured · = r.cloneUrl spec.repository) ["git", "remote", "get-url", "origin"]]

theorem verifyIdentity_tracks (env : List (String × String)) :
    Tracks (r.verifyIdentity spec env) fun es res =>
      Progress (r.identityTasks spec env) es (finished res) := by
  refine Tracks.bind (capture_tracks r _ env 30) (B := fun head es res =>
    (head ≠ spec.commitSha → es = [] ∧ finished res = false) ∧
      (head = spec.commitSha → Progress (r.identityTasks spec env).tail es (finished res)))
    (fun head => ?_) ?_ ?_
  · split
    · next hne => exact Tracks.ret ⟨fun _ => ⟨rfl, rfl⟩, fun h => absurd h hne⟩
    · next heq =>
        rw [not_not] at heq
        refine Tracks.weaken (T := fun es res =>
          Progress (r.identityTasks spec env).tail es (finished res)) ?_
          fun es res h => ⟨fun hne => absurd heq hne, fun _ => h⟩
        refine Tracks.bind (capture_tracks r _ env 30) (B := fun remote es res =>
          es = [] ∧ (finished res = true ↔ remote = r.cloneUrl spec.repository))
          (fun remote => ?_) ?_ ?_
        · split
          · next hne => exact Tracks.ret ⟨rfl, by simp [finished, hne]⟩
          · next hsame =>
              rw [not_not] at hsame
              exact Tracks.ret ⟨rfl, by simp [finished, hsame]⟩
        · rintro es e ⟨child, rfl, -⟩
          exact .failed _ ⟨_, rfl, rfl, rfl⟩
        · rintro remote es₁ es₂ res ⟨child, rfl, hline⟩ ⟨rfl, hfin⟩
          cases hres : finished res with
          | false => exact .failed _ ⟨_, rfl, rfl, rfl⟩
          | true =>
              exact .next ⟨_, rfl, rfl, rfl⟩
                ⟨_, rfl, (hline remote rfl).symm.trans (hfin.mp hres)⟩ .done
  · rintro es e ⟨child, rfl, -⟩
    exact .failed _ ⟨_, rfl, rfl, rfl⟩
  · rintro head es₁ es₂ res ⟨child, rfl, hline⟩ ⟨hbad, hgood⟩
    by_cases hhead : head = spec.commitSha
    · exact .next ⟨_, rfl, rfl, rfl⟩ ⟨_, rfl, (hline head rfl).symm.trans hhead⟩ (hgood hhead)
    · obtain ⟨rfl, hfin⟩ := hbad hhead
      rw [hfin]
      exact .failed _ ⟨_, rfl, rfl, rfl⟩

theorem toolVersions_tracks (env : List (String × String)) (tools : List String) :
    Tracks (r.toolVersions env tools) fun es _ =>
      ∀ op ∈ es, ∃ tool ∈ tools, (command env (fun _ => True) [tool, "--version"]).does op := by
  induction tools with
  | nil => exact Tracks.ret (List.forall_mem_nil _)
  | cons tool tools ih =>
      have hrest : Tracks (r.toolVersions env tools) fun es _ => ∀ op ∈ es,
          ∃ t ∈ tool :: tools, (command env (fun _ => True) [t, "--version"]).does op :=
        ih.weaken fun es res h op hop => by
          obtain ⟨t, ht, hdoes⟩ := h op hop
          exact ⟨t, List.mem_cons_of_mem _ ht, hdoes⟩
      refine Unseen.bind (E := fun _ => False) Unseen.ask (fun _ h => h.elim) fun found => ?_
      cases found with
      | false => exact hrest
      | true =>
          have hone : ∀ child : Child, ∃ t ∈ tool :: tools,
              (command env (fun _ => True) [t, "--version"]).does
                (.exec ⟨[tool, "--version"], env, 15, child⟩) :=
            fun child => ⟨tool, List.mem_cons_self, _, rfl, rfl, rfl⟩
          refine Tracks.bind (capture_tracks r _ env 15) (B := fun _ es _ => ∀ op ∈ es,
              ∃ t ∈ tool :: tools, (command env (fun _ => True) [t, "--version"]).does op)
            (fun line => Tracks.bind hrest (B := fun _ es _ => es = [])
              (fun rest => Tracks.ret rfl) (fun es e h => h) ?_) ?_ ?_
          · rintro rest es₁ es₂ res h rfl
            rw [List.append_nil]
            exact h
          · rintro es e ⟨child, rfl, -⟩
            exact List.forall_mem_singleton.mpr (hone child)
          · rintro line es₁ es₂ res ⟨child, rfl, -⟩ h
            exact List.forall_mem_append.mpr ⟨List.forall_mem_singleton.mpr (hone child), h⟩

/-! ## The run in its workspace -/

/-- The variables of the download caches, if there are any. -/
def LocalProbeRunner.Cached (cache : List (String × String)) : Prop :=
  cache = [] ∨ ∃ root key, r.cacheRoot = some root ∧
    cache = [("npm_config_cache", root ++ "/" ++ key ++ "/npm"),
      ("YARN_CACHE_FOLDER", root ++ "/" ++ key ++ "/yarn"),
      ("PIP_CACHE_DIR", root ++ "/" ++ key ++ "/pip")]

/-- The last step of the plan. -/
def scriptTask (workspace : String) (env : List (String × String)) : Task where
  does op := ∃ e, op = .exec e ∧ e.argv = ["bash", workspace ++ "/probe.sh"] ∧ e.env = env ∧
    e.timeout = spec.timeoutSeconds
  succeeds _ := True

def writeTask (workspace : String) : Task where
  does op := op = .write (workspace ++ "/probe.sh") spec.scriptContent
  succeeds _ := True

/-- What a run is to do in its workspace, with the environments before and after the script is
written. -/
def LocalProbeRunner.plan (workspace : String) (env env' : List (String × String)) : List Task :=
  (r.fetchSteps spec).map (command env Child.Zero) ++ (r.identityTasks spec env ++
    (writeTask spec workspace ::
      (spec.setupSteps.map (command env' Child.Zero) ++
        [scriptTask spec workspace env'])))

/-- There is more than what is kept. -/
def Longer (limit : Int) (d : List UInt8) : Prop := d ≠ [] ∧ limit < d.length

/-- The result of a script that wrote `out` and `err`, and ended by itself or was overdue. -/
structure LocalProbeRunner.Verdict (result : ProbeRunResult) (child : Child)
    (out err : List (List UInt8)) : Prop where
  ended : (∃ code, child = .exited code out err ∧ result.exitCode = some code ∧
      result.timedOut = false) ∨
    child = .overdue out err ∧ result.exitCode = none ∧ result.timedOut = true
  sound : result.infrastructureError = none
  identity : result.commandIdentity = commandIdentity spec.toProbeRunSpec
  stdout : result.stdout = r.decode ((received out).take spec.maxOutputBytes.toNat)
  stderr : result.stderr = r.decode ((received err).take spec.maxOutputBytes.toNat)
  truncated : result.outputTruncated = true ↔
    Longer spec.maxOutputBytes (received out) ∨ Longer spec.maxOutputBytes (received err)

/-- How far the plan was followed when a stage failed. -/
def StageAt (stage : String) (n : ℕ) : Prop :=
  stage = "fetch" ∧ n ≤ 6 ∨ stage = "setup" ∧ 7 ≤ n ∧ n ≤ 7 + spec.setupSteps.length ∨
    stage = "execute" ∧ n = 8 + spec.setupSteps.length

/-- A result that says nothing about the product. -/
structure InfraAt (stage : String) (result : ProbeRunResult) : Prop where
  failed : result.infrastructureError.isSome = true
  stage : result.failureStage = some stage
  exitCode : result.exitCode = none
  timedOut : result.timedOut = false
  output : result.stdout = "" ∧ result.stderr = "" ∧ result.outputTruncated = false

/-- How a run in a workspace ends: `true` if the plan was followed to its end. -/
inductive LocalProbeRunner.Ending (planned : List Op) : Bool → Except Exc ProbeRunResult → Prop
  | raised (e : Exc) : LocalProbeRunner.Ending planned false (.error e)
  | infra {stage : String} {result : ProbeRunResult} : InfraAt stage result →
      StageAt spec stage planned.length → LocalProbeRunner.Ending planned false (.ok result)
  | verdict {e : Exec} {result : ProbeRunResult} {out err : List (List UInt8)} :
      planned.getLast? = some (.exec e) → r.Verdict spec result e.child out err →
      LocalProbeRunner.Ending planned true (.ok result)

theorem infraResult_tracks (identity : String) (started : ℚ) (reason stage : String)
    (versions : List (String × String)) :
    Tracks (infraResult identity started reason stage versions) fun es res =>
      es = [] ∧ ∃ result, res = .ok result ∧ InfraAt stage result :=
  Unseen.bind (E := fun _ => False) Unseen.ask (fun _ h => h.elim) fun _ =>
    Tracks.ret ⟨rfl, _, rfl, rfl, rfl, rfl, rfl, rfl, rfl, rfl⟩

theorem verdict_tracks (identity : String) (started : ℚ) (versions : List (String × String))
    (exitCode : Option Int) (out err : List (List UInt8)) :
    Tracks (r.verdict spec identity started versions exitCode out err) fun es res =>
      es = [] ∧ ∃ result, res = .ok result ∧ result.exitCode = exitCode ∧
        result.timedOut = exitCode.isNone ∧ result.infrastructureError = none ∧
        result.commandIdentity = identity ∧
        result.stdout = r.decode ((received out).take spec.maxOutputBytes.toNat) ∧
        result.stderr = r.decode ((received err).take spec.maxOutputBytes.toNat) ∧
        (result.outputTruncated = true ↔ Longer spec.maxOutputBytes (received out) ∨
          Longer spec.maxOutputBytes (received err)) := by
  refine Unseen.bind (E := fun _ => False) Unseen.ask (fun _ h => h.elim) fun now => ?_
  obtain ⟨hout, hmore⟩ := drain_keeps_front spec.maxOutputBytes out
  obtain ⟨herr, hmore'⟩ := drain_keeps_front spec.maxOutputBytes err
  refine Tracks.ret ⟨rfl, _, rfl, rfl, rfl, rfl, rfl, ?_, ?_, ?_⟩
  · dsimp only
    rw [hout]
  · dsimp only
    rw [herr]
  · dsimp only
    rw [Bool.or_eq_true, hmore, hmore']
    rfl

/-- The end of the plan, after a part `planned` of it. -/
def LocalProbeRunner.Executed (planned : List Op) (tasks : List Task) (es : List Op)
    (res : Except Exc ProbeRunResult) : Prop :=
  ∃ b, Progress tasks es b ∧ r.Ending spec (planned ++ es) b res

theorem execute_tracks (workspace : String) (started : ℚ) (env versions : List (String × String))
    {planned : List Op} (hplanned : planned.length = 7 + spec.setupSteps.length) :
    Tracks (r.execute spec (commandIdentity spec.toProbeRunSpec) started (workspace ++ "/probe.sh")
      env versions) (r.Executed spec planned [scriptTask spec workspace env]) := by
  have hdoes : ∀ child, (scriptTask spec workspace env).does
      (.exec ⟨["bash", workspace ++ "/probe.sh"], env, spec.timeoutSeconds, child⟩) :=
    fun child => ⟨_, rfl, rfl, rfl, rfl⟩
  refine Tracks.exec ⟨false, .failed _ (hdoes _), .raised _⟩ fun place child => ?_
  cases child with
  | unstarted error =>
      refine (infraResult_tracks _ _ _ _ _).weaken ?_
      rintro es res ⟨rfl, result, rfl, hinfra⟩
      refine ⟨false, .failed _ (hdoes _), .infra hinfra (Or.inr (Or.inr ⟨rfl, ?_⟩))⟩
      rw [List.length_append, hplanned, List.length_singleton]
      omega
  | exited code out err =>
      refine (verdict_tracks r spec _ _ _ _ _ _).weaken ?_
      rintro es res ⟨rfl, result, rfl, hcode, htime, hsound, hid, hout, herr, hmore⟩
      exact ⟨true, .next (hdoes _) trivial .done, .verdict List.getLast?_concat
        ⟨Or.inl ⟨code, rfl, hcode, htime⟩, hsound, hid, hout, herr, hmore⟩⟩
  | overdue out err =>
      refine Unseen.bind (stopChild_unseen env place)
        (fun e _ => ⟨false, .failed _ (hdoes _), .raised e⟩) fun _ => ?_
      refine (verdict_tracks r spec _ _ _ _ _ _).weaken ?_
      rintro es res ⟨rfl, result, rfl, hcode, htime, hsound, hid, hout, herr, hmore⟩
      exact ⟨true, .next (hdoes _) trivial .done, .verdict List.getLast?_concat
        ⟨Or.inr ⟨rfl, hcode, htime⟩, hsound, hid, hout, herr, hmore⟩⟩
  | cancelled => exact Tracks.raise ⟨false, .failed _ (hdoes _), .raised _⟩

variable {r spec}

/-- A part of the plan that is through, and the rest. -/
theorem LocalProbeRunner.Executed.after {planned es es' : List Op} {tasks tasks' : List Task}
    {res : Except Exc ProbeRunResult} (h : Progress tasks es true)
    (h' : r.Executed spec (planned ++ es) tasks' es' res) :
    r.Executed spec planned (tasks ++ tasks') (es ++ es') res := by
  obtain ⟨b, hprogress, hending⟩ := h'
  rw [List.append_assoc] at hending
  exact ⟨b, h.append hprogress, hending⟩

theorem LocalProbeRunner.Executed.stop {planned es : List Op} {tasks : List Task}
    {res : Except Exc ProbeRunResult} (h : Progress tasks es false)
    (hending : r.Ending spec (planned ++ es) false res) (tasks' : List Task) :
    r.Executed spec planned (tasks ++ tasks') es res :=
  ⟨false, h.stops tasks', hending⟩

/-- A stage that fails ends the run, and a stage that is through is followed by the next one. The
rest of the plan may depend on something that is settled later. -/
theorem stage_tracks {ι : Type} {C : ι → Prop} (c₀ : ι) (h₀ : C c₀) (stage : String)
    (planned : List Op) (rest : ι → List Task) {p : P (Option String)}
    {k : Option String → P ProbeRunResult} {tasks : List Task}
    (hp : Tracks p fun es res => Progress tasks es (finished res))
    (hfail : ∀ reason, Tracks (k (some reason)) fun es res =>
      es = [] ∧ ∃ result, res = .ok result ∧ InfraAt stage result)
    (hstage : ∀ n, planned.length ≤ n → n ≤ planned.length + tasks.length → StageAt spec stage n)
    (hnext : ∀ es : List Op, es.length = tasks.length → Tracks (k none) fun es' res =>
      ∃ c, C c ∧ r.Executed spec (planned ++ es) (rest c) es' res) :
    Tracks (p.bind k) fun es res => ∃ c, C c ∧ r.Executed spec planned (tasks ++ rest c) es res := by
  refine Tracks.bind hp (B := fun out es res =>
    (∀ reason, out = some reason → es = [] ∧ ∃ result, res = .ok result ∧ InfraAt stage result) ∧
      (out = none → ∀ es₁ : List Op, es₁.length = tasks.length →
        ∃ c, C c ∧ r.Executed spec (planned ++ es₁) (rest c) es res)) (fun out => ?_) ?_ ?_
  · cases out with
    | some reason =>
        exact (hfail reason).weaken fun es res h => ⟨fun _ _ => h, fun h => by cases h⟩
    | none =>
        refine fun s l res s' hrun => ⟨(fun _ h => by cases h), fun _ es₁ hes => ?_⟩
        exact hnext es₁ hes s l res s' hrun
  · exact fun es e h => ⟨c₀, h₀, .stop h (.raised e) _⟩
  · rintro out es₁ es₂ res hprogress ⟨hbad, hgood⟩
    cases out with
    | some reason =>
        obtain ⟨rfl, result, rfl, hinfra⟩ := hbad reason rfl
        rw [List.append_nil]
        have hle := hprogress.length_le
        refine ⟨c₀, h₀, .stop hprogress (.infra hinfra (hstage _ ?_ ?_)) _⟩
        · rw [List.length_append]
          omega
        · rw [List.length_append]
          omega
    | none =>
        obtain ⟨c, hc, hexec⟩ := hgood rfl es₁ hprogress.length_eq
        exact ⟨c, hc, .after hprogress hexec⟩

variable (r spec)

theorem cacheEnv_tracks :
    Tracks (r.cacheEnv spec) fun es res => es = [] ∧ ∀ cache, res = .ok cache → r.Cached cache := by
  unfold LocalProbeRunner.cacheEnv
  split
  · exact Tracks.ret ⟨rfl, fun _ h => Or.inl (Except.ok.inj h).symm⟩
  · next root hroot =>
      split
      · exact Tracks.ret ⟨rfl, fun _ h => Or.inl (Except.ok.inj h).symm⟩
      · refine Tracks.act fun i s => ?_
        have hquiet : [if i.lockfiles.isSome then Op.cache root else .look].filter Op.visible =
            [] := by
          cases i.lockfiles <;> rfl
        rw [hquiet]
        split
        · exact Tracks.raise ⟨rfl, fun _ h => by cases h⟩
        · split
          · exact Tracks.ret ⟨rfl, fun _ h => Or.inl (Except.ok.inj h).symm⟩
          · next key hkey =>
              exact Tracks.ret ⟨rfl, fun _ h =>
                Or.inr ⟨root, key, hroot, (Except.ok.inj h).symm⟩⟩

/-- A run in its workspace: the versions of the tools are asked for, and the plan is followed. -/
def LocalProbeRunner.Worked (workspace : String) (env : List (String × String)) (es : List Op)
    (res : Except Exc ProbeRunResult) : Prop :=
  ∃ versions planned cache, es = versions ++ planned ∧ r.Cached cache ∧
    (∀ op ∈ versions, ∃ tool ∈ runTools spec,
      (command env (fun _ => True) [tool, "--version"]).does op) ∧
    r.Executed spec [] (r.plan spec workspace env (update (update env (probeEnv spec)) cache))
      planned res

/-- The last two stages. -/
theorem fromSetup_tracks (started : ℚ) (workspace : String)
    (env versions : List (String × String)) {planned : List Op} (hplanned : planned.length = 7) :
    Tracks (r.fromSetup spec (commandIdentity spec.toProbeRunSpec) started workspace env versions)
      (r.Executed spec planned (spec.setupSteps.map (command env Child.Zero) ++
        [scriptTask spec workspace env])) := by
  refine (stage_tracks (C := fun _ : Unit => True) () trivial "setup" planned (fun _ => [scriptTask spec workspace env])
    (runSetup_tracks r spec env)
    (fun reason => infraResult_tracks _ _ _ _ _) (fun n hge hle => ?_) fun es hes => ?_).weaken
    fun es res h => h.elim fun _ h => h.2
  · rw [List.length_map] at hle
    exact Or.inr (Or.inl ⟨rfl, by omega, by omega⟩)
  · rw [List.length_map] at hes
    refine (execute_tracks r spec workspace started env versions ?_).weaken
      fun es res h => ⟨(), trivial, h⟩
    rw [List.length_append]
    omega

/-- The script is written and the rest follows. -/
theorem fromScript_tracks (started : ℚ) (workspace : String) (env versions : List (String × String))
    {planned : List Op} (hplanned : planned.length = 6) :
    Tracks (r.fromScript spec (commandIdentity spec.toProbeRunSpec) started workspace env versions)
      (fun es res => ∃ cache, r.Cached cache ∧ r.Executed spec planned
        (writeTask spec workspace :: (spec.setupSteps.map
          (command (update (update env (probeEnv spec)) cache) Child.Zero) ++
            [scriptTask spec workspace (update (update env (probeEnv spec)) cache)])) es res) := by
  have hwrite : Tracks (attempt (.write (workspace ++ "/probe.sh") spec.scriptContent))
      fun es _ => es = [.write (workspace ++ "/probe.sh") spec.scriptContent] := by
    refine Tracks.act fun i s => ?_
    cases i.error with
    | none => exact Tracks.ret rfl
    | some error => exact Tracks.raise rfl
  have hnone : r.Cached [] := Or.inl rfl
  refine Tracks.bind hwrite (B := fun _ es res => ∃ cache, r.Cached cache ∧ r.Executed spec
    (planned ++ [.write (workspace ++ "/probe.sh") spec.scriptContent])
      (spec.setupSteps.map (command (update (update env (probeEnv spec)) cache) Child.Zero) ++
        [scriptTask spec workspace (update (update env (probeEnv spec)) cache)]) es res)
    (fun _ => ?_) ?_ ?_
  · refine Tracks.bind (cacheEnv_tracks r spec) (B := fun cache es res => r.Executed spec
      (planned ++ [.write (workspace ++ "/probe.sh") spec.scriptContent])
        (spec.setupSteps.map (command (update (update env (probeEnv spec)) cache) Child.Zero) ++
          [scriptTask spec workspace (update (update env (probeEnv spec)) cache)]) es res)
      (fun cache => fromSetup_tracks r spec started workspace _ versions ?_) ?_ ?_
    · rw [List.length_append, hplanned, List.length_singleton]
    · rintro es e ⟨rfl, -⟩
      exact ⟨[], hnone, false, .stopped _, .raised e⟩
    · rintro cache es₁ es₂ res ⟨rfl, hcache⟩ h
      exact ⟨cache, hcache cache rfl, h⟩
  · rintro es e rfl
    exact ⟨[], hnone, false, .failed _ rfl, .raised e⟩
  · rintro _ es₁ es₂ res rfl ⟨cache, hcache, b, hprogress, hending⟩
    rw [List.append_assoc] at hending
    exact ⟨cache, hcache, b, .next rfl trivial hprogress, hending⟩

theorem inWorkspace_tracks (started : ℚ) (workspace : String) (env : List (String × String)) :
    Tracks (r.inWorkspace spec (commandIdentity spec.toProbeRunSpec) started workspace env)
      (r.Worked spec workspace env) := by
  refine Tracks.bind (toolVersions_tracks r env _)
    (B := fun _ es res => ∃ cache, r.Cached cache ∧ r.Executed spec []
      (r.plan spec workspace env (update (update env (probeEnv spec)) cache)) es res)
    (fun versions => ?_) ?_ ?_
  · have hnone : r.Cached [] := Or.inl rfl
    refine stage_tracks (C := r.Cached) [] hnone "fetch" [] _
      (fetchExactCommit_tracks r spec env _) (fun reason => infraResult_tracks _ _ _ _ _)
      (fun n _ hle => Or.inl ⟨rfl, ?_⟩) fun es hes => ?_
    · exact Nat.le_trans hle (Nat.le_add_right 4 2)
    refine stage_tracks (C := r.Cached) [] hnone "fetch" ([] ++ es) _
      (verifyIdentity_tracks r spec env) (fun reason => infraResult_tracks _ _ _ _ _)
      (fun n _ hle => Or.inl ⟨rfl, ?_⟩) fun es' hes' => ?_
    · rw [List.nil_append, hes] at hle
      exact hle
    · refine fromScript_tracks r spec started workspace env versions ?_
      rw [List.nil_append, List.length_append, hes, hes']
      rfl
  · intro es e h
    refine ⟨es, [], [], (List.append_nil es).symm, Or.inl rfl, fun op hop => ?_, false, .stopped _,
      .raised e⟩
    obtain ⟨tool, htool, hdoes⟩ := h op hop
    exact ⟨tool, List.mem_eraseDups.mp htool, hdoes⟩
  · rintro versions es₁ es₂ res h ⟨cache, hcache, hexec⟩
    refine ⟨es₁, es₂, cache, rfl, hcache, fun op hop => ?_, hexec⟩
    obtain ⟨tool, htool, hdoes⟩ := h op hop
    exact ⟨tool, List.mem_eraseDups.mp htool, hdoes⟩

/-- What is done at the end is done at every end. If it raises, that is how all of it ends. -/
theorem withCleanup_tracks {α : Type} {p : P α} {fin : P Unit}
    {T : List Op → Except Exc α → Prop} {F : List Op → Except Exc Unit → Prop} (hp : Tracks p T)
    (hfin : Tracks fin F) : Tracks (withCleanup p fin) fun es res =>
      ∃ es₁ es₂ res₁ out, es = es₁ ++ es₂ ∧ T es₁ res₁ ∧ F es₂ out ∧
        res = out.bind fun _ => res₁ := by
  have hlast : ∀ (q : P α) (res₁ : Except Exc α), (Tracks q fun es res => es = [] ∧ res = res₁) →
      Tracks (fin.bind fun _ => q) fun es res => ∃ out, F es out ∧ res = out.bind fun _ => res₁ := by
    intro q res₁ hq
    refine Tracks.bind hfin (fun _ => hq) (fun es e h => ⟨.error e, h, rfl⟩) ?_
    rintro u es₁ es₂ res h ⟨rfl, rfl⟩
    rw [List.append_nil]
    exact ⟨.ok u, h, rfl⟩
  refine Tracks.bind (A := fun es res => (∀ a, res = .ok a → T es (.ok a)) ∧
      ∀ e, res = .error e → ∃ es₁ es₂ res₁ out, es = es₁ ++ es₂ ∧ T es₁ res₁ ∧ F es₂ out ∧
        .error e = out.bind fun _ => res₁) ?_
    (fun a => hlast (.ret a) (.ok a) (Tracks.ret ⟨rfl, rfl⟩)) ?_ ?_
  · refine Tracks.handle hp
      (fun e => hlast (.raise e) (.error e) (Tracks.raise ⟨rfl, rfl⟩)) ?_ ?_
    · exact fun a es h => ⟨fun b hb => by cases hb; exact h, fun e he => by cases he⟩
    · rintro e es₁ es₂ res h ⟨out, hout, rfl⟩
      refine ⟨fun a ha => ?_, fun e' he => ⟨es₁, es₂, .error e, out, rfl, h, hout, he.symm⟩⟩
      cases out with
      | ok u => cases ha
      | error e' => cases ha
  · exact fun es e h => h.2 e rfl
  · rintro a es₁ es₂ res h ⟨out, hout, hres⟩
    exact ⟨es₁, es₂, .ok a, out, rfl, h.1 a rfl, hout, hres⟩

theorem cleanup_tracks (workspace marker : String) :
    Tracks (cleanup workspace marker) fun es res => es = [.rmtree workspace] ∧ res = .ok () :=
  Unseen.bind (E := fun _ => False) (sweep_unseen (fun h => by cases h) _) (fun _ h => h.elim) fun _ =>
    Tracks.act fun _ _ => Tracks.ret ⟨rfl, rfl⟩

/-- What a run does: it is refused, or fails to make its directories, or works in its workspace
and removes it at the end. -/
inductive LocalProbeRunner.Conduct (es : List Op) (res : Except Exc ProbeRunResult) : Prop
  | refused {result : ProbeRunResult} : es = [] → res = .ok result → InfraAt "preflight" result →
      LocalProbeRunner.Conduct es res
  | unready {workspace : String} :
      es <+: [.mkdir (workspace ++ "/repo"), .mkdir (workspace ++ "/home")] → es ≠ [] →
      res = .error .unboundLocal → LocalProbeRunner.Conduct es res
  | worked {workspace marker : String} {es' : List Op} : r.invalidSetupStep spec = none →
      es = [.mkdir (workspace ++ "/repo"), .mkdir (workspace ++ "/home")] ++
        (es' ++ [.rmtree workspace]) →
      r.Worked spec workspace (r.runEnv workspace marker) es' res →
      LocalProbeRunner.Conduct es res

theorem attempt_tracks (op : Op) (hop : op.visible = true) :
    Tracks (attempt op) fun es _ => es = [op] := by
  have hone : [op].filter Op.visible = [op] := List.filter_cons_of_pos hop
  refine Tracks.act fun i s => ?_
  rw [hone]
  cases i.error with
  | none => exact Tracks.ret rfl
  | some error => exact Tracks.raise rfl

theorem runIn_tracks (hsteps : r.invalidSetupStep spec = none) (started : ℚ) (workspace : String) :
    Tracks (r.runIn spec (commandIdentity spec.toProbeRunSpec) started workspace)
      (r.Conduct spec) := by
  have hdirs : Tracks (do
      attempt (.mkdir (workspace ++ "/repo"))
      attempt (.mkdir (workspace ++ "/home"))) fun es res => es ≠ [] ∧
        es <+: [.mkdir (workspace ++ "/repo"), .mkdir (workspace ++ "/home")] ∧
        (res = .ok () → es = [.mkdir (workspace ++ "/repo"), .mkdir (workspace ++ "/home")]) := by
    refine Tracks.bind (attempt_tracks (.mkdir (workspace ++ "/repo")) rfl)
      (fun _ => attempt_tracks (.mkdir (workspace ++ "/home")) rfl) ?_ ?_
    · rintro es e rfl
      exact ⟨by simp, ⟨[.mkdir (workspace ++ "/home")], rfl⟩, fun h => by cases h⟩
    · rintro u es₁ es₂ res rfl rfl
      exact ⟨by simp, List.prefix_refl _, fun _ => rfl⟩
  refine Tracks.bind (A := fun es res =>
      (∀ e, res = .error e → e = .unboundLocal ∧ es ≠ [] ∧
        es <+: [.mkdir (workspace ++ "/repo"), .mkdir (workspace ++ "/home")]) ∧
      (res = .ok () → es = [.mkdir (workspace ++ "/repo"), .mkdir (workspace ++ "/home")]))
    (B := fun _ es res => ∃ marker es', es = es' ++ [.rmtree workspace] ∧
      r.Worked spec workspace (r.runEnv workspace marker) es' res) ?_ (fun _ => ?_) ?_ ?_
  · refine Tracks.handle hdirs (B := fun _ es res => es = [] ∧ res = .error .unboundLocal)
      (fun e => Tracks.raise ⟨rfl, rfl⟩) ?_ ?_
    · exact fun a es h => ⟨(fun e he => by cases he), fun _ => h.2.2 rfl⟩
    · rintro e es₁ es₂ res ⟨hne, hstart, -⟩ ⟨rfl, rfl⟩
      rw [List.append_nil]
      exact ⟨fun e' he => ⟨(Except.error.inj he).symm, hne, hstart⟩, fun h => by cases h⟩
  · refine Unseen.bind (E := fun _ => False) Unseen.ask (fun _ h => h.elim) fun marker => ?_
    refine (withCleanup_tracks (inWorkspace_tracks r spec started workspace _)
      (cleanup_tracks workspace marker)).weaken fun es res h => ?_
    obtain ⟨es', last, res', out, rfl, hworked, ⟨rfl, rfl⟩, rfl⟩ := h
    exact ⟨marker, es', rfl, hworked⟩
  · rintro es e ⟨herror, -⟩
    obtain ⟨rfl, hne, hstart⟩ := herror e rfl
    exact .unready hstart hne rfl
  · rintro u es₁ es₂ res ⟨-, hdone⟩ ⟨marker, es', rfl, hworked⟩
    rw [hdone rfl]
    exact .worked hsteps rfl hworked

/-- **What a run of the local runner does**, whatever the host answers and however it ends: the
commands are those of the plan, each after the one before it succeeded, a verdict is that of the
approved script at the end of the plan, and every other result is an infrastructure failure. -/
theorem run_conduct : Tracks (r.run spec) (r.Conduct spec) := by
  have hrefused : ∀ started reason, Tracks (infraResult (commandIdentity spec.toProbeRunSpec)
      started reason "preflight" []) (r.Conduct spec) := fun started reason =>
    (infraResult_tracks _ _ _ _ _).weaken fun es res h => by
      obtain ⟨hnil, result, hres, hinfra⟩ := h
      exact .refused hnil hres hinfra
  refine Unseen.bind (E := fun _ => False) Unseen.ask (fun _ h => h.elim) fun started => ?_
  refine Unseen.bind (E := fun _ => False) Unseen.ask (fun _ h => h.elim) fun exposed => ?_
  split
  · exact hrefused started _
  refine Unseen.bind (E := fun _ => False) Unseen.ask (fun _ h => h.elim) fun missing => ?_
  split
  · exact hrefused started _
  split
  · exact hrefused started _
  next hsteps =>
    refine Unseen.bind (E := fun _ => False) Unseen.ask (fun _ h => h.elim) fun made => ?_
    split
    · exact hrefused started _
    · exact runIn_tracks r spec hsteps started _

end Runner

end Remediator.Probes.Host
