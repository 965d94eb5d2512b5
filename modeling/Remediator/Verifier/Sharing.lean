import Remediator.Verifier.Replay

set_option autoImplicit false

/-! # Concurrent duplicates

Any number of requests with one id and the same parameters, while nothing else is executed. They
share one run as long as none of them looks for a run in flight while another one is between its
own look and the registration of its run, that is, waits for the registry.
-/

namespace Remediator.Verifier

open OrderedDict Machine

/-! ## The setting -/

def Pc.isLoading : Pc → Bool
  | .loading => true
  | _ => false

/-- Requests with the id of `r` are duplicates of it, the registry approves them, their calls do
not raise, nothing else is executed, and results are not yet old. -/
def solo (cfg : Config) (r : ProbeRequest) (s : Front) : Step → Bool
  | .arrive q => decide (q.requestId ≠ r.requestId) || decide (q = r)
  | .load i probe =>
      match s.handlers[i]? with
      | some h =>
          match specFor cfg h.request probe with
          | .ok _ => decide (h.request = r)
          | .error _ => decide (h.request ≠ r)
      | none => true
  | .raise i =>
      match s.handlers[i]? with
      | some h => decide (h.request ≠ r)
      | none => true
  | .tick n => decide (s.now + n ≤ resultTtlSeconds)
  | _ => true

/-- No duplicate looks for a run in flight while another one waits for the registry. -/
def apart (r : ProbeRequest) (s : Front) : Step → Bool
  | .check i =>
      match s.handlers[i]? with
      | some h => decide (h.request ≠ r) ||
          s.handlers.all (fun x => decide (x.request ≠ r) || !x.pc.isLoading)
      | none => true
  | _ => true

/-- The steps of the handlers and of the executor. -/
def Step.internal : Step → Bool
  | .arrive _ | .raise _ | .tick _ => false
  | _ => true

/-! ## Work that is left -/

def Pc.weight : Pc → Nat
  | .arrived => 6
  | .loading => 5
  | .waiting _ | .running _ => 1
  | .ended _ => 0

def Phase.weight : Phase → Nat
  | .sent => 2
  | .executing => 1
  | .busy | .exited => 0

/-- How many steps the handlers and the executor can still take. -/
def Front.work (s : Front) : Nat :=
  (s.handlers.map (fun h => h.pc.weight)).sum + (s.runs.map (fun run => run.phase.weight)).sum

/-! ## What the duplicates get -/

/-- The executor is started at most once; every duplicate that has ended returned the response of
that run, and all but one of them returned it as a replay; and as long as one has not ended, a step
of the handlers or of the executor is possible. -/
structure Shared (cfg : Config) (r : ProbeRequest) (s : Front) : Prop where
  once : s.runs.length ≤ 1
  answers : ∃ (leader : Nat) (response : ProbeResponse), response.replayed = false ∧
    ∀ (i : Nat) (h : Handler) o, s.handlers[i]? = some h → h.request = r → h.pc = .ended o →
      o = .response (if i = leader then response else { response with replayed := true }) 0
  goesOn : (∃ h ∈ s.handlers, h.request = r ∧ ∀ o, h.pc ≠ .ended o) →
    ∃ st s', st.internal = true ∧ (solo cfg r s st && apart r s st) = true ∧
      s.exec cfg st = some s'
  ends : ∀ st s', st.internal = true → s.exec cfg st = some s' → s'.work < s.work

/-! ## The invariant -/

/-- What holds at every time. -/
structure Setting (cfg : Config) (r : ProbeRequest) (s : Front) : Prop where
  same : ∀ (i : Nat) (h : Handler), s.handlers[i]? = some h →
    h.request.requestId = r.requestId → h.request = r
  others : ∀ (i : Nat) (h : Handler), s.handlers[i]? = some h → h.request ≠ r →
    ∀ k, h.pc ≠ .waiting k ∧ h.pc ≠ .running k
  bound : ∀ p ∈ s.store.fingerprints, p.1 = r.requestId → p.2 = r.fingerprint cfg
  recent : s.now ≤ resultTtlSeconds

/-- The run of the duplicates is not registered, in flight, or done. -/
inductive Stage (r : ProbeRequest) (s : Front) : Prop
  | before (runs : s.runs = []) (futures : s.futures = []) (done : s.store.done = [])
      (inflight : s.store.inflight = [])
      (pcs : ∀ (i : Nat) (h : Handler), s.handlers[i]? = some h → h.request = r →
        h.pc = .arrived ∨ h.pc = .loading)
      (one : ∀ (i j : Nat) (h h' : Handler), s.handlers[i]? = some h → s.handlers[j]? = some h' →
        h.request = r → h'.request = r → h.pc = .loading → h'.pc = .loading → i = j)
  | during (leader : Nat) (run : Run) (runs : s.runs = [run]) (request : run.request = r)
      (phase : run.phase ≠ .busy) (futures : s.futures = [none]) (done : s.store.done = [])
      (inflight : s.store.inflight = [(r.requestId, 0)])
      (leads : s.handlers[leader]? = some ⟨r, .running 0⟩)
      (pcs : ∀ (i : Nat) (h : Handler), s.handlers[i]? = some h → h.request = r → i ≠ leader →
        h.pc = .arrived ∨ h.pc = .waiting 0)
  | after (leader : Nat) (run : Run) (response : ProbeResponse) (stamp : Nat)
      (runs : s.runs = [run]) (fresh : response.replayed = false)
      (futures : s.futures = [some (.response response 0)])
      (done : s.store.done = [(r.requestId, ⟨stamp, response, 0⟩)])
      (inflight : s.store.inflight = [])
      (led : s.handlers[leader]? = some ⟨r, .ended (.response response 0)⟩)
      (pcs : ∀ (i : Nat) (h : Handler), s.handlers[i]? = some h → h.request = r → i ≠ leader →
        h.pc = .arrived ∨ h.pc = .waiting 0 ∨
          h.pc = .ended (.response { response with replayed := true } 0))

section Bind

variable {cfg : Config} {r : ProbeRequest} {s : Front}

/-- Binding a request keeps the binding of the duplicates. -/
theorem bind_bound {st : ResultStore} {q : ProbeRequest}
    (h : ∀ p ∈ st.fingerprints, p.1 = r.requestId → p.2 = r.fingerprint cfg)
    (hq : q.requestId = r.requestId → q = r) :
    ∀ p ∈ (st.bind q.requestId (q.fingerprint cfg)).1.fingerprints, p.1 = r.requestId →
      p.2 = r.fingerprint cfg := by
  unfold ResultStore.bind
  split
  · intro p hp hid
    dsimp only at hp
    rcases mem_assign (List.mem_of_mem_drop hp) with heq | hmem
    · rw [heq] at hid ⊢
      exact congrArg (ProbeRequest.fingerprint cfg) (hq hid)
    · exact h p hmem hid
  · exact h

/-- A duplicate is not refused. -/
theorem bind_duplicate {st : ResultStore}
    (h : ∀ p ∈ st.fingerprints, p.1 = r.requestId → p.2 = r.fingerprint cfg) :
    (st.bind r.requestId (r.fingerprint cfg)).2 = true := by
  unfold ResultStore.bind
  split
  · rfl
  · next known hknown => exact decide_eq_true (h _ (mem_of_lookup hknown) rfl)

theorem evict_nil {st : ResultStore} (h : st.done = []) (now : Nat) : st.evict now = st := by
  unfold ResultStore.evict ResultStore.evictedIds
  rw [h]
  cases st
  cases h
  rfl

/-- A result that is not old is kept. -/
theorem evict_single {st : ResultStore} {id : String} {e : Stored} (h : st.done = [(id, e)])
    {now : Nat} (hnow : now ≤ resultTtlSeconds) : st.evict now = st := by
  have hcount : evictCount now st.done = 0 := by
    rw [h]
    unfold evictCount
    rw [if_neg]
    rintro (hold | hfull)
    · dsimp only at hold
      omega
    · exact Nat.not_lt.mpr (by decide : 1 ≤ resultMaxEntries) hfull
  unfold ResultStore.evict ResultStore.evictedIds
  rw [hcount]
  rfl

theorem Stage.done_cases (h : Stage r s) :
    s.store.done = [] ∨ ∃ stamp response, s.store.done = [(r.requestId, ⟨stamp, response, 0⟩)] := by
  cases h with
  | before _ _ done => exact Or.inl done
  | during _ _ _ _ _ _ done => exact Or.inl done
  | after _ _ response stamp _ _ _ done => exact Or.inr ⟨stamp, response, done⟩

theorem Stage.evict (h : Stage r s) (hs : Setting cfg r s) {st : ResultStore}
    (hdone : st.done = s.store.done) : st.evict s.now = st := by
  rcases h.done_cases with hnil | ⟨stamp, response, hone⟩
  · exact evict_nil (hdone.trans hnil) _
  · exact evict_single (hdone.trans hone) hs.recent

end Bind

/-! ## Steps -/

section Steps

variable {cfg : Config} {r : ProbeRequest} {s : Front}

/-- A handler is left where its duplicates may be, or is none of them. -/
theorem Setting.setPc (h : Setting cfg r s) {i : Nat} {x : Handler} {pc : Pc}
    (hx : s.handlers[i]? = some x)
    (hpc : x.request ≠ r → ∀ k, pc ≠ .waiting k ∧ pc ≠ .running k) : Setting cfg r (s.setPc i pc) := by
  refine ⟨fun j y hy hid => ?_, fun j y hy hne => ?_, h.bound, h.recent⟩
  · rcases setPc_get hy with ⟨-, hold⟩ | ⟨-, x', hx', heq⟩
    · exact h.same j y hold hid
    · rw [hx] at hx'
      cases hx'
      subst heq
      exact h.same i x hx hid
  · rcases setPc_get hy with ⟨-, hold⟩ | ⟨-, x', hx', heq⟩
    · exact h.others j y hold hne
    · rw [hx] at hx'
      cases hx'
      subst heq
      exact hpc hne

/-- A step of a handler that is none of the duplicates. -/
theorem Stage.other (h : Stage r s) {i : Nat} {x : Handler} {pc : Pc}
    (hx : s.handlers[i]? = some x) (hne : x.request ≠ r) : Stage r (s.setPc i pc) := by
  -- the duplicates are where they were
  have hold : ∀ (j : Nat) (y : Handler), (s.setPc i pc).handlers[j]? = some y → y.request = r →
      s.handlers[j]? = some y := by
    intro j y hy hr
    rcases setPc_get hy with ⟨-, hold⟩ | ⟨-, x', hx', heq⟩
    · exact hold
    · rw [hx] at hx'
      cases hx'
      subst heq
      exact absurd hr hne
  have hleader : ∀ (j : Nat) (y : Handler), s.handlers[j]? = some y → y.request = r →
      (s.setPc i pc).handlers[j]? = some y := by
    intro j y hy hr
    have hji : j ≠ i := by
      intro hji
      rw [hji, hx] at hy
      cases hy
      exact hne hr
    rw [setPc_get_of_ne hji]
    exact hy
  cases h with
  | before runs futures done inflight pcs one =>
      exact .before runs futures done inflight (fun j y hy hr => pcs j y (hold j y hy hr) hr)
        (fun j l y z hy hz hyr hzr => one j l y z (hold j y hy hyr) (hold l z hz hzr) hyr hzr)
  | during leader run runs request phase futures done inflight leads pcs =>
      exact .during leader run runs request phase futures done inflight
        (hleader leader _ leads rfl) (fun j y hy hr => pcs j y (hold j y hy hr) hr)
  | after leader run response stamp runs fresh futures done inflight led pcs =>
      exact .after leader run response stamp runs fresh futures done inflight
        (hleader leader _ led rfl) (fun j y hy hr => pcs j y (hold j y hy hr) hr)

/-- The bindings do not matter to the stage. -/
theorem Stage.rebind (h : Stage r s) {st : ResultStore} (hdone : st.done = s.store.done)
    (hinflight : st.inflight = s.store.inflight) : Stage r { s with store := st } := by
  cases h with
  | before runs futures done inflight pcs one =>
      exact .before runs futures (hdone.trans done) (hinflight.trans inflight) pcs one
  | during leader run runs request phase futures done inflight leads pcs =>
      exact .during leader run runs request phase futures (hdone.trans done)
        (hinflight.trans inflight) leads pcs
  | after leader run response stamp runs fresh futures done inflight led pcs =>
      exact .after leader run response stamp runs fresh futures (hdone.trans done)
        (hinflight.trans inflight) led pcs

/-- Nothing is stored or in flight under another id. -/
theorem Stage.unknown (h : Stage r s) {id : String} (hne : id ≠ r.requestId) :
    s.store.done.lookup id = none ∧ s.store.inflight.lookup id = none := by
  cases h with
  | before _ _ done inflight =>
      rw [done, inflight]
      exact ⟨rfl, rfl⟩
  | during _ _ _ _ _ _ done inflight =>
      rw [done, inflight, lookup_cons_ne (Ne.symm hne)]
      exact ⟨rfl, rfl⟩
  | after _ _ _ _ _ _ _ done inflight =>
      rw [done, inflight, lookup_cons_ne (Ne.symm hne)]
      exact ⟨rfl, rfl⟩

/-- A duplicate that has not looked yet does so. -/
theorem Stage.look (h : Stage r s) {i : Nat} (hi : s.handlers[i]? = some ⟨r, .arrived⟩)
    (hapart : ∀ (j : Nat) (x : Handler), s.handlers[j]? = some x → x.request = r →
      x.pc ≠ .loading) :
    Stage r (match s.store.done.lookup r.requestId with
      | some hit => s.setPc i (.ended (.response { hit.response with replayed := true } hit.run))
      | none =>
          match s.store.inflight.lookup r.requestId with
          | some run => s.setPc i (.waiting run)
          | none => s.setPc i .loading) := by
  cases h with
  | before runs futures done inflight pcs one =>
      rw [done, inflight]
      refine .before runs futures done inflight (fun j x hx hr => ?_) (fun j l x y hx hy hxr hyr hxl hyl => ?_)
      · rcases setPc_get hx with ⟨-, hold⟩ | ⟨-, x', -, heq⟩
        · exact pcs j x hold hr
        · subst heq
          exact Or.inr rfl
      · -- only this one is loading
        rcases setPc_get hx with ⟨-, hold⟩ | ⟨hj, -⟩
        · exact absurd hxl (hapart j x hold hxr)
        · rcases setPc_get hy with ⟨-, hold⟩ | ⟨hl, -⟩
          · exact absurd hyl (hapart l y hold hyr)
          · rw [hj, hl]
  | during leader run runs request phase futures done inflight leads pcs =>
      rw [done, inflight, lookup_cons_eq]
      have hne : leader ≠ i := by
        intro hli
        rw [hli, hi] at leads
        cases leads
      refine .during leader run runs request phase futures done inflight
        ((setPc_get_of_ne hne).trans leads) (fun j x hx hr hj => ?_)
      rcases setPc_get hx with ⟨-, hold⟩ | ⟨-, x', -, heq⟩
      · exact pcs j x hold hr hj
      · subst heq
        exact Or.inr rfl
  | after leader run response stamp runs fresh futures done inflight led pcs =>
      rw [done, lookup_cons_eq]
      have hne : leader ≠ i := by
        intro hli
        rw [hli, hi] at led
        cases led
      refine .after leader run response stamp runs fresh futures done inflight
        ((setPc_get_of_ne hne).trans led) (fun j x hx hr hj => ?_)
      rcases setPc_get hx with ⟨-, hold⟩ | ⟨-, x', -, heq⟩
      · exact pcs j x hold hr hj
      · subst heq
        exact Or.inr (Or.inr rfl)

theorem setPc_self {i : Nat} {x : Handler} (pc : Pc) (hx : s.handlers[i]? = some x) :
    (s.setPc i pc).handlers[i]? = some { x with pc := pc } := by
  unfold Front.setPc
  rw [List.getElem?_modify, hx]
  exact congrArg some (if_pos rfl)

theorem sharing_check (hs : Setting cfg r s) (h : Stage r s) {i : Nat} {q : ProbeRequest}
    (hi : s.handlers[i]? = some ⟨q, .arrived⟩) (hapart : apart r s (.check i) = true) :
    Setting cfg r (s.check cfg i q) ∧ Stage r (s.check cfg i q) := by
  obtain ⟨hdone, hinflight⟩ := bind_done s.store q.requestId (q.fingerprint cfg)
  have hs' : Setting cfg r { s with store := (s.store.bind q.requestId (q.fingerprint cfg)).1 } :=
    ⟨hs.same, hs.others, bind_bound hs.bound (hs.same i _ hi), hs.recent⟩
  have h' : Stage r { s with store := (s.store.bind q.requestId (q.fingerprint cfg)).1 } :=
    h.rebind hdone hinflight
  have hevict := h.evict hs hdone
  unfold Front.check
  generalize hb : s.store.bind q.requestId (q.fingerprint cfg) = bound at *
  obtain ⟨store, ok⟩ := bound
  dsimp only at hdone hinflight hs' h' hevict ⊢
  rw [hevict]
  by_cases hq : q = r
  · subst hq
    have hok : ok = true := by
      have hdup := bind_duplicate hs.bound
      rw [hb] at hdup
      exact hdup
    rw [if_neg (by rw [hok]; exact Bool.noConfusion)]
    refine ⟨?_, h'.look hi (fun j x hx hr hl => ?_)⟩
    · split
      · exact hs'.setPc hi (fun hne => absurd rfl hne)
      · split
        · exact hs'.setPc hi (fun hne => absurd rfl hne)
        · exact hs'.setPc hi (fun hne => absurd rfl hne)
    · simp only [apart, hi, ne_eq, not_true_eq_false, decide_false, Bool.false_or,
        List.all_eq_true] at hapart
      have hx' := hapart x (List.mem_of_getElem? hx)
      rw [hr, hl] at hx'
      simp [Pc.isLoading] at hx'
  · have hid : q.requestId ≠ r.requestId := fun hid => hq (hs.same i _ hi hid)
    obtain ⟨hnone, hidle⟩ := h'.unknown hid
    dsimp only at hnone hidle
    rw [hnone, hidle]
    split
    · exact ⟨hs'.setPc hi (fun _ _ => ⟨Pc.noConfusion, Pc.noConfusion⟩), h'.other hi hq⟩
    · exact ⟨hs'.setPc hi (fun _ _ => ⟨Pc.noConfusion, Pc.noConfusion⟩), h'.other hi hq⟩

theorem sharing_load (hs : Setting cfg r s) (h : Stage r s) {i : Nat} {q : ProbeRequest}
    {probe : Option ApprovedProbe} (hi : s.handlers[i]? = some ⟨q, .loading⟩)
    (hsolo : solo cfg r s (.load i probe) = true) :
    Setting cfg r (s.load cfg i q probe) ∧ Stage r (s.load cfg i q probe) := by
  simp only [solo, hi] at hsolo
  unfold Front.load
  split
  · next e he =>
      rw [he] at hsolo
      have hne := of_decide_eq_true hsolo
      exact ⟨hs.setPc hi (fun _ _ => ⟨Pc.noConfusion, Pc.noConfusion⟩), h.other hi hne⟩
  · next spec hspec =>
      rw [hspec] at hsolo
      have hq : q = r := of_decide_eq_true hsolo
      subst hq
      dsimp only
      constructor
      · exact Setting.setPc (s := { s with
          store := s.store.start q.requestId s.runs.length
          runs := s.runs ++ [{ request := q, identity := commandIdentity spec }]
          futures := s.futures ++ [none] }) ⟨hs.same, hs.others, hs.bound, hs.recent⟩ hi
          (fun hne => absurd rfl hne)
      · -- this is the only duplicate that was loading
        cases h with
        | before runs futures done inflight pcs one =>
            rw [runs, futures]
            refine .during i { request := q, identity := commandIdentity spec } rfl rfl
              Phase.noConfusion rfl done ?_ ?_ (fun j x hx hr hj => ?_)
            · show assign q.requestId 0 s.store.inflight = _
              rw [inflight]
              rfl
            · exact setPc_self (s := { s with
                store := s.store.start q.requestId 0
                runs := [] ++ [{ request := q, identity := commandIdentity spec }]
                futures := [] ++ [none] }) _ hi
            · rcases setPc_get hx with ⟨-, hold⟩ | ⟨hji, -⟩
              · rcases pcs j x hold hr with ha | hl
                · exact Or.inl ha
                · exact absurd (one j i x _ hold hi hr rfl hl rfl) hj
              · exact absurd hji hj
        | during leader run runs request phase futures done inflight leads pcs =>
            exfalso
            by_cases hil : i = leader
            · rw [← hil, hi] at leads
              cases leads
            · rcases pcs i _ hi rfl hil with hpc | hpc
              · cases hpc
              · cases hpc
        | after leader run response stamp runs fresh futures done inflight led pcs =>
            exfalso
            by_cases hil : i = leader
            · rw [← hil, hi] at led
              cases led
            · rcases pcs i _ hi rfl hil with hpc | hpc | hpc
              · cases hpc
              · cases hpc
              · cases hpc

theorem modify_single {α : Type} {a b : α} {k : Nat} (f : α → α) (h : [a][k]? = some b) :
    k = 0 ∧ a = b ∧ [a].modify k f = [f a] := by
  cases k with
  | zero =>
      cases h
      exact ⟨rfl, rfl, rfl⟩
  | succ k => cases h

/-- The executor takes up the run or is through with it. -/
theorem Stage.setPhase (h : Stage r s) {k : Nat} {run : Run} {phase : Phase}
    (hk : s.runs[k]? = some run) (hphase : phase ≠ .busy) : Stage r (s.setPhase k phase) := by
  cases h with
  | before runs =>
      rw [runs] at hk
      cases hk
  | during leader x runs request _ futures done inflight leads pcs =>
      rw [runs] at hk
      obtain ⟨-, hx, hmodify⟩ := modify_single (fun run => { run with phase := phase }) hk
      refine .during leader { x with phase := phase } ?_ request hphase futures done inflight leads
        pcs
      show s.runs.modify k _ = _
      rw [runs]
      exact hmodify
  | after leader x response stamp runs fresh futures done inflight led pcs =>
      rw [runs] at hk
      obtain ⟨-, hx, hmodify⟩ := modify_single (fun run => { run with phase := phase }) hk
      refine .after leader { x with phase := phase } response stamp ?_ fresh futures done inflight
        led pcs
      show s.runs.modify k _ = _
      rw [runs]
      exact hmodify

theorem receive_fresh {q : ProbeRequest} {identity : String} {w : Wire} {response : ProbeResponse}
    (h : receive q identity w = some response) : response.replayed = false := by
  unfold receive at h
  split at h
  · cases h
    rfl
  · split at h
    · cases h
    · cases h
      rfl
  · cases h
    rfl
  · split at h
    · cases h
      rfl
    · cases h
      rfl

/-- An executor that took up the run does not say that it is at capacity. -/
theorem receive_isSome (q : ProbeRequest) (identity : String) {w : Wire} {phase : Phase}
    (hpossible : w.possible phase = true) (hphase : phase ≠ .busy) :
    ∃ response, receive q identity w = some response := by
  cases w with
  | unreachable error => exact ⟨_, rfl⟩
  | malformed error => exact ⟨_, rfl⟩
  | status code detail =>
      simp only [Wire.possible, Bool.or_eq_true, Bool.not_eq_true', Bool.and_eq_false_iff,
        decide_eq_false_iff_not, decide_eq_true_eq] at hpossible
      rcases hpossible with hne | hbusy
      · refine ⟨_, if_neg (fun hboth => ?_)⟩
        exact hne.elim (fun hc => hc hboth.1) (fun hd => hd hboth.2)
      · exact absurd hbusy hphase
  | ok result =>
      unfold receive
      dsimp only
      split
      · exact ⟨_, rfl⟩
      · exact ⟨_, rfl⟩

/-- A handler that runs a request is the leader. -/
theorem Stage.leads (h : Stage r s) (hs : Setting cfg r s) {i k : Nat} {q : ProbeRequest}
    (hi : s.handlers[i]? = some ⟨q, .running k⟩) :
    q = r ∧ k = 0 ∧ ∃ run, s.runs = [run] ∧ run.request = r ∧ run.phase ≠ .busy ∧
      s.futures = [none] ∧ s.store.done = [] ∧ s.store.inflight = [(r.requestId, 0)] ∧
      ∀ (j : Nat) (x : Handler), s.handlers[j]? = some x → x.request = r → j ≠ i →
        x.pc = .arrived ∨ x.pc = .waiting 0 := by
  have hq : q = r := by
    by_contra hne
    exact (hs.others i _ hi hne k).2 rfl
  subst hq
  cases h with
  | before runs futures done inflight pcs one =>
      rcases pcs i _ hi rfl with hpc | hpc
      · cases hpc
      · cases hpc
  | during leader run runs request phase futures done inflight leads pcs =>
      by_cases hil : i = leader
      · subst hil
        rw [hi] at leads
        cases leads
        exact ⟨rfl, rfl, run, runs, request, phase, futures, done, inflight, pcs⟩
      · rcases pcs i _ hi rfl hil with hpc | hpc
        · cases hpc
        · cases hpc
  | after leader run response stamp runs fresh futures done inflight led pcs =>
      by_cases hil : i = leader
      · rw [← hil, hi] at led
        cases led
      · rcases pcs i _ hi rfl hil with hpc | hpc | hpc
        · cases hpc
        · cases hpc
        · cases hpc

theorem sharing_reply (hs : Setting cfg r s) (h : Stage r s) {i k : Nat} {q : ProbeRequest}
    {run : Run} {w : Wire} (hi : s.handlers[i]? = some ⟨q, .running k⟩)
    (hrun : s.runs[k]? = some run) (hw : w.possible run.phase = true) :
    Setting cfg r (s.reply i k run w) ∧ Stage r (s.reply i k run w) := by
  obtain ⟨rfl, rfl, run', runs, request, phase, futures, done, inflight, pcs⟩ := h.leads hs hi
  have heq : run' = run := by
    rw [runs] at hrun
    exact Option.some.inj hrun
  subst heq
  obtain ⟨response, hresponse⟩ := receive_isSome run'.request run'.identity hw phase
  unfold Front.reply
  rw [hresponse, request]
  dsimp only
  -- the future of the run is settled, its result stored, and nothing is evicted
  have hsettle : s.settle q.requestId (.response response 0) =
      { s with futures := [some (.response response 0)] } := by
    unfold Front.settle
    rw [inflight, lookup_cons_eq, futures]
    rfl
  have hstore : s.store.finish s.now q.requestId response 0 = { s.store with
      inflight := [], done := [(q.requestId, ⟨s.now, response, 0⟩)] } := by
    unfold ResultStore.finish
    rw [inflight, done]
    have herase : erase q.requestId [(q.requestId, 0)] = [] := by
      unfold erase
      rw [List.filter_cons_of_neg (by simp), List.filter_nil]
    rw [herase]
    exact evict_single rfl hs.recent
  unfold Front.finish
  rw [hsettle]
  dsimp only
  rw [hstore]
  constructor
  · have hs' : Setting cfg q { s with
        store := { s.store with inflight := [], done := [(q.requestId, ⟨s.now, response, 0⟩)] }
        futures := [some (.response response 0)] } :=
      ⟨hs.same, hs.others, hs.bound, hs.recent⟩
    exact hs'.setPc hi (fun hne => absurd rfl hne)
  · refine .after i run' response s.now runs (receive_fresh hresponse) rfl rfl rfl ?_
      (fun j x hx hr hj => ?_)
    · exact setPc_self _ hi
    · rcases setPc_get hx with ⟨-, hold⟩ | ⟨hji, -⟩
      · exact (pcs j x hold hr hj).imp_right Or.inl
      · exact absurd hji hj

theorem sharing_resume (hs : Setting cfg r s) (h : Stage r s) {i k : Nat} {q : ProbeRequest}
    {x : Settled} (hi : s.handlers[i]? = some ⟨q, .waiting k⟩)
    (hx : s.futures[k]?.join = some x) :
    ∃ response run, x = .response response run ∧
      Setting cfg r (s.setPc i (.ended (.response { response with replayed := true } run))) ∧
      Stage r (s.setPc i (.ended (.response { response with replayed := true } run))) := by
  have hq : q = r := by
    by_contra hne
    exact (hs.others i _ hi hne k).1 rfl
  subst hq
  have hsetting := fun pc => @Setting.setPc cfg q s hs i _ pc hi (fun hne => absurd rfl hne)
  cases h with
  | before runs futures =>
      rw [futures] at hx
      cases hx
  | during leader run runs request phase futures =>
      rw [futures] at hx
      cases k with
      | zero => cases hx
      | succ k => cases hx
  | after leader run response stamp runs fresh futures done inflight led pcs =>
      have hne : leader ≠ i := by
        intro hli
        rw [hli, hi] at led
        cases led
      rw [futures] at hx
      cases k with
      | succ k => cases hx
      | zero =>
          cases hx
          refine ⟨response, 0, rfl, hsetting _, .after leader run response stamp runs fresh futures
            done inflight ((setPc_get_of_ne hne).trans led) (fun j y hy hr hj => ?_)⟩
          rcases setPc_get hy with ⟨-, hold⟩ | ⟨-, y', -, heq⟩
          · exact pcs j y hold hr hj
          · subst heq
            exact Or.inr (Or.inr rfl)

/-- One step of the setting. -/
theorem sharing_exec (hs : Setting cfg r s) (h : Stage r s) {st : Step} {s' : Front}
    (hok : (solo cfg r s st && apart r s st) = true) (hx : s.exec cfg st = some s') :
    Setting cfg r s' ∧ Stage r s' := by
  obtain ⟨hsolo, hapart⟩ := Bool.and_eq_true_iff.mp hok
  cases st with
  | arrive q =>
      cases hx
      simp only [solo, Bool.or_eq_true, decide_eq_true_eq] at hsolo
      have hnew : ∀ (j : Nat) (x : Handler), (s.handlers ++ [⟨q, .arrived⟩])[j]? = some x →
          s.handlers[j]? = some x ∨ x = ⟨q, .arrived⟩ := by
        intro j x hj
        rcases Nat.lt_or_ge j s.handlers.length with hlt | hge
        · rw [List.getElem?_append_left hlt] at hj
          exact Or.inl hj
        · rw [List.getElem?_append_right hge] at hj
          exact Or.inr (List.mem_singleton.mp (List.mem_of_getElem? hj))
      have hold : ∀ (j : Nat) (x : Handler), s.handlers[j]? = some x →
          (s.handlers ++ [⟨q, .arrived⟩])[j]? = some x := fun j x hj =>
        (List.getElem?_append_left (List.getElem?_eq_some_iff.mp hj).1).trans hj
      refine ⟨⟨fun j x hj hid => ?_, fun j x hj hne k => ?_, hs.bound, hs.recent⟩, ?_⟩
      · rcases hnew j x hj with hj | rfl
        · exact hs.same j x hj hid
        · exact hsolo.resolve_left (fun hne => hne hid)
      · rcases hnew j x hj with hj | rfl
        · exact hs.others j x hj hne k
        · exact ⟨Pc.noConfusion, Pc.noConfusion⟩
      · cases h with
        | before runs futures done inflight pcs one =>
            refine .before runs futures done inflight (fun j x hj hr => ?_)
              (fun j l x y hj hl hxr hyr hxl hyl => ?_)
            · rcases hnew j x hj with hj | rfl
              · exact pcs j x hj hr
              · exact Or.inl rfl
            · rcases hnew j x hj with hj | rfl
              · rcases hnew l y hl with hl | rfl
                · exact one j l x y hj hl hxr hyr hxl hyl
                · cases hyl
              · cases hxl
        | during leader run runs request phase futures done inflight leads pcs =>
            refine .during leader run runs request phase futures done inflight (hold _ _ leads)
              (fun j x hj hr hne => ?_)
            rcases hnew j x hj with hj | rfl
            · exact pcs j x hj hr hne
            · exact Or.inl rfl
        | after leader run response stamp runs fresh futures done inflight led pcs =>
            refine .after leader run response stamp runs fresh futures done inflight (hold _ _ led)
              (fun j x hj hr hne => ?_)
            rcases hnew j x hj with hj | rfl
            · exact pcs j x hj hr hne
            · exact Or.inl rfl
  | check i =>
      simp only [Front.exec] at hx
      split at hx
      · next hi =>
          cases hx
          exact sharing_check hs h hi hapart
      · cases hx
  | load i probe =>
      simp only [Front.exec] at hx
      split at hx
      · next hi =>
          cases hx
          exact sharing_load hs h hi hsolo
      · cases hx
  | enter k =>
      simp only [Front.exec] at hx
      split at hx
      · next run hk =>
          split at hx
          · next hsent =>
              cases hx
              -- no other run holds the slot
              have hfree : s.runs.any (fun x => decide (x.phase = .executing)) = false := by
                have hone : s.runs = [run] := by
                  cases h with
                  | before runs =>
                      rw [runs] at hk
                      cases hk
                  | during _ x runs =>
                      rw [runs] at hk ⊢
                      rw [(modify_single id hk).2.1]
                  | after _ x _ _ runs =>
                      rw [runs] at hk ⊢
                      rw [(modify_single id hk).2.1]
                rw [hone]
                simp [hsent]
              rw [hfree]
              exact ⟨⟨hs.same, hs.others, hs.bound, hs.recent⟩,
                h.setPhase hk Phase.noConfusion⟩
          · cases hx
      · cases hx
  | exit k =>
      simp only [Front.exec] at hx
      split at hx
      · next run hk =>
          split at hx
          · cases hx
            exact ⟨⟨hs.same, hs.others, hs.bound, hs.recent⟩, h.setPhase hk Phase.noConfusion⟩
          · cases hx
      · cases hx
  | reply i w =>
      simp only [Front.exec] at hx
      split at hx
      · next q k hi =>
          split at hx
          · next run hrun =>
              split at hx
              · next hw =>
                  cases hx
                  exact sharing_reply hs h hi hrun hw
              · cases hx
          · cases hx
      · cases hx
  | resume i =>
      simp only [Front.exec] at hx
      split at hx
      · next q k hi =>
          split at hx
          · next response run hf =>
              cases hx
              obtain ⟨_, _, heq, hres⟩ := sharing_resume hs h hi hf
              cases heq
              exact hres
          · next hf =>
              obtain ⟨_, _, heq, -⟩ := sharing_resume hs h hi hf
              cases heq
          · cases hx
      · cases hx
  | raise i =>
      simp only [Front.exec] at hx
      split at hx
      · next q k hi =>
          simp only [solo, hi, decide_eq_true_eq] at hsolo
          exact absurd rfl (hs.others i _ hi hsolo k).2
      · cases hx
      · next x _ _ hi =>
          cases hx
          simp only [solo, hi, decide_eq_true_eq] at hsolo
          exact ⟨hs.setPc hi (fun _ _ => ⟨Pc.noConfusion, Pc.noConfusion⟩), h.other hi hsolo⟩
      · cases hx
  | tick n =>
      cases hx
      refine ⟨⟨hs.same, hs.others, hs.bound, of_decide_eq_true hsolo⟩, ?_⟩
      cases h with
      | before runs futures done inflight pcs one =>
          exact .before runs futures done inflight pcs one
      | during leader run runs request phase futures done inflight leads pcs =>
          exact .during leader run runs request phase futures done inflight leads pcs
      | after leader run response stamp runs fresh futures done inflight led pcs =>
          exact .after leader run response stamp runs fresh futures done inflight led pcs

end Steps

/-! ## Every step does some of the work -/

section Work

variable {cfg : Config} {s : Front}

theorem sum_modify {α : Type} (f : α → α) (weight : α → Nat) {l : List α} {i : Nat} {a : α}
    (h : l[i]? = some a) :
    ((l.modify i f).map weight).sum + weight a = (l.map weight).sum + weight (f a) := by
  induction l generalizing i with
  | nil => cases h
  | cons b l ih =>
      cases i with
      | zero =>
          cases h
          show weight (f a) + (l.map weight).sum + weight a =
            weight a + (l.map weight).sum + weight (f a)
          omega
      | succ i =>
          have hi := ih h
          show weight b + ((l.modify i f).map weight).sum + weight a =
            weight b + (l.map weight).sum + weight (f a)
          omega

theorem work_setPc {i : Nat} {x : Handler} {pc : Pc} (hx : s.handlers[i]? = some x) :
    (s.setPc i pc).work + x.pc.weight = s.work + pc.weight := by
  have hsum := sum_modify (fun h : Handler => { h with pc := pc }) (fun h => h.pc.weight) hx
  unfold Front.work Front.setPc
  dsimp only at hsum ⊢
  omega

theorem work_setPc_lt {i : Nat} {x : Handler} {pc : Pc} (hx : s.handlers[i]? = some x)
    (hlt : pc.weight < x.pc.weight) : (s.setPc i pc).work < s.work := by
  have hw : (s.setPc i pc).work + x.pc.weight = s.work + pc.weight := work_setPc hx
  omega

theorem work_setPhase_lt {k : Nat} {run : Run} {phase : Phase} (hk : s.runs[k]? = some run)
    (hlt : phase.weight < run.phase.weight) : (s.setPhase k phase).work < s.work := by
  have hsum := sum_modify (fun x : Run => { x with phase := phase }) (fun x => x.phase.weight) hk
  unfold Front.work Front.setPhase
  dsimp only at hsum ⊢
  omega

theorem work_settle (id : String) (x : Settled) : (s.settle id x).work = s.work := by
  unfold Front.settle
  split
  · rfl
  · rfl

theorem work_lt {st : Step} {s' : Front} (hst : st.internal = true)
    (hx : s.exec cfg st = some s') : s'.work < s.work := by
  cases st with
  | arrive q => cases hst
  | raise i => cases hst
  | tick n => cases hst
  | check i =>
      simp only [Front.exec] at hx
      split at hx
      · next q hi =>
          cases hx
          have hend : ∀ (st : ResultStore) (pc : Pc), pc.weight < 6 →
              (Front.setPc { s with store := st } i pc).work < s.work :=
            fun st pc hpc => work_setPc_lt (s := { s with store := st }) hi hpc
          unfold Front.check
          split
          next store ok _ =>
          split
          · exact hend _ _ (by decide)
          · dsimp only
            split
            · exact hend _ _ (Nat.zero_lt_succ 5)
            · split
              · exact hend _ _ (by show 1 < 6; omega)
              · exact hend _ _ (by decide)
      · cases hx
  | load i probe =>
      simp only [Front.exec] at hx
      split at hx
      · next q hi =>
          cases hx
          unfold Front.load
          split
          · exact work_setPc_lt hi (Nat.zero_lt_succ 4)
          · next spec _ =>
              -- the run adds two steps, the handler gives up four
              have hadd : Front.work { s with
                  store := s.store.start q.requestId s.runs.length
                  runs := s.runs ++ [{ request := q, identity := commandIdentity spec }]
                  futures := s.futures ++ [none] } = s.work + 2 := by
                unfold Front.work
                rw [List.map_append, List.sum_append]
                rfl
              dsimp only
              generalize hstarted : ({ s with
                  store := s.store.start q.requestId s.runs.length
                  runs := s.runs ++ [{ request := q, identity := commandIdentity spec }]
                  futures := s.futures ++ [none] } : Front) = started at hadd ⊢
              have hi' : started.handlers[i]? = some ⟨q, .loading⟩ := by
                rw [← hstarted]
                exact hi
              have hw : (started.setPc i (.running s.runs.length)).work + 5 = started.work + 1 :=
                work_setPc hi'
              omega
      · cases hx
  | enter k =>
      simp only [Front.exec] at hx
      split at hx
      · next run hk =>
          split at hx
          · next hsent =>
              cases hx
              refine work_setPhase_lt hk ?_
              rw [hsent]
              split
              · decide
              · decide
          · cases hx
      · cases hx
  | exit k =>
      simp only [Front.exec] at hx
      split at hx
      · next run hk =>
          split at hx
          · next hexec =>
              cases hx
              refine work_setPhase_lt hk ?_
              rw [hexec]
              decide
          · cases hx
      · cases hx
  | reply i w =>
      simp only [Front.exec] at hx
      split at hx
      · next q k hi =>
          split at hx
          · next run hrun =>
              split at hx
              · cases hx
                have hend : ∀ (id : String) (x : Settled) (st : ResultStore) (o : Outcome),
                    (Front.setPc { s.settle id x with store := st } i (.ended o)).work < s.work := by
                  intro id x st o
                  have hi' : (s.settle id x).handlers[i]? = some ⟨q, .running k⟩ := by
                    rw [settle_handlers]
                    exact hi
                  have hpc : (Pc.ended o).weight < (⟨q, .running k⟩ : Handler).pc.weight :=
                    Nat.zero_lt_succ 0
                  exact Nat.lt_of_lt_of_eq
                    (work_setPc_lt (s := { s.settle id x with store := st }) hi' hpc)
                    (work_settle id x)
                unfold Front.reply
                split
                · exact hend _ _ _ _
                · exact hend _ _ _ _
              · cases hx
          · cases hx
      · cases hx
  | resume i =>
      simp only [Front.exec] at hx
      split at hx
      · next q k hi =>
          split at hx
          · cases hx
            exact work_setPc_lt hi (Nat.zero_lt_succ 0)
          · cases hx
            exact work_setPc_lt hi (Nat.zero_lt_succ 0)
          · cases hx
      · cases hx

end Work

/-! ## One run for all -/

section Sharing

variable {cfg : Config} {r : ProbeRequest} {s : Front}

theorem Stage.once (h : Stage r s) : s.runs.length ≤ 1 := by
  cases h with
  | before runs =>
      rw [runs]
      exact Nat.zero_le _
  | during _ _ runs =>
      rw [runs]
      exact Nat.le_refl _
  | after _ _ _ _ runs =>
      rw [runs]
      exact Nat.le_refl _

theorem Stage.answers (h : Stage r s) :
    ∃ (leader : Nat) (response : ProbeResponse), response.replayed = false ∧
      ∀ (i : Nat) (x : Handler) o, s.handlers[i]? = some x → x.request = r → x.pc = .ended o →
        o = .response (if i = leader then response else { response with replayed := true }) 0 := by
  cases h with
  | before runs futures done inflight pcs one =>
      refine ⟨0, fromResult r "" none none, rfl, fun i x o hi hr ho => ?_⟩
      rcases pcs i x hi hr with hpc | hpc
      · rw [ho] at hpc
        cases hpc
      · rw [ho] at hpc
        cases hpc
  | during leader run runs request phase futures done inflight leads pcs =>
      refine ⟨0, fromResult r "" none none, rfl, fun i x o hi hr ho => ?_⟩
      by_cases hil : i = leader
      · rw [hil, leads] at hi
        cases hi
        cases ho
      · rcases pcs i x hi hr hil with hpc | hpc
        · rw [ho] at hpc
          cases hpc
        · rw [ho] at hpc
          cases hpc
  | after leader run response stamp runs fresh futures done inflight led pcs =>
      refine ⟨leader, response, fresh, fun i x o hi hr ho => ?_⟩
      by_cases hil : i = leader
      · rw [if_pos hil]
        rw [hil, led] at hi
        cases hi
        cases ho
        rfl
      · rw [if_neg hil]
        rcases pcs i x hi hr hil with hpc | hpc | hpc
        · rw [ho] at hpc
          cases hpc
        · rw [ho] at hpc
          cases hpc
        · rw [ho] at hpc
          cases hpc
          rfl

theorem exec_check {i : Nat} {q : ProbeRequest} (hi : s.handlers[i]? = some ⟨q, .arrived⟩) :
    s.exec cfg (.check i) = some (s.check cfg i q) := by
  simp only [Front.exec, hi]

/-- A duplicate may look as long as none waits for the registry. -/
theorem apart_of_none {i : Nat}
    (h : ∀ (j : Nat) (x : Handler), s.handlers[j]? = some x → x.request = r → x.pc ≠ .loading) :
    apart r s (.check i) = true := by
  unfold apart
  dsimp only
  split
  · rw [Bool.or_eq_true, List.all_eq_true]
    refine Or.inr (fun x hx => ?_)
    obtain ⟨j, hj⟩ := List.mem_iff_getElem?.mp hx
    by_cases hr : x.request = r
    · have hne := h j x hj hr
      cases hpc : x.pc with
      | loading => exact absurd hpc hne
      | _ => simp [Pc.isLoading]
    · rw [decide_eq_true hr]
      rfl
  · rfl

/-- As long as a duplicate has not ended, something can be done. -/
theorem Stage.goesOn (h : Stage r s) {probe : ApprovedProbe} {spec : ProbeRunSpec}
    (happroved : specFor cfg r (some probe) = .ok spec) {x : Handler} (hx : x ∈ s.handlers)
    (hr : x.request = r) (hgoes : ∀ o, x.pc ≠ .ended o) :
    ∃ st s', st.internal = true ∧ (solo cfg r s st && apart r s st) = true ∧
      s.exec cfg st = some s' := by
  obtain ⟨i, hi⟩ := List.mem_iff_getElem?.mp hx
  obtain ⟨q, pc⟩ := x
  change q = r at hr
  subst hr
  cases h with
  | before runs futures done inflight pcs one =>
      by_cases hload : ∃ (j : Nat) (y : Handler), s.handlers[j]? = some y ∧ y.request = q ∧
          y.pc = .loading
      · obtain ⟨j, ⟨q', pc'⟩, hj, hreq, hpc⟩ := hload
        change q' = q at hreq
        change pc' = .loading at hpc
        subst hreq hpc
        refine ⟨.load j (some probe), s.load cfg j q' (some probe), rfl, ?_, ?_⟩
        · simp [solo, apart, hj, happroved]
        · simp only [Front.exec, hj]
      · -- nobody is loading, so this one has not looked yet
        have hnone : ∀ (j : Nat) (y : Handler), s.handlers[j]? = some y → y.request = q →
            y.pc ≠ .loading := fun j y hj hq hl => hload ⟨j, y, hj, hq, hl⟩
        have hpc : pc = .arrived := (pcs i _ hi rfl).resolve_right (hnone i _ hi rfl)
        subst hpc
        exact ⟨.check i, _, rfl, by rw [apart_of_none hnone]; rfl, exec_check hi⟩
  | during leader run runs request phase futures done inflight leads pcs =>
      have hrun : s.runs[0]? = some run := by rw [runs]; rfl
      cases hphase : run.phase with
      | sent =>
          refine ⟨.enter 0, s.setPhase 0
            (if s.runs.any (fun x => decide (x.phase = .executing)) then .busy else .executing),
            rfl, rfl, ?_⟩
          simp only [Front.exec, hrun, hphase, if_true]
      | busy => exact absurd hphase phase
      | executing =>
          refine ⟨.exit 0, s.setPhase 0 .exited, rfl, rfl, ?_⟩
          simp only [Front.exec, hrun, hphase, if_true]
      | exited =>
          refine ⟨.reply leader (.unreachable ""), s.reply leader 0 run (.unreachable ""),
            rfl, rfl, ?_⟩
          simp only [Front.exec, leads, hrun, Wire.possible, if_true]
  | after leader run response stamp runs fresh futures done inflight led pcs =>
      by_cases hil : i = leader
      · rw [hil, led] at hi
        cases hi
        exact absurd rfl (hgoes _)
      · have hnone : ∀ (j : Nat) (y : Handler), s.handlers[j]? = some y → y.request = q →
            y.pc ≠ .loading := by
          intro j y hj hq hl
          by_cases hjl : j = leader
          · rw [hjl, led] at hj
            cases hj
            cases hl
          · rcases pcs j y hj hq hjl with hpc | hpc | hpc
            · rw [hl] at hpc
              cases hpc
            · rw [hl] at hpc
              cases hpc
            · rw [hl] at hpc
              cases hpc
        rcases pcs i _ hi rfl hil with hpc | hpc | hpc
        · change pc = .arrived at hpc
          subst hpc
          exact ⟨.check i, _, rfl, by rw [apart_of_none hnone]; rfl, exec_check hi⟩
        · change pc = .waiting 0 at hpc
          subst hpc
          refine ⟨.resume i, s.setPc i (.ended (.response { response with replayed := true } 0)),
            rfl, rfl, ?_⟩
          simp only [Front.exec, hi, futures]
          rfl
        · exact absurd hpc (hgoes _)

end Sharing

/-- **Concurrent duplicates share one run**, in every run in which no duplicate looks for a run in
flight while another one waits for the registry. -/
theorem shared_of_apart {cfg : Config} {r : ProbeRequest} {probe : ApprovedProbe}
    {spec : ProbeRunSpec} (happroved : specFor cfg r (some probe) = .ok spec) {s : Front}
    (h : Reaches (Front.exec cfg) (fun s st => solo cfg r s st && apart r s st) {} s) :
    Shared cfg r s := by
  have hinit : Setting cfg r {} ∧ Stage r {} := by
    refine ⟨⟨fun i x hi => (by cases hi), fun i x hi => (by cases hi), List.forall_mem_nil _,
      Nat.zero_le _⟩, ?_⟩
    exact .before rfl rfl rfl rfl (fun i x hi => by cases hi) (fun i j x y hi => by cases hi)
  have hinv : Setting cfg r s ∧ Stage r s :=
    h.inv (P := fun s => Setting cfg r s ∧ Stage r s) hinit
      (fun s st s' hs hok hx => sharing_exec hs.1 hs.2 hok hx)
  refine ⟨hinv.2.once, hinv.2.answers, ?_, fun st s' hst hx => work_lt hst hx⟩
  rintro ⟨x, hx, hr, hgoes⟩
  exact hinv.2.goesOn happroved hx hr hgoes

theorem shared_of_apart_demo : ∃ s, Reaches (Front.exec demoConfig) (fun s st =>
      solo demoConfig (demoRequest demoCommit) s st && apart (demoRequest demoCommit) s st) {} s ∧
    s.answers = [some (some 1, false), some (some 1, true), some (some 1, true)] ∧
    Shared demoConfig (demoRequest demoCommit) s := by
  obtain ⟨s, hs, hview⟩ := exists_of_runAll (Front.exec demoConfig) (fun s st =>
      solo demoConfig (demoRequest demoCommit) s st && apart (demoRequest demoCommit) s st) {}
    replaySchedule Front.answers
    [some (some 1, false), some (some 1, true), some (some 1, true)] (by decide +kernel)
  have happroved : specFor demoConfig (demoRequest demoCommit) (some demoProbe) = .ok _ := rfl
  exact ⟨s, hs, hview, shared_of_apart happroved hs⟩

/-- The error a handler has raised. -/
def refusal : Pc → Option HttpError
  | .ended (.http e) => some e
  | _ => none

theorem refusal_some {pc : Pc} {e : HttpError} (h : refusal pc = some e) :
    pc = .ended (.http e) := by
  unfold refusal at h
  split at h
  · rw [Option.some.inj h]
  · cases h

/-- Two duplicates look before the first has registered its run, and the second finds the executor
busy. -/
def duplicateSchedule : List Step :=
  [.arrive (demoRequest demoCommit), .check 0, .arrive (demoRequest demoCommit), .check 1,
    .load 0 (some demoProbe), .enter 0, .load 1 (some demoProbe), .enter 1, .reply 1 atCapacity,
    .exit 0, .reply 0 demoAnswer]

theorem duplicate_refused : ∃ s, Reaches (Front.exec demoConfig)
      (solo demoConfig (demoRequest demoCommit)) {} s ∧
    (∃ h ∈ s.handlers, h.request = demoRequest demoCommit ∧
      h.pc = .ended (.http ⟨409, "verifier is at capacity"⟩)) ∧
    ¬ Shared demoConfig (demoRequest demoCommit) s := by
  obtain ⟨s, hs, hview⟩ := exists_of_runAll (Front.exec demoConfig)
    (solo demoConfig (demoRequest demoCommit)) {} duplicateSchedule
    (fun s => (s.runs.length, s.handlers[1]?.map (·.request),
      s.handlers[1]?.bind (fun h => refusal h.pc)))
    (2, some (demoRequest demoCommit), some ⟨409, "verifier is at capacity"⟩) (by decide +kernel)
  obtain ⟨hruns, hview⟩ := Prod.mk.inj hview
  obtain ⟨hrequest, hanswer⟩ := Prod.mk.inj hview
  obtain ⟨h, hh, hreq⟩ := Option.map_eq_some_iff.mp hrequest
  refine ⟨s, hs, ⟨h, List.mem_of_getElem? hh, hreq, ?_⟩, fun hshared => ?_⟩
  · rw [hh] at hanswer
    exact refusal_some hanswer
  · have honce := hshared.once
    omega

end Remediator.Verifier
