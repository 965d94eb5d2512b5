import Remediator.Verifier.Front

set_option autoImplicit false

/-! # No verdict is replayed to another request

An id is bound to the fingerprint of its request for as long as a handler that relies on it or a
stored result of that id is there. The three maps of the store drop their entries by different
rules, so this holds only in runs in which the binding that is dropped is one that nobody needs any
more.
-/

namespace Remediator.Verifier

open OrderedDict Machine

/-! ## Orderly steps -/

/-- The handler relies on its bind. One that waits for a run does not: it has the run. -/
def Handler.bound (h : Handler) : Bool :=
  match h.pc with
  | .loading | .running _ => true
  | _ => false

/-- A handler other than the `i`-th relies on the binding of this id. -/
def Front.engaged (s : Front) (i : Nat) (id : String) : Bool :=
  s.handlers.zipIdx.any (fun x =>
    decide (x.2 ≠ i) && x.1.bound && decide (x.1.request.requestId = id))

/-- The ids whose bindings `bind` drops. -/
def ResultStore.overflow (s : ResultStore) (id fingerprint : String) : List String :=
  match s.fingerprints.lookup id with
  | none =>
      let bound := assign id fingerprint s.fingerprints
      (bound.take (bound.length - 2 * resultMaxEntries)).map (·.1)
  | some _ => []

/-- The step drops only bindings that nobody needs: no other handler has the id, and no result is
stored under it, unless it is dropped as well. -/
def orderly (cfg : Config) (s : Front) : Step → Bool
  | .check i =>
      match s.handlers[i]? with
      | none => true
      | some h =>
          let id := h.request.requestId
          let fingerprint := h.request.fingerprint cfg
          (s.store.overflow id fingerprint).all (fun x =>
            decide (x ≠ id) && !s.engaged i x && (s.store.done.lookup x).isNone) &&
          ((s.store.bind id fingerprint).1.evictedIds s.now).all (fun x =>
            decide (x ≠ id) && !s.engaged i x)
  | .reply i w =>
      match s.handlers[i]? with
      | some ⟨r, .running k⟩ =>
          match (s.runs[k]?).bind (fun run => receive run.request run.identity w) with
          | none => !s.engaged i r.requestId && (s.store.done.lookup r.requestId).isNone
          | some response =>
              (({ s.store with
                done := assign r.requestId ⟨s.now, response, k⟩ s.store.done }).evictedIds s.now).all
                (fun x => !s.engaged i x)
      | _ => true
  | .raise i =>
      match s.handlers[i]? with
      | some ⟨r, .running _⟩ =>
          !s.engaged i r.requestId && (s.store.done.lookup r.requestId).isNone
      | _ => true
  | _ => true

/-! ## The invariant -/

/-- The run was started by a request with this id and fingerprint. -/
def Front.StartedBy (cfg : Config) (s : Front) (k : Nat) (id fingerprint : String) : Prop :=
  ∃ run, s.runs[k]? = some run ∧ run.request.requestId = id ∧
    run.request.fingerprint cfg = fingerprint

/-- The id is bound to the fingerprint of the request that started the run. -/
def Front.Vouched (cfg : Config) (s : Front) (id : String) (k : Nat) : Prop :=
  ∃ fingerprint, s.store.fingerprints.lookup id = some fingerprint ∧
    s.StartedBy cfg k id fingerprint

/-- What holds of a handler at its place. -/
def Handler.Sound (cfg : Config) (s : Front) (h : Handler) : Prop :=
  match h.pc with
  | .arrived | .loading => True
  | .waiting k => s.StartedBy cfg k h.request.requestId (h.request.fingerprint cfg)
  | .running k => (s.runs[k]?).map (·.request) = some h.request
  | .ended (.response _ k) => s.StartedBy cfg k h.request.requestId (h.request.fingerprint cfg)
  | .ended _ => True

structure Inv (cfg : Config) (s : Front) : Prop where
  keys : (s.store.done.map (·.1)).Nodup
  done : ∀ id e, s.store.done.lookup id = some e → s.Vouched cfg id e.run
  inflight : ∀ id k, s.store.inflight.lookup id = some k → s.Vouched cfg id k ∧
    ∃ (i : Nat) (h : Handler) (j : Nat), s.handlers[i]? = some h ∧ h.pc = .running j ∧
      h.request.requestId = id
  bound : ∀ (i : Nat) (h : Handler), s.handlers[i]? = some h → h.bound = true →
    s.store.fingerprints.lookup h.request.requestId = some (h.request.fingerprint cfg)
  handlers : ∀ (i : Nat) (h : Handler), s.handlers[i]? = some h → h.Sound cfg s
  futures : ∀ (k : Nat) r j (run : Run), s.futures[k]? = some (some (.response r j)) →
    s.runs[k]? = some run →
    s.StartedBy cfg j run.request.requestId (run.request.fingerprint cfg)
  aligned : s.futures.length = s.runs.length

theorem Inv.init (cfg : Config) : Inv cfg {} where
  keys := List.nodup_nil
  done := fun _ _ h => by cases h
  inflight := fun _ _ h => by cases h
  bound := fun _ _ h => by cases h
  handlers := fun _ _ h => by cases h
  futures := fun _ _ _ _ h => by cases h
  aligned := rfl

/-! ## The parts of a step -/

section Parts

variable {cfg : Config} {s : Front}

theorem engaged_of_get {i j : Nat} {h : Handler} (hne : j ≠ i) (hh : s.handlers[j]? = some h)
    (hb : h.bound = true) : s.engaged i h.request.requestId = true := by
  unfold Front.engaged
  rw [List.any_eq_true]
  refine ⟨(h, j), ?_, ?_⟩
  · exact List.mem_zipIdx_iff_getElem?.mpr hh
  · simp [hne, hb]

theorem setPc_get {i j : Nat} {pc : Pc} {h' : Handler}
    (h : (s.setPc i pc).handlers[j]? = some h') :
    (j ≠ i ∧ s.handlers[j]? = some h') ∨
      (j = i ∧ ∃ h, s.handlers[i]? = some h ∧ h' = { h with pc := pc }) := by
  unfold Front.setPc at h
  rw [List.getElem?_modify] at h
  obtain ⟨x, hx, heq⟩ := Option.map_eq_some_iff.mp h
  by_cases hij : i = j
  · subst hij
    rw [if_pos rfl] at heq
    exact Or.inr ⟨rfl, x, hx, heq.symm⟩
  · rw [if_neg hij] at heq
    subst heq
    exact Or.inl ⟨Ne.symm hij, hx⟩

theorem setPc_get_of_ne {i j : Nat} {pc : Pc} (h : j ≠ i) :
    (s.setPc i pc).handlers[j]? = s.handlers[j]? := by
  unfold Front.setPc
  rw [List.getElem?_modify]
  cases s.handlers[j]? with
  | none => rfl
  | some x => exact congrArg some (if_neg (Ne.symm h))

theorem Handler.Sound.mono {s' : Front} {h : Handler} (hs : h.Sound cfg s)
    (hruns : ∀ (k : Nat) (run : Run), s.runs[k]? = some run →
      ∃ run', s'.runs[k]? = some run' ∧ run'.request = run.request) : h.Sound cfg s' := by
  have hstarted : ∀ k id fp, s.StartedBy cfg k id fp → s'.StartedBy cfg k id fp := by
    rintro k id fp ⟨run, hrun, hid, hfp⟩
    obtain ⟨run', hrun', heq⟩ := hruns k run hrun
    exact ⟨run', hrun', heq ▸ hid, heq ▸ hfp⟩
  unfold Handler.Sound at hs ⊢
  split
  · trivial
  · trivial
  · next heq =>
      rw [heq] at hs
      exact hstarted _ _ _ hs
  · next heq =>
      rw [heq] at hs
      obtain ⟨run, hrun, hreq⟩ := Option.map_eq_some_iff.mp hs
      obtain ⟨run', hrun', heq'⟩ := hruns _ run hrun
      rw [hrun']
      exact congrArg some (heq'.trans hreq)
  · next heq =>
      rw [heq] at hs
      exact hstarted _ _ _ hs
  · trivial

/-- The bindings may change where nobody needs them. -/
theorem Inv.rebind (h : Inv cfg s) {store : ResultStore}
    (hdone : ∀ id e, store.done.lookup id = some e → s.store.done.lookup id = some e)
    (hkeys : (store.done.map (·.1)).Nodup) (hinflight : store.inflight = s.store.inflight)
    (hstored : ∀ id fp, (store.done.lookup id).isSome = true →
      s.store.fingerprints.lookup id = some fp → store.fingerprints.lookup id = some fp)
    (hbound : ∀ (i : Nat) (x : Handler), s.handlers[i]? = some x → x.bound = true →
      s.store.fingerprints.lookup x.request.requestId = some (x.request.fingerprint cfg) →
      store.fingerprints.lookup x.request.requestId = some (x.request.fingerprint cfg)) :
    Inv cfg { s with store := store } where
  keys := hkeys
  done := by
    intro id e he
    obtain ⟨fp, hfp, hstarted⟩ := h.done id e (hdone id e he)
    refine ⟨fp, hstored id fp ?_ hfp, hstarted⟩
    rw [he]
    rfl
  inflight := by
    intro id k hk
    rw [hinflight] at hk
    obtain ⟨⟨fp, hfp, hstarted⟩, i, x, j, hx, hpc, hid⟩ := h.inflight id k hk
    refine ⟨⟨fp, ?_, hstarted⟩, i, x, j, hx, hpc, hid⟩
    -- the handler of the run needs the binding
    have hb : x.bound = true := by
      unfold Handler.bound
      rw [hpc]
    have hown := h.bound i x hx hb
    have hkept := hbound i x hx hb hown
    rw [hid] at hown hkept
    rw [hfp] at hown
    cases hown
    exact hkept
  bound := fun i x hx hb => hbound i x hx hb (h.bound i x hx hb)
  handlers := h.handlers
  futures := h.futures
  aligned := h.aligned

/-- A handler goes on to another place. -/
theorem Inv.goto (h : Inv cfg s) {i : Nat} {pc : Pc} {x : Handler} (hx : s.handlers[i]? = some x)
    (hsound : ({ x with pc := pc } : Handler).Sound cfg s)
    (hbound : ({ x with pc := pc } : Handler).bound = true →
      s.store.fingerprints.lookup x.request.requestId = some (x.request.fingerprint cfg))
    (hleft : (∃ j, x.pc = .running j) →
      s.store.inflight.lookup x.request.requestId = none ∨ ∃ j, pc = .running j) :
    Inv cfg (s.setPc i pc) where
  keys := h.keys
  done := h.done
  inflight := by
    intro id k hk
    obtain ⟨hvouched, j, y, l, hy, hpc, hid⟩ := h.inflight id k hk
    refine ⟨hvouched, ?_⟩
    by_cases hij : j = i
    · subst hij
      rw [hx] at hy
      cases hy
      rcases hleft ⟨l, hpc⟩ with hnone | ⟨m, hm⟩
      · rw [hid] at hnone
        change s.store.inflight.lookup id = some k at hk
        rw [hnone] at hk
        cases hk
      · refine ⟨j, { x with pc := pc }, m, ?_, hm, hid⟩
        unfold Front.setPc
        rw [List.getElem?_modify, hx]
        exact congrArg some (if_pos rfl)
    · exact ⟨j, y, l, (setPc_get_of_ne hij).trans hy, hpc, hid⟩
  bound := by
    intro j y hy hb
    rcases setPc_get hy with ⟨-, hold⟩ | ⟨-, x', hx', heq⟩
    · exact h.bound j y hold hb
    · rw [hx] at hx'
      cases hx'
      subst heq
      exact hbound hb
  handlers := by
    intro j y hy
    rcases setPc_get hy with ⟨-, hold⟩ | ⟨-, x', hx', heq⟩
    · exact h.handlers j y hold
    · rw [hx] at hx'
      cases hx'
      subst heq
      exact hsound
  futures := h.futures
  aligned := h.aligned

theorem evict_lookup {st : ResultStore} {now : Nat} {id : String} (h : id ∉ st.evictedIds now) :
    (st.evict now).fingerprints.lookup id = st.fingerprints.lookup id :=
  lookup_foldl_erase h _

/-- `_evict` drops results together with their bindings. -/
theorem Inv.evict (h : Inv cfg s) (now : Nat)
    (hfree : ∀ id ∈ s.store.evictedIds now, ∀ (i : Nat) (x : Handler), s.handlers[i]? = some x →
      x.bound = true → x.request.requestId ≠ id) :
    Inv cfg { s with store := s.store.evict now } := by
  refine h.rebind (fun id e he => lookup_of_drop h.keys he) ?_ rfl ?_ ?_
  · unfold ResultStore.evict
    rw [List.map_drop]
    exact h.keys.sublist (List.drop_sublist _ _)
  · intro id fp hsome hfp
    obtain ⟨e, he⟩ := Option.isSome_iff_exists.mp hsome
    rw [evict_lookup (notMem_take_of_drop h.keys he)]
    exact hfp
  · intro i x hx hb hfp
    rw [evict_lookup (fun hmem => hfree _ hmem i x hx hb rfl)]
    exact hfp

theorem Inv.setPhase (h : Inv cfg s) (k : Nat) (phase : Phase) : Inv cfg (s.setPhase k phase) := by
  have hruns : ∀ (j : Nat) (run : Run), s.runs[j]? = some run →
      ∃ run', (s.setPhase k phase).runs[j]? = some run' ∧ run'.request = run.request := by
    intro j run hrun
    unfold Front.setPhase
    rw [List.getElem?_modify, hrun]
    by_cases hkj : k = j
    · exact ⟨{ run with phase := phase }, congrArg some (if_pos hkj), rfl⟩
    · exact ⟨run, congrArg some (if_neg hkj), rfl⟩
  have hback : ∀ (j : Nat) (run' : Run), (s.setPhase k phase).runs[j]? = some run' →
      ∃ run, s.runs[j]? = some run ∧ run'.request = run.request := by
    intro j run' hrun'
    unfold Front.setPhase at hrun'
    rw [List.getElem?_modify] at hrun'
    obtain ⟨run, hrun, heq⟩ := Option.map_eq_some_iff.mp hrun'
    refine ⟨run, hrun, ?_⟩
    split at heq
    · rw [← heq]
    · rw [← heq]
  have hstarted : ∀ j id fp, s.StartedBy cfg j id fp → (s.setPhase k phase).StartedBy cfg j id fp := by
    rintro j id fp ⟨run, hrun, hid, hfp⟩
    obtain ⟨run', hrun', heq⟩ := hruns j run hrun
    exact ⟨run', hrun', heq ▸ hid, heq ▸ hfp⟩
  have hvouched : ∀ id j, s.Vouched cfg id j → (s.setPhase k phase).Vouched cfg id j := by
    rintro id j ⟨fp, hfp, hst⟩
    exact ⟨fp, hfp, hstarted j id fp hst⟩
  refine ⟨h.keys, fun id e he => hvouched _ _ (h.done id e he), fun id j hj => ?_, h.bound,
    fun i x hx => (h.handlers i x hx).mono hruns, fun j r l run' hf hrun' => ?_, ?_⟩
  · obtain ⟨hv, hhandler⟩ := h.inflight id j hj
    exact ⟨hvouched _ _ hv, hhandler⟩
  · obtain ⟨run, hrun, heq⟩ := hback j run' hrun'
    rw [heq]
    exact hstarted _ _ _ (h.futures j r l run hf hrun)
  · show s.futures.length = (s.runs.modify k _).length
    rw [List.length_modify]
    exact h.aligned

/-- A new run whose future is not done. -/
theorem Inv.append (h : Inv cfg s) (new : Run) :
    Inv cfg { s with runs := s.runs ++ [new], futures := s.futures ++ [none] } := by
  have hruns : ∀ (j : Nat) (run : Run), s.runs[j]? = some run →
      (s.runs ++ [new])[j]? = some run := fun j run hrun => by
    rw [List.getElem?_append_left (List.getElem?_eq_some_iff.mp hrun).1]
    exact hrun
  have hstarted : ∀ j id fp, s.StartedBy cfg j id fp →
      Front.StartedBy cfg { s with runs := s.runs ++ [new], futures := s.futures ++ [none] }
        j id fp := by
    rintro j id fp ⟨run, hrun, hid, hfp⟩
    exact ⟨run, hruns j run hrun, hid, hfp⟩
  refine ⟨h.keys, fun id e he => ?_, fun id j hj => ?_, h.bound,
    fun i x hx => (h.handlers i x hx).mono (fun j run hrun => ⟨run, hruns j run hrun, rfl⟩),
    fun j r l run hf hrun => ?_, ?_⟩
  · obtain ⟨fp, hfp, hst⟩ := h.done id e he
    exact ⟨fp, hfp, hstarted _ _ _ hst⟩
  · obtain ⟨⟨fp, hfp, hst⟩, hhandler⟩ := h.inflight id j hj
    exact ⟨⟨fp, hfp, hstarted _ _ _ hst⟩, hhandler⟩
  · -- the future of the new run is not done
    have hlt : j < s.futures.length := by
      rcases Nat.lt_or_ge j s.futures.length with hlt | hge
      · exact hlt
      · change (s.futures ++ [none])[j]? = _ at hf
        rw [List.getElem?_append_right hge] at hf
        rcases Nat.eq_zero_or_pos (j - s.futures.length) with hz | hpos
        · rw [hz] at hf
          cases hf
        · rw [List.getElem?_eq_none hpos] at hf
          cases hf
    change (s.futures ++ [none])[j]? = _ at hf
    change (s.runs ++ [new])[j]? = _ at hrun
    rw [List.getElem?_append_left hlt] at hf
    rw [List.getElem?_append_left (h.aligned ▸ hlt)] at hrun
    exact hstarted _ _ _ (h.futures j r l run hf hrun)
  · show (s.futures ++ [none]).length = (s.runs ++ [new]).length
    rw [List.length_append, List.length_append, h.aligned]
    rfl

/-- The run of a handler is registered. -/
theorem Inv.register (h : Inv cfg s) {i k : Nat} {x : Handler} (hx : s.handlers[i]? = some x)
    (hpc : x.pc = .running k) :
    Inv cfg { s with store := s.store.start x.request.requestId k } := by
  have hb : x.bound = true := by
    unfold Handler.bound
    rw [hpc]
  have hsound := h.handlers i x hx
  unfold Handler.Sound at hsound
  rw [hpc] at hsound
  obtain ⟨run, hrun, hreq⟩ := Option.map_eq_some_iff.mp hsound
  refine ⟨h.keys, h.done, fun id j hj => ?_, h.bound, h.handlers, h.futures, h.aligned⟩
  change List.lookup id (assign x.request.requestId k s.store.inflight) = some j at hj
  rw [lookup_assign] at hj
  split at hj
  · next hid =>
      cases hj
      refine ⟨⟨x.request.fingerprint cfg, hid ▸ h.bound i x hx hb, run, hrun, ?_, ?_⟩,
        i, x, k, hx, hpc, hid.symm⟩
      · rw [hreq, hid]
      · rw [hreq]
  · exact h.inflight id j hj

/-- The future of an id is popped. -/
theorem Inv.pop (h : Inv cfg s) (id : String) :
    Inv cfg { s with store := { s.store with inflight := erase id s.store.inflight } } := by
  refine ⟨h.keys, h.done, fun id' j hj => ?_, h.bound, h.handlers, h.futures, h.aligned⟩
  change List.lookup id' (erase id s.store.inflight) = some j at hj
  by_cases hid : id' = id
  · rw [hid, lookup_erase_self] at hj
    cases hj
  · rw [lookup_erase_ne hid] at hj
    exact h.inflight id' j hj

/-- The future of an id is settled, with a response of a run of the same request. -/
theorem Inv.settle (h : Inv cfg s) {id : String} {x : Settled}
    (hx : ∀ r j, x = .response r j → s.Vouched cfg id j) : Inv cfg (s.settle id x) := by
  unfold Front.settle
  split
  · exact h
  · next k hk =>
      refine ⟨h.keys, h.done, h.inflight, h.bound, h.handlers, fun l r j run hf hrun => ?_, ?_⟩
      · change (s.futures.modify k _)[l]? = _ at hf
        rw [List.getElem?_modify] at hf
        obtain ⟨f, hfl, heq⟩ := Option.map_eq_some_iff.mp hf
        by_cases hkl : k = l
        · subst hkl
          rw [if_pos rfl] at heq
          cases f with
          | some y =>
              change some y = _ at heq
              rw [heq] at hfl
              exact h.futures k r j run hfl hrun
          | none =>
              change some x = _ at heq
              obtain ⟨fp, hfp, hst⟩ := hx r j (Option.some.inj heq)
              obtain ⟨⟨fp', hfp', run', hrun', hid, hfpr⟩, -⟩ := h.inflight id k hk
              change s.runs[k]? = some run at hrun
              rw [hrun] at hrun'
              cases hrun'
              rw [hfp] at hfp'
              cases hfp'
              rw [hid, hfpr]
              exact hst
        · rw [if_neg hkl] at heq
          subst heq
          exact h.futures l r j run hfl hrun
      · show (s.futures.modify k _).length = _
        rw [List.length_modify]
        exact h.aligned

/-- A result is stored by the handler of its run. -/
theorem Inv.store (h : Inv cfg s) {i k : Nat} {x : Handler} (hx : s.handlers[i]? = some x)
    (hpc : x.pc = .running k) (now : Nat) (response : ProbeResponse) :
    Inv cfg { s with store := { s.store with
      done := assign x.request.requestId ⟨now, response, k⟩ s.store.done } } := by
  have hb : x.bound = true := by
    unfold Handler.bound
    rw [hpc]
  have hsound := h.handlers i x hx
  unfold Handler.Sound at hsound
  rw [hpc] at hsound
  obtain ⟨run, hrun, hreq⟩ := Option.map_eq_some_iff.mp hsound
  refine ⟨nodup_keys_assign h.keys, fun id e he => ?_, h.inflight, h.bound, h.handlers, h.futures,
    h.aligned⟩
  change List.lookup id (assign x.request.requestId _ s.store.done) = some e at he
  rw [lookup_assign] at he
  split at he
  · next hid =>
      cases he
      refine ⟨x.request.fingerprint cfg, hid ▸ h.bound i x hx hb, run, hrun, ?_, ?_⟩
      · rw [hreq, hid]
      · rw [hreq]
  · exact h.done id e he

end Parts

/-! ## Steps -/

section Steps

variable {cfg : Config} {s : Front}

/-- The bindings after `bind`, where they are not dropped. -/
theorem bind_lookup {st : ResultStore} {id fp id' : String} (h : id' ∉ st.overflow id fp)
    (hne : id' ≠ id) : (st.bind id fp).1.fingerprints.lookup id' = st.fingerprints.lookup id' := by
  unfold ResultStore.bind
  unfold ResultStore.overflow at h
  split
  · next hnone =>
      rw [hnone] at h
      rw [lookup_drop h, lookup_assign, if_neg hne]
  · rfl

/-- A request that is let through is bound. -/
theorem bind_self {st : ResultStore} {id fp : String} (h : id ∉ st.overflow id fp)
    (hok : (st.bind id fp).2 = true) : (st.bind id fp).1.fingerprints.lookup id = some fp := by
  unfold ResultStore.bind at hok ⊢
  unfold ResultStore.overflow at h
  split
  · next hnone =>
      rw [hnone] at h
      rw [lookup_drop h, lookup_assign, if_pos rfl]
  · next known hknown =>
      rw [hknown] at hok
      rw [hknown, of_decide_eq_true hok]

theorem bind_done (st : ResultStore) (id fp : String) :
    (st.bind id fp).1.done = st.done ∧ (st.bind id fp).1.inflight = st.inflight := by
  unfold ResultStore.bind
  split
  · exact ⟨rfl, rfl⟩
  · exact ⟨rfl, rfl⟩

/-- A request that is not let through changes nothing. -/
theorem bind_refused {st : ResultStore} {id fp : String} (h : (st.bind id fp).2 = false) :
    (st.bind id fp).1 = st := by
  unfold ResultStore.bind at h ⊢
  split
  · next hnone =>
      rw [hnone] at h
      cases h
  · rfl

/-- An id whose binding `bind` keeps for a handler or for a stored result is not the new one. -/
theorem Inv.bind (h : Inv cfg s) {i : Nat} {r : ProbeRequest}
    (hi : s.handlers[i]? = some ⟨r, .arrived⟩)
    (hover : ∀ x ∈ s.store.overflow r.requestId (r.fingerprint cfg),
      s.engaged i x = false ∧ s.store.done.lookup x = none)
    (hok : (s.store.bind r.requestId (r.fingerprint cfg)).2 = true) :
    Inv cfg { s with store := (s.store.bind r.requestId (r.fingerprint cfg)).1 } := by
  obtain ⟨hdone, hinflight⟩ := bind_done s.store r.requestId (r.fingerprint cfg)
  -- a bound id keeps its fingerprint
  have hkept : ∀ id fp, id ∉ s.store.overflow r.requestId (r.fingerprint cfg) →
      s.store.fingerprints.lookup id = some fp →
      (s.store.bind r.requestId (r.fingerprint cfg)).1.fingerprints.lookup id = some fp := by
    intro id fp hnot hfp
    by_cases hid : id = r.requestId
    · have hself := bind_self (hid ▸ hnot) hok
      unfold ResultStore.bind at hok
      rw [← hid, hfp] at hok
      rw [hid, hself, of_decide_eq_true hok]
    · rw [bind_lookup hnot hid, hfp]
  refine h.rebind ?_ ?_ hinflight ?_ ?_
  · rw [hdone]
    exact fun id e he => he
  · rw [hdone]
    exact h.keys
  · intro id fp hsome hfp
    refine hkept id fp (fun hmem => ?_) hfp
    rw [hdone, (hover id hmem).2] at hsome
    cases hsome
  · intro j x hx hb hfp
    refine hkept _ _ (fun hmem => ?_) hfp
    have hne : j ≠ i := by
      intro hji
      rw [hji, hi] at hx
      cases hx
      cases hb
    have heng := engaged_of_get hne hx hb
    rw [(hover _ hmem).1] at heng
    cases heng

theorem Inv.check (h : Inv cfg s) {i : Nat} {r : ProbeRequest}
    (hi : s.handlers[i]? = some ⟨r, .arrived⟩) (hord : orderly cfg s (.check i) = true) :
    Inv cfg (s.check cfg i r) := by
  simp only [orderly, hi, Bool.and_eq_true, List.all_eq_true, decide_eq_true_eq, Bool.not_eq_true',
    Option.isNone_iff_eq_none] at hord
  obtain ⟨hover, hevict⟩ := hord
  unfold Front.check
  split
  next store ok hbind =>
  by_cases hok : ok = false
  · rw [if_pos hok]
    have hsame : store = s.store := by
      have hrefused : (s.store.bind r.requestId (r.fingerprint cfg)).2 = false := by
        rw [hbind]
        exact hok
      rw [← bind_refused hrefused, hbind]
    rw [hsame]
    exact h.goto hi trivial (fun hb => by cases hb) (fun ⟨_, hj⟩ => by cases hj)
  · rw [if_neg hok]
    have hok : (s.store.bind r.requestId (r.fingerprint cfg)).2 = true := by
      rw [hbind]
      exact eq_true_of_ne_false hok
    have hstore : (s.store.bind r.requestId (r.fingerprint cfg)).1 = store := by rw [hbind]
    have hnotOver : r.requestId ∉ s.store.overflow r.requestId (r.fingerprint cfg) :=
      fun hmem => (hover _ hmem).1.1 rfl
    have hself := bind_self hnotOver hok
    have hbound := h.bind hi (fun x hx => ⟨(hover x hx).1.2, (hover x hx).2⟩) hok
    rw [hstore] at hself hbound hevict
    -- nor does `_evict` drop the binding of the request
    have hinv := hbound.evict s.now (fun id hid j x hx hb heq => by
      have hne : j ≠ i := by
        intro hji
        change s.handlers[j]? = some x at hx
        rw [hji, hi] at hx
        cases hx
        cases hb
      have heng := engaged_of_get hne hx hb
      change s.engaged i x.request.requestId = true at heng
      rw [heq, (hevict id hid).2] at heng
      cases heng)
    have hfp : (store.evict s.now).fingerprints.lookup r.requestId = some (r.fingerprint cfg) := by
      rw [evict_lookup (fun hmem => (hevict _ hmem).1 rfl)]
      exact hself
    have hvouched : ∀ k, Front.Vouched cfg { s with store := store.evict s.now } r.requestId k →
        Front.StartedBy cfg { s with store := store.evict s.now } k r.requestId
          (r.fingerprint cfg) := by
      rintro k ⟨fp, hfp', hst⟩
      change List.lookup r.requestId (store.evict s.now).fingerprints = some fp at hfp'
      rw [hfp] at hfp'
      cases hfp'
      exact hst
    dsimp only
    split
    · next hit hhit =>
        exact hinv.goto hi (hvouched _ (hinv.done _ hit hhit)) (fun hb => by cases hb)
          (fun ⟨_, hj⟩ => by cases hj)
    · split
      · next k hk =>
          exact hinv.goto hi (hvouched _ (hinv.inflight _ k hk).1) (fun hb => by cases hb)
            (fun ⟨_, hj⟩ => by cases hj)
      · exact hinv.goto hi trivial (fun _ => hfp) (fun ⟨_, hj⟩ => by cases hj)

theorem Inv.load (h : Inv cfg s) {i : Nat} {r : ProbeRequest} {probe : Option ApprovedProbe}
    (hi : s.handlers[i]? = some ⟨r, .loading⟩) : Inv cfg (s.load cfg i r probe) := by
  unfold Front.load
  split
  · exact h.goto hi trivial (fun hb => by cases hb) (fun ⟨_, hj⟩ => by cases hj)
  · next spec _ =>
      -- the run is appended, the handler is moved to it, and then it is registered
      have happend := h.append { request := r, identity := commandIdentity spec }
      have hnew : (s.runs ++ [{ request := r, identity := commandIdentity spec }])[s.runs.length]? =
          some { request := r, identity := commandIdentity spec } := by
        rw [List.getElem?_append_right (Nat.le_refl _), Nat.sub_self]
        rfl
      have hgoto : Inv cfg (Front.setPc { s with
          runs := s.runs ++ [{ request := r, identity := commandIdentity spec }]
          futures := s.futures ++ [none] } i (.running s.runs.length)) := happend.goto hi
        (congrArg (Option.map Run.request) hnew) (fun _ => h.bound i _ hi rfl)
        (fun ⟨_, hj⟩ => by cases hj)
      have hi' : (Front.setPc { s with
          runs := s.runs ++ [{ request := r, identity := commandIdentity spec }]
          futures := s.futures ++ [none] } i (.running s.runs.length)).handlers[i]? =
          some ⟨r, .running s.runs.length⟩ := by
        unfold Front.setPc
        rw [List.getElem?_modify, hi]
        exact congrArg some (if_pos rfl)
      exact hgoto.register hi' rfl

/-- Only other handlers of the id are engaged. -/
theorem free_after {i : Nat} {id : String} {pc : Pc} (hfree : s.engaged i id = false)
    (hpc : ∀ x : Handler, ({ x with pc := pc } : Handler).bound = false) {j : Nat} {x : Handler}
    (hx : (s.setPc i pc).handlers[j]? = some x) (hb : x.bound = true) :
    x.request.requestId ≠ id := by
  intro hid
  rcases setPc_get hx with ⟨hne, hold⟩ | ⟨-, y, -, heq⟩
  · have heng := engaged_of_get hne hold hb
    rw [hid, hfree] at heng
    cases heng
  · subst heq
    rw [hpc y] at hb
    cases hb

/-- The end of an aborted run, once its future is settled. -/
theorem Inv.unbind (h : Inv cfg s) {i k : Nat} {r : ProbeRequest} {outcome : Outcome}
    (hi : s.handlers[i]? = some ⟨r, .running k⟩)
    (hfree : s.engaged i r.requestId = false) (hnone : s.store.done.lookup r.requestId = none)
    (hout : ∀ response k, outcome ≠ .response response k) :
    Inv cfg ({ s with store := s.store.abort r.requestId }.setPc i (.ended outcome)) := by
  have hpop := h.pop r.requestId
  have hsound : (⟨r, .ended outcome⟩ : Handler).Sound cfg { s with
      store := { s.store with inflight := erase r.requestId s.store.inflight } } := by
    unfold Handler.Sound
    cases outcome with
    | response response k => exact absurd rfl (hout response k)
    | http e => trivial
    | raised => trivial
  have hended := hpop.goto hi hsound (fun hb => by cases hb)
    (fun _ => Or.inl (lookup_erase_self _ _))
  refine hended.rebind (fun id e he => he) hended.keys rfl ?_ ?_
  · intro id fp hsome hfp
    have hne : id ≠ r.requestId := by
      intro hid
      change (s.store.done.lookup id).isSome = true at hsome
      rw [hid, hnone] at hsome
      cases hsome
    exact (lookup_erase_ne hne _).trans hfp
  · intro j x hx hb hfp
    have hne := free_after hfree (fun _ => rfl) hx hb
    exact (lookup_erase_ne hne _).trans hfp

/-- The end of a run with a response, once its future is settled. -/
theorem Inv.conclude (h : Inv cfg s) {i k : Nat} {r : ProbeRequest} {response : ProbeResponse}
    (hi : s.handlers[i]? = some ⟨r, .running k⟩)
    (hfree : ∀ id ∈ ({ s.store with
      done := assign r.requestId ⟨s.now, response, k⟩ s.store.done } : ResultStore).evictedIds s.now,
      s.engaged i id = false) :
    Inv cfg ({ s with store := s.store.finish s.now r.requestId response k }.setPc i
      (.ended (.response response k))) := by
  have hsound := h.handlers i _ hi
  obtain ⟨run, hrun, hreq⟩ := Option.map_eq_some_iff.mp hsound
  have hstarted : s.StartedBy cfg k r.requestId (r.fingerprint cfg) :=
    ⟨run, hrun, by rw [hreq], by rw [hreq]⟩
  have hstored := (h.pop r.requestId).store hi rfl s.now response
  have hended : Inv cfg (Front.setPc { s with
      store := { s.store with
        inflight := erase r.requestId s.store.inflight
        done := assign r.requestId ⟨s.now, response, k⟩ s.store.done } } i
      (.ended (.response response k))) :=
    hstored.goto hi hstarted (fun hb => by cases hb) (fun _ => Or.inl (lookup_erase_self _ _))
  exact hended.evict s.now (fun id hid j x hx hb =>
    free_after (hfree id hid) (fun _ => rfl) hx hb)

theorem settle_handlers (id : String) (x : Settled) : (s.settle id x).handlers = s.handlers := by
  unfold Front.settle
  split
  · rfl
  · rfl

theorem settle_store (id : String) (x : Settled) : (s.settle id x).store = s.store := by
  unfold Front.settle
  split
  · rfl
  · rfl

theorem settle_now (id : String) (x : Settled) : (s.settle id x).now = s.now := by
  unfold Front.settle
  split
  · rfl
  · rfl

theorem settle_engaged (id : String) (x : Settled) (i : Nat) (id' : String) :
    (s.settle id x).engaged i id' = s.engaged i id' := by
  unfold Front.engaged
  rw [settle_handlers]

theorem Inv.abort (h : Inv cfg s) {i k : Nat} {r : ProbeRequest} {outcome : Outcome}
    (hi : s.handlers[i]? = some ⟨r, .running k⟩)
    (hfree : s.engaged i r.requestId = false) (hnone : s.store.done.lookup r.requestId = none)
    (hout : ∀ response k, outcome ≠ .response response k) :
    Inv cfg (s.abort i r.requestId outcome) := by
  have hsettle : Inv cfg (s.settle r.requestId .raised) := h.settle (fun _ _ hr => by cases hr)
  refine hsettle.unbind ((settle_handlers _ _).symm ▸ hi) ?_ ?_ hout
  · rw [settle_engaged]
    exact hfree
  · rw [settle_store]
    exact hnone

theorem Inv.finish (h : Inv cfg s) {i k : Nat} {r : ProbeRequest} {response : ProbeResponse}
    (hi : s.handlers[i]? = some ⟨r, .running k⟩)
    (hfree : ∀ id ∈ ({ s.store with
      done := assign r.requestId ⟨s.now, response, k⟩ s.store.done } : ResultStore).evictedIds s.now,
      s.engaged i id = false) :
    Inv cfg (s.finish i r.requestId response k) := by
  have hsound := h.handlers i _ hi
  obtain ⟨run, hrun, hreq⟩ := Option.map_eq_some_iff.mp hsound
  have hvouched : s.Vouched cfg r.requestId k :=
    ⟨_, h.bound i _ hi rfl, run, hrun, by rw [hreq], by rw [hreq]⟩
  have hsettle : Inv cfg (s.settle r.requestId (.response response k)) :=
    h.settle (fun r' j hr => by cases hr; exact hvouched)
  refine hsettle.conclude ((settle_handlers _ _).symm ▸ hi) (fun id hid => ?_)
  rw [settle_engaged]
  rw [settle_store, settle_now] at hid
  exact hfree id hid

theorem Inv.resume (h : Inv cfg s) {i k : Nat} {r : ProbeRequest} {x : Settled}
    (hi : s.handlers[i]? = some ⟨r, .waiting k⟩) (hx : s.futures[k]?.join = some x) :
    Inv cfg (s.setPc i (.ended (match x with
      | .response response run => .response { response with replayed := true } run
      | .raised => .raised))) := by
  refine h.goto hi ?_ (fun hb => by cases hb) (fun ⟨_, hj⟩ => by cases hj)
  cases x with
  | raised => trivial
  | response response j =>
      obtain ⟨run, hrun, hid, hfp⟩ := h.handlers i _ hi
      have hsettled := h.futures k response j run (Option.join_eq_some_iff.mp hx) hrun
      change s.StartedBy cfg j r.requestId (r.fingerprint cfg)
      rw [hid, hfp] at hsettled
      exact hsettled

theorem Inv.exec (h : Inv cfg s) {st : Step} {s' : Front} (hord : orderly cfg s st = true)
    (hx : s.exec cfg st = some s') : Inv cfg s' := by
  cases st with
  | arrive r =>
      cases hx
      have hold : ∀ (j : Nat) (x : Handler), (s.handlers ++ [⟨r, .arrived⟩])[j]? = some x →
          s.handlers[j]? = some x ∨ x = ⟨r, .arrived⟩ := by
        intro j x hj
        rcases Nat.lt_or_ge j s.handlers.length with hlt | hge
        · rw [List.getElem?_append_left hlt] at hj
          exact Or.inl hj
        · rw [List.getElem?_append_right hge] at hj
          exact Or.inr (List.mem_singleton.mp (List.mem_of_getElem? hj))
      refine ⟨h.keys, h.done, fun id k hk => ?_, fun j x hj hb => ?_, fun j x hj => ?_, h.futures,
        h.aligned⟩
      · obtain ⟨hv, i, x, l, hi, hpc, hid⟩ := h.inflight id k hk
        refine ⟨hv, i, x, l, ?_, hpc, hid⟩
        exact (List.getElem?_append_left (List.getElem?_eq_some_iff.mp hi).1).trans hi
      · rcases hold j x hj with hj | rfl
        · exact h.bound j x hj hb
        · cases hb
      · rcases hold j x hj with hj | rfl
        · exact h.handlers j x hj
        · trivial
  | check i =>
      simp only [Front.exec] at hx
      split at hx
      · next hi =>
          cases hx
          exact h.check hi hord
      · cases hx
  | load i probe =>
      simp only [Front.exec] at hx
      split at hx
      · next hi =>
          cases hx
          exact h.load hi
      · cases hx
  | enter k =>
      simp only [Front.exec] at hx
      split at hx
      · split at hx
        · cases hx
          exact h.setPhase _ _
        · cases hx
      · cases hx
  | exit k =>
      simp only [Front.exec] at hx
      split at hx
      · split at hx
        · cases hx
          exact h.setPhase _ _
        · cases hx
      · cases hx
  | reply i w =>
      simp only [Front.exec] at hx
      split at hx
      · next r k hi =>
          split at hx
          · next run hrun =>
              split at hx
              · cases hx
                -- the handler's request is the one of its run
                have hreq : run.request = r := by
                  have hsound := h.handlers i _ hi
                  change (s.runs[k]?).map (·.request) = some r at hsound
                  rw [hrun] at hsound
                  exact Option.some.inj hsound
                simp only [orderly, hi, hrun, Option.bind_some] at hord
                unfold Front.reply
                rw [hreq] at hord ⊢
                split
                · next hnone =>
                    rw [hnone] at hord
                    simp only [Bool.and_eq_true, Bool.not_eq_true', Option.isNone_iff_eq_none] at hord
                    exact h.abort hi hord.1 hord.2 (fun _ _ hc => by cases hc)
                · next response hresponse =>
                    rw [hresponse] at hord
                    refine h.finish hi (fun id hid => ?_)
                    exact Bool.not_eq_true' _ ▸ List.all_eq_true.mp hord id hid
              · cases hx
          · cases hx
      · cases hx
  | resume i =>
      simp only [Front.exec] at hx
      split at hx
      · next r k hi =>
          split at hx
          · next response run hf =>
              cases hx
              exact h.resume hi hf
          · next hf =>
              cases hx
              exact h.resume hi hf
          · cases hx
      · cases hx
  | raise i =>
      simp only [Front.exec] at hx
      split at hx
      · next r k hi =>
          cases hx
          simp only [orderly, hi, Bool.and_eq_true, Bool.not_eq_true',
            Option.isNone_iff_eq_none] at hord
          exact h.abort hi hord.1 hord.2 (fun _ _ hc => by cases hc)
      · cases hx
      · next x hrun hended hi =>
          cases hx
          refine h.goto hi trivial (fun hb => by cases hb) (fun hx => ?_)
          obtain ⟨j, hj⟩ := hx
          exact (hrun x.request j (by rw [← hj])).elim
      · cases hx
  | tick n =>
      cases hx
      exact ⟨h.keys, h.done, h.inflight, h.bound, h.handlers, h.futures, h.aligned⟩

end Steps

/-! ## Replays -/

/-- Every answer from the result store or from a run in flight comes from a run that was started
by a request with the same id and the same fingerprint. -/
def Faithful (cfg : Config) (s : Front) : Prop :=
  ∀ h ∈ s.handlers, ∀ r k, h.pc = .ended (.response r k) → r.replayed = true →
    s.StartedBy cfg k h.request.requestId (h.request.fingerprint cfg)

/-- **A verdict is not replayed to another request**, in any state of a run whose steps drop only
bindings that nobody needs. -/
theorem faithful_of_orderly {cfg : Config} {s : Front}
    (h : Reaches (Front.exec cfg) (orderly cfg) {} s) : Faithful cfg s := by
  have hinv : Inv cfg s :=
    h.inv (Inv.init cfg) (fun s st s' hs hord hx => Inv.exec hs hord hx)
  intro x hx r k hpc _
  obtain ⟨i, hi⟩ := List.mem_iff_getElem?.mp hx
  have hsound := hinv.handlers i x hi
  unfold Handler.Sound at hsound
  rw [hpc] at hsound
  exact hsound

/-- A request for the base of an issue at a commit. -/
def demoRequest (commitSha : String) : ProbeRequest :=
  { requestId := "0123456789abcdef0123456789abcdef"
    params := {
      repository := "apache/superset"
      issueNumber := 4213
      commitSha := commitSha
      target := .base
      probeIdentifier := "apache/superset#4213@sha256:aaaaaaaaaaaaaaaa"
      scriptHash := "aaaaaaaaaaaaaaaaaaaaaaaaaaaaaaaaaaaaaaaaaaaaaaaaaaaaaaaaaaaaaaaa"
      manifestHash := "bbbbbbbbbbbbbbbbbbbbbbbbbbbbbbbbbbbbbbbbbbbbbbbbbbbbbbbbbbbbbbbb"
      timeoutSeconds := 600
      maxOutputBytes := 65536 } }

def demoCommit : String := "1111111111111111111111111111111111111111"

def otherCommit : String := "2222222222222222222222222222222222222222"

/-- A front for one repository, with the SHA-256 digests of the requests that are made here. -/
def demoConfig : Config where
  repositoryAllowlist := ["apache/superset"]
  maxTimeoutSeconds := 900
  digest := fun p =>
    if p.commitSha = demoCommit then
      "30b33c76ee74eff8e276bea5ca3e35e1ae1c5dccce3c8cdd089a60968f41a763"
    else "04a3757a8b741bce9e21e111e431e5c1da3f269c0afb97136fceb9f7f99b413f"

def demoProbe : ApprovedProbe where
  repository := "apache/superset"
  issueNumber := 4213
  identifier := "apache/superset#4213@sha256:aaaaaaaaaaaaaaaa"
  scriptHash := "aaaaaaaaaaaaaaaaaaaaaaaaaaaaaaaaaaaaaaaaaaaaaaaaaaaaaaaaaaaaaaaa"
  manifestHash := "bbbbbbbbbbbbbbbbbbbbbbbbbbbbbbbbbbbbbbbbbbbbbbbbbbbbbbbbbbbbbbbb"
  scriptContent := "pytest"
  timeoutSeconds := 300
  setupTimeoutSeconds := 300

/-- The executor's answer: the probe exits with 1. -/
def demoAnswer : Wire :=
  .ok (fromResult (demoRequest demoCommit) ("bash probe.sh sha256:" ++ demoProbe.scriptHash ++
    " @ apache/superset@" ++ demoCommit ++ " (base)") (some 1) none)

/-- A second request waits for the run of the first, and a third one comes after it. -/
def replaySchedule : List Step :=
  [.arrive (demoRequest demoCommit), .check 0, .load 0 (some demoProbe), .enter 0,
    .arrive (demoRequest demoCommit), .check 1, .exit 0, .reply 0 demoAnswer, .resume 1,
    .arrive (demoRequest demoCommit), .check 2]

/-- What the handlers returned: the exit code of the probe, and whether it is a replay. -/
def Front.answers (s : Front) : List (Option (Option Int × Bool)) :=
  s.handlers.map (fun h => match h.pc with
    | .ended (.response r _) => some (r.exitCode, r.replayed)
    | _ => none)

theorem faithful_of_orderly_demo : ∃ s, Reaches (Front.exec demoConfig) (orderly demoConfig) {} s ∧
    s.answers = [some (some 1, false), some (some 1, true), some (some 1, true)] ∧
    Faithful demoConfig s := by
  obtain ⟨s, hs, hview⟩ := exists_of_runAll (Front.exec demoConfig) (orderly demoConfig) {}
    replaySchedule Front.answers
    [some (some 1, false), some (some 1, true), some (some 1, true)] (by decide +kernel)
  exact ⟨s, hs, hview, faithful_of_orderly hs⟩

/-- Two duplicates are loaded at the same time; the second finds the executor busy and unbinds the
id. A request with other parameters takes the id, the run of the first ends, and its verdict is
stored under the id. -/
def strayedSchedule : List Step :=
  [.arrive (demoRequest demoCommit), .check 0, .arrive (demoRequest demoCommit), .check 1,
    .load 0 (some demoProbe), .enter 0, .load 1 (some demoProbe), .enter 1, .reply 1 atCapacity,
    .arrive (demoRequest otherCommit), .check 2, .exit 0, .reply 0 demoAnswer,
    .arrive (demoRequest otherCommit), .check 3]

theorem verdict_strayed : ∃ s, Reaches (Front.exec demoConfig) (fun _ _ => true) {} s ∧
    ¬ Faithful demoConfig s := by
  obtain ⟨s, hs, hview⟩ := exists_of_runAll (Front.exec demoConfig) (fun _ _ => true) {}
    strayedSchedule
    (fun s => (s.handlers[3]?.map (·.request), s.handlers[3]?.bind (fun h => match h.pc with
      | .ended (.response r k) => some (r.replayed, k)
      | _ => none), s.runs.map (·.request)))
    (some (demoRequest otherCommit), some (true, 0),
      [demoRequest demoCommit, demoRequest demoCommit]) (by decide +kernel)
  obtain ⟨hrequest, hview⟩ := Prod.mk.inj hview
  obtain ⟨hanswer, hruns⟩ := Prod.mk.inj hview
  obtain ⟨h, hh, hreq⟩ := Option.map_eq_some_iff.mp hrequest
  refine ⟨s, hs, fun hfaithful => ?_⟩
  rw [hh] at hanswer
  change (match h.pc with
    | .ended (.response r k) => some (r.replayed, k)
    | _ => none) = some (true, 0) at hanswer
  split at hanswer
  · next r k hpc =>
      obtain ⟨hreplayed, hk⟩ := Prod.mk.inj (Option.some.inj hanswer)
      obtain ⟨run, hrun, -, hfp⟩ := hfaithful h (List.mem_of_getElem? hh) r k hpc hreplayed
      -- run 0 was started for the other commit
      have hmap := congrArg (fun l => l[0]?) hruns
      rw [hk] at hrun
      rw [List.getElem?_map, hrun] at hmap
      have hstarted : run.request = demoRequest demoCommit := Option.some.inj hmap
      rw [hstarted, hreq] at hfp
      exact absurd hfp (by decide)
  · cases hanswer

end Remediator.Verifier
