import Remediator.Capacity.Keys
import Remediator.Lib.Taking

set_option autoImplicit false

/-! # When resource keys deadlock

As long as no lease on a key lapses, a case that takes its keys is an agent that takes its list one
by one, and whether cases can come to wait for each other in a ring is a property of their
manifests.
-/

namespace Remediator.Capacity

/-! ## Runs without a lapse -/

/-- The manifests of the cases, without repetitions; a key is not empty. -/
def Declared (need : Nat → List String) (cases : List CaseRow) : Prop :=
  ∀ c ∈ cases, ∀ keys, c.sessionKeys = some keys → keys.eraseDups = need c.id ∧ "" ∉ keys

/-- The step brings in no other manifest. -/
def KeyStep.Declares (need : Nat → List String) : KeyStep → Prop
  | .lease (.rows cases _) => Declared need cases
  | _ => True

/-- No lease on a key lapses in the step: the clock stays before its end, a heartbeat does not move
the end into the past, and what is expired had lapsed. -/
def KeyStep.Keeps (L : Limits) (db : Db) : KeyStep → Prop
  | .lease (.tick seconds) => ∀ l ∈ db.leases, l.kind = .resource → l.releasedAt = none →
      db.now + seconds < l.expiresAt
  | .lease (.heartbeat _ _ readAt) => db.now < readAt + L.leaseSeconds
  | .lease (.expireStale readAt) => readAt ≤ db.now
  | _ => True

/-- Every case keeps its manifest, and no lease on a key lapses. -/
structure Steady (need : Nat → List String) (L : Limits) (db : Db) (x : KeyStep) : Prop where
  declares : x.Declares need
  keeps : x.Keeps L db

/-! ## Who has which key -/

/-- The lease of a case on a key. -/
def Lease.OnKey (l : Lease) (i : Nat) (k : String) : Prop :=
  l.kind = .resource ∧ l.scope = k ∧ l.caseId = i ∧ l.releasedAt = none

/-- The leases on keys are live, and say who has which key. -/
structure Tracks (need : Nat → List String) (db : Db) (σ : Nat → Nat) : Prop where
  live : ∀ l ∈ db.leases, l.kind = .resource → l.releasedAt = none →
    db.now < l.expiresAt ∧ l.attemptId = none
  keys : ∀ i k, k ∈ Taking.held need σ i ↔ ∃ l ∈ db.leases, l.OnKey i k

/-- A change of a lease that leaves it on its key. -/
structure Lease.Spared (now : Nat) (l l' : Lease) : Prop where
  kind : l'.kind = l.kind
  scope : l'.scope = l.scope
  caseId : l'.caseId = l.caseId
  released : l'.releasedAt = none → l.releasedAt = none
  key : l.kind = .resource → l.releasedAt = none →
    l'.releasedAt = none ∧ now < l'.expiresAt ∧ l'.attemptId = none

/-- What `_acquire_resource_keys` asks for. -/
abbrev askKey (i : Nat) (k : String) : Request := ⟨.resource, i, k, none, some 1, false⟩

section Tracking

variable {need : Nat → List String} {σ : Nat → Nat} {db db' : Db} {L : Limits} {owner : String}

theorem Tracks.map (h : Tracks need db σ) {f : Lease → Lease}
    (hleases : db'.leases = db.leases.map f) (hf : ∀ l ∈ db.leases, l.Spared db'.now (f l)) :
    Tracks need db' σ where
  live l hl hkind hrel := by
    rw [hleases] at hl
    obtain ⟨l₀, hl₀, rfl⟩ := List.mem_map.mp hl
    have hspared := hf l₀ hl₀
    exact (hspared.key (hspared.kind.symm.trans hkind) (hspared.released hrel)).2
  keys i k := by
    rw [h.keys, hleases]
    constructor
    · rintro ⟨l, hl, hkind, hscope, hcase, hrel⟩
      have hspared := hf l hl
      exact ⟨f l, List.mem_map_of_mem hl, hspared.kind.trans hkind, hspared.scope.trans hscope,
        hspared.caseId.trans hcase, (hspared.key hkind hrel).1⟩
    · rintro ⟨l', hl', hkind, hscope, hcase, hrel⟩
      obtain ⟨l, hl, rfl⟩ := List.mem_map.mp hl'
      have hspared := hf l hl
      exact ⟨l, hl, hspared.kind.symm.trans hkind, hspared.scope.symm.trans hscope,
        hspared.caseId.symm.trans hcase, hspared.released hrel⟩

/-- Only the leases and the clock matter. -/
theorem Tracks.congr (h : Tracks need db σ) (hleases : db'.leases = db.leases)
    (hnow : db'.now = db.now) : Tracks need db' σ where
  live := by rw [hleases, hnow]; exact h.live
  keys := by rw [hleases]; exact h.keys

theorem Lease.Spared.refl {l : Lease} {now : Nat}
    (h : l.kind = .resource → l.releasedAt = none → now < l.expiresAt ∧ l.attemptId = none) :
    l.Spared now l :=
  ⟨rfl, rfl, rfl, id, fun hkind hrel => ⟨hrel, h hkind hrel⟩⟩

theorem Tracks.spared (h : Tracks need db σ) {l : Lease} (hl : l ∈ db.leases) :
    l.Spared db.now l := .refl (h.live l hl)

/-- A lease that is on no key may be changed at will, if it stays so. -/
theorem Lease.spared_of_ne {l l' : Lease} {now : Nat} (hkind : l'.kind = l.kind)
    (hscope : l'.scope = l.scope) (hcase : l'.caseId = l.caseId)
    (hreleased : l'.releasedAt = none → l.releasedAt = none) (hne : l.kind ≠ .resource) :
    l.Spared now l' :=
  ⟨hkind, hscope, hcase, hreleased, fun h => absurd h hne⟩

theorem Tracks.reconcileFinished (h : Tracks need db σ) : Tracks need db.reconcileFinished σ := by
  refine h.map rfl fun l hl => ?_
  split
  · next hfin =>
      refine ⟨rfl, rfl, rfl, fun hrel => (by cases hrel), fun hkind hrel => ?_⟩
      rw [(h.live l hl hkind hrel).2] at hfin
      simp at hfin
  · exact h.spared hl

theorem Tracks.releaseLapsed (h : Tracks need db σ) (r : Request) :
    Tracks need (db.releaseLapsed r) σ := by
  refine h.map rfl fun l hl => ?_
  split
  · next hlapsed =>
      refine ⟨rfl, rfl, rfl, fun hrel => (by cases hrel), fun hkind hrel => ?_⟩
      have hlive := (h.live l hl hkind hrel).1
      simp [Lease.live, hrel, hlive] at hlapsed
  · exact h.spared hl

theorem Tracks.renew (h : Tracks need db σ) (r : Request) (hr : r.attemptId = none) :
    Tracks need (db.renew L owner r) σ := by
  have hpos := L.leaseSeconds_pos
  refine h.map rfl fun l hl => ?_
  split
  · refine ⟨rfl, rfl, rfl, id, fun hkind hrel => ⟨hrel, Nat.lt_add_of_pos_right hpos, ?_⟩⟩
    dsimp only
    rw [hr]
    exact (h.live l hl hkind hrel).2
  · exact h.spared hl

/-- Who has a key is in the slots. -/
theorem Tracks.slots (h : Tracks need db σ) (i : Nat) (k : String) :
    (⟨.resource, k, i⟩ : Slot) ∈ db.slots ↔ k ∈ Taking.held need σ i := by
  rw [h.keys]
  unfold Db.slots
  constructor
  · intro hslot
    obtain ⟨l, hl, heq⟩ := List.mem_map.mp hslot
    obtain ⟨hl, hlive⟩ := List.mem_filter.mp hl
    obtain ⟨hkind, hscope, hcase⟩ := Slot.mk.injEq .. ▸ heq
    simp only [Lease.live, Bool.and_eq_true, Option.isNone_iff_eq_none] at hlive
    exact ⟨l, hl, hkind, hscope, hcase, hlive.1⟩
  · rintro ⟨l, hl, hkind, rfl, rfl, hrel⟩
    refine List.mem_map.mpr ⟨l, List.mem_filter.mpr ⟨hl, ?_⟩, by rw [hkind]⟩
    simp [Lease.live, hrel, (h.live l hl hkind hrel).1]

/-- A key that the case does not have is refused if another case has it. -/
theorem Tracks.refusal (h : Tracks need db σ) {i : Nat} {k : String} (hk : k ≠ "")
    (hfree : k ∉ Taking.held need σ i) :
    (db.refusal L (askKey i k)).isSome = true ↔
      Taking.Taken need σ i k := by
  have hcount : 1 ≤ db.inUseScope .resource k ↔ Taking.Taken need σ i k := by
    rw [inUseScope_eq, Nat.one_le_iff_ne_zero, Ne, List.countP_eq_zero]
    push Not
    constructor
    · rintro ⟨⟨kind, scope, j⟩, hslot, hon⟩
      simp only [Bool.and_eq_true, decide_eq_true_eq] at hon
      obtain ⟨rfl, rfl⟩ := hon
      have hj := (h.slots j scope).mp hslot
      refine ⟨j, ?_, hj⟩
      rintro rfl
      exact hfree hj
    · rintro ⟨j, -, hj⟩
      exact ⟨⟨.resource, k, j⟩, (h.slots j k).mpr hj, by simp⟩
  simp only [Db.refusal, Limits.forKind, ne_eq, not_true_eq_false, false_and, if_false, if_true]
  rw [← hcount]
  simp [hk]

/-! ## Taking the keys -/

/-- Asking for a key that the case has renews it. -/
theorem Tracks.acquire_own (h : Tracks need db σ) (L : Limits) (owner : String) {i : Nat} {k : String}
    (hk : k ∈ Taking.held need σ i) :
    (acquire L owner (askKey i k) db).2 = none ∧
      Tracks need (acquire L owner (askKey i k) db).1 σ := by
  have hrec := h.reconcileFinished
  have hholds : db.reconcileFinished.holds (askKey i k) = true :=
    (holds_iff _ _).mpr ((hrec.slots i k).mpr hk)
  unfold acquire
  rw [if_pos hholds]
  exact ⟨rfl, hrec.renew _ rfl⟩

theorem Tracks.not_holds (h : Tracks need db σ) {i : Nat} {k : String}
    (hk : k ∉ Taking.held need σ i) :
    db.holds (askKey i k) = false := by
  rw [← Bool.not_eq_true, holds_iff]
  exact fun hslot => hk ((h.slots i k).mp hslot)

/-- Asking for a key that another case has changes nothing. -/
theorem Tracks.acquire_taken (h : Tracks need db σ) (L : Limits) (owner : String) {i : Nat}
    {k : String} (hne : k ≠ "")
    (hk : k ∉ Taking.held need σ i) (htaken : Taking.Taken need σ i k) :
    (∃ d, (acquire L owner (askKey i k) db).2 = some d) ∧
      Tracks need (acquire L owner (askKey i k) db).1 σ := by
  have hrec := h.reconcileFinished
  have hlapsed := hrec.releaseLapsed (askKey i k)
  obtain ⟨d, hd⟩ := Option.isSome_iff_exists.mp ((hlapsed.refusal (L := L) hne hk).mpr htaken)
  simp only [acquire, hrec.not_holds hk, Bool.false_eq_true, if_false, Db.compete, hd]
  exact ⟨⟨d, rfl⟩, hlapsed⟩

/-- Asking for a free key takes it. -/
theorem Tracks.acquire_free (h : Tracks need db σ) (L : Limits) (owner : String) (σ' : Nat → Nat)
    {i : Nat} {k : String} (hne : k ≠ "") (hk : k ∉ Taking.held need σ i)
    (hfree : ¬ Taking.Taken need σ i k)
    (hself : ∀ x, x ∈ Taking.held need σ' i ↔ x ∈ Taking.held need σ i ∨ x = k)
    (hother : ∀ j, j ≠ i → Taking.held need σ' j = Taking.held need σ j) :
    (acquire L owner (askKey i k) db).2 = none ∧
      Tracks need (acquire L owner (askKey i k) db).1 σ' := by
  have hpos := L.leaseSeconds_pos
  have hrec := h.reconcileFinished
  have hlapsed := hrec.releaseLapsed (askKey i k)
  have hnone : (db.reconcileFinished.releaseLapsed
      (askKey i k)).refusal L
        (askKey i k) = none := by
    rw [← Option.not_isSome_iff_eq_none, hlapsed.refusal hne hk]
    exact hfree
  simp only [acquire, hrec.not_holds hk, Bool.false_eq_true, if_false, Db.compete, hnone]
  refine ⟨trivial, ⟨fun l hl hkind hrel => ?_, fun j x => ?_⟩⟩
  · rcases List.mem_append.mp hl with hl | hl
    · exact hlapsed.live l hl hkind hrel
    · obtain rfl := List.mem_singleton.mp hl
      exact ⟨Nat.lt_add_of_pos_right hpos, rfl⟩
  · have hnew : (∃ l ∈ (db.reconcileFinished.releaseLapsed
          (askKey i k)).leases ++ [⟨.resource, k, i, none, owner,
            db.now, db.now + L.leaseSeconds, none⟩], l.OnKey j x) ↔
        x ∈ Taking.held need σ j ∨ (k = x ∧ i = j) := by
      rw [hlapsed.keys]
      simp only [List.mem_append, List.mem_singleton, or_and_right, exists_or, exists_eq_left]
      refine or_congr Iff.rfl ?_
      simp [Lease.OnKey]
    refine Iff.trans ?_ hnew.symm
    by_cases hj : j = i
    · subst hj
      rw [hself]
      refine or_congr Iff.rfl ⟨fun hx => ⟨hx.symm, rfl⟩, fun hx => hx.1.symm⟩
    · rw [hother j hj]
      refine ⟨Or.inl, fun hx => hx.resolve_right fun hji => hj hji.2.symm⟩

/-- One more key of the list. -/
theorem held_succ {i : Nat} {k : String} (hk : (need i)[σ i]? = some k) :
    Taking.held need (Function.update σ i (σ i + 1)) i = Taking.held need σ i ++ [k] := by
  rw [Taking.held_update_self, List.take_add_one, hk]
  rfl

theorem taken_update {i n : Nat} {k : String} :
    Taking.Taken need (Function.update σ i n) i k ↔ Taking.Taken need σ i k := by
  refine exists_congr fun j => and_congr_right fun hj => ?_
  rw [Taking.held_update_of_ne hj]

/-- A front that is longer by a free key goes on to where the shorter one goes. -/
theorem goes_of_succ {i n : Nat} {k : String} (hk : (need i)[σ i]? = some k)
    (hfree : ¬ Taking.Taken need σ i k)
    (h : Taking.Goes need (Function.update σ i (σ i + 1)) i n) : Taking.Goes need σ i n := by
  have hle := h.le
  rw [Function.update_self] at hle
  refine ⟨by omega, h.le_length, fun m hm hlt k' hk' => ?_, fun k' hk' =>
    taken_update.mp (h.stop k' hk')⟩
  rcases Nat.eq_or_lt_of_le hm with rfl | hm
  · rw [hk] at hk'
    obtain rfl := Option.some.inj hk'
    exact hfree
  · refine mt taken_update.mpr (h.free m ?_ hlt k' hk')
    rw [Function.update_self]
    exact hm

/-- The keys that the loop gets from the rest `keys` of the list. -/
theorem Tracks.acquireKeys (h : Tracks need db σ) (L : Limits) (owner : String)
    (front : List String) {c : CaseRow} {keys : List String}
    (hneed : need c.id = front ++ keys) (hnodup : (need c.id).Nodup) (hkeys : "" ∉ keys)
    (hfront : front.length ≤ σ c.id) (hle : σ c.id ≤ (need c.id).length) :
    Taking.Goes need σ c.id (front.length + (grantedKeys L owner c keys db).length) ∧
      Tracks need (acquireKeys L owner c keys db).1
        (Function.update σ c.id (front.length + (grantedKeys L owner c keys db).length)) := by
  induction keys generalizing front db σ with
  | nil =>
      have hend : σ c.id = front.length := by
        rw [hneed, List.append_nil] at hle
        exact Nat.le_antisymm hle hfront
      have hlength : (need c.id).length = front.length := by rw [hneed, List.append_nil]
      simp only [grantedKeys, List.length_nil, Nat.add_zero]
      rw [← hend, Function.update_eq_self]
      refine ⟨⟨Nat.le_refl _, hle, fun m hm hlt => by omega, fun k hk => ?_⟩,
        h.congr rfl rfl⟩
      rw [List.getElem?_eq_none (by omega)] at hk
      cases hk
  | cons key keys ih =>
      obtain ⟨hne, hkeys⟩ := List.ne_and_not_mem_of_not_mem_cons hkeys
      have hget : (need c.id)[front.length]? = some key := by
        rw [hneed, List.getElem?_append_right (Nat.le_refl _), Nat.sub_self]
        rfl
      have hrest : need c.id = (front ++ [key]) ++ keys := by
        rw [hneed, List.append_assoc]
        rfl
      have hlt := (List.getElem?_eq_some_iff.mp hget).1
      have hcount : ∀ n, front.length + (n + 1) = (front ++ [key]).length + n := by
        intro n
        rw [List.length_append, List.length_singleton]
        omega
      simp only [grantedKeys, Capacity.acquireKeys]
      rcases Nat.lt_or_eq_of_le hfront with hown | hend
      · -- the case has the key
        have hmem : key ∈ Taking.held need σ c.id := Taking.mem_take_iff.mpr ⟨_, hown, hget⟩
        obtain ⟨hanswer, htracks⟩ := h.acquire_own L owner hmem
        generalize acquire L owner ⟨.resource, c.id, key, none, some 1, false⟩ db = p
          at hanswer htracks
        obtain ⟨db', answer⟩ := p
        obtain rfl : answer = none := hanswer
        dsimp only
        rw [List.length_cons, hcount]
        refine ih htracks _ hrest hkeys ?_ hle
        rw [List.length_append, List.length_singleton]
        exact hown
      · have hget' : (need c.id)[σ c.id]? = some key := by rw [← hend]; exact hget
        have hmem : key ∉ Taking.held need σ c.id := by
          intro hmem
          obtain ⟨m, hm, hm'⟩ := Taking.mem_take_iff.mp hmem
          have hsame : m = σ c.id := (List.getElem?_inj (by omega) hnodup).mp (hm'.trans hget'.symm)
          omega
        by_cases htaken : Taking.Taken need σ c.id key
        · obtain ⟨⟨d, hanswer⟩, htracks⟩ :=
            h.acquire_taken L owner (Ne.symm hne) hmem htaken
          generalize acquire L owner ⟨.resource, c.id, key, none, some 1, false⟩ db = p
            at hanswer htracks
          obtain ⟨db', answer⟩ := p
          obtain rfl : answer = some d := hanswer
          dsimp only
          rw [List.length_nil, Nat.add_zero, hend, Function.update_eq_self]
          refine ⟨⟨Nat.le_refl _, hle, fun m hm hlt => by omega, fun k hk => ?_⟩,
            htracks.congr rfl rfl⟩
          rw [hget'] at hk
          obtain rfl := Option.some.inj hk
          exact htaken
        · obtain ⟨hanswer, htracks⟩ := h.acquire_free L owner
            (Function.update σ c.id (σ c.id + 1)) (Ne.symm hne) hmem htaken
            (fun x => by rw [held_succ hget', List.mem_append, List.mem_singleton])
            fun j hj => Taking.held_update_of_ne hj
          generalize acquire L owner ⟨.resource, c.id, key, none, some 1, false⟩ db = p
            at hanswer htracks
          obtain ⟨db', answer⟩ := p
          obtain rfl : answer = none := hanswer
          dsimp only
          rw [List.length_cons, hcount]
          obtain ⟨hgoes, hfinal⟩ := ih htracks _ hrest hkeys
            (by rw [Function.update_self, List.length_append, List.length_singleton, hend])
            (by rw [Function.update_self]; omega)
          rw [Function.update_idem] at hfinal
          exact ⟨goes_of_succ hget' htaken hgoes, hfinal⟩

/-! ## Every step -/

/-- What is not on a key is appended. -/
theorem Tracks.append (h : Tracks need db σ) {l : Lease} (hl : l.kind ≠ .resource)
    (hleases : db'.leases = db.leases ++ [l]) (hnow : db'.now = db.now) : Tracks need db' σ where
  live x hx hkind hrel := by
    rw [hleases] at hx
    rw [hnow]
    rcases List.mem_append.mp hx with hx | hx
    · exact h.live x hx hkind hrel
    · obtain rfl := List.mem_singleton.mp hx
      exact absurd hkind hl
  keys i k := by
    rw [h.keys, hleases]
    constructor
    · rintro ⟨x, hx, hon⟩
      exact ⟨x, List.mem_append_left _ hx, hon⟩
    · rintro ⟨x, hx, hon⟩
      rcases List.mem_append.mp hx with hx | hx
      · exact ⟨x, hx, hon⟩
      · obtain rfl := List.mem_singleton.mp hx
        exact absurd hon.1 hl

/-- A case gives its keys back. -/
theorem Tracks.drop (h : Tracks need db σ) {i : Nat} {f : Lease → Lease}
    (hleases : db'.leases = db.leases.map f) (hkind : ∀ l, (f l).kind = l.kind)
    (hcase : ∀ l, (f l).caseId = l.caseId)
    (hgone : ∀ l, l.caseId = i → l.kind = .resource → (f l).releasedAt ≠ none)
    (hkept : ∀ l ∈ db.leases, l.caseId ≠ i → l.Spared db'.now (f l)) :
    Tracks need db' (Function.update σ i 0) where
  live l hl hk hrel := by
    rw [hleases] at hl
    obtain ⟨l₀, hl₀, rfl⟩ := List.mem_map.mp hl
    rw [hkind] at hk
    by_cases hi : l₀.caseId = i
    · exact absurd hrel (hgone l₀ hi hk)
    · have hspared := hkept l₀ hl₀ hi
      exact (hspared.key hk (hspared.released hrel)).2
  keys j k := by
    rw [hleases]
    by_cases hj : j = i
    · subst hj
      rw [Taking.held_update_self]
      refine iff_of_false List.not_mem_nil ?_
      rintro ⟨l, hl, hk, -, hcj, hrel⟩
      obtain ⟨l₀, -, rfl⟩ := List.mem_map.mp hl
      rw [hkind] at hk
      rw [hcase] at hcj
      exact hgone l₀ hcj hk hrel
    · rw [Taking.held_update_of_ne hj, h.keys]
      constructor
      · rintro ⟨l, hl, hk, hscope, hcj, hrel⟩
        have hspared := hkept l hl (by rw [hcj]; exact hj)
        exact ⟨f l, List.mem_map_of_mem hl, hspared.kind.trans hk, hspared.scope.trans hscope,
          hspared.caseId.trans hcj, (hspared.key hk hrel).1⟩
      · rintro ⟨l, hl, hk, hscope, hcj, hrel⟩
        obtain ⟨l₀, hl₀, rfl⟩ := List.mem_map.mp hl
        have hspared := hkept l₀ hl₀ (by rw [← hcase, hcj]; exact hj)
        exact ⟨l₀, hl₀, hspared.kind.symm.trans hk, hspared.scope.symm.trans hscope,
          hspared.caseId.symm.trans hcj, hspared.released hrel⟩

/-- An acquisition of a slot leaves the keys alone. -/
theorem Tracks.acquireAt (h : Tracks need db σ) {r : Request} (hr : r.kind ≠ .resource)
    (readAt : Nat) : Tracks need (acquireAt L owner r readAt db).1 σ := by
  have hmatches : ∀ l, r.matches l = true → l.kind ≠ .resource := by
    intro l hl
    simp only [Request.matches, Bool.and_eq_true, decide_eq_true_eq] at hl
    rw [hl.1.1.1]
    exact hr
  have hrec := h.reconcileFinished
  unfold Capacity.acquireAt
  dsimp only
  split
  · refine hrec.map rfl fun l hl => ?_
    split
    · next hcond =>
        exact Lease.spared_of_ne rfl rfl rfl id (hmatches l (Bool.and_eq_true_iff.mp hcond).1)
    · exact hrec.spared hl
  · have hlapsed : Tracks need (db.reconcileFinished.releaseLapsedAt r readAt) σ := by
      refine hrec.map rfl fun l hl => ?_
      split
      · next hcond =>
          exact Lease.spared_of_ne rfl rfl rfl (fun hrel => by cases hrel)
            (hmatches l (Bool.and_eq_true_iff.mp hcond).1)
      · exact hrec.spared hl
    unfold Db.competeAt
    split
    · exact hlapsed
    · exact hlapsed.append hr rfl rfl

theorem Tracks.release (h : Tracks need db σ) {kind : LeaseKind} {scope : Option String}
    (hscope : kind = .resource → scope = none) (i readAt : Nat) :
    ∃ σ', (σ' = σ ∨ Taking.Step need σ σ') ∧ Tracks need (db.release kind i scope readAt) σ' := by
  by_cases hkind : kind = .resource
  · obtain rfl := hscope hkind
    subst hkind
    refine ⟨_, Or.inr (.drop i), h.drop rfl (fun l => ?_) (fun l => ?_) (fun l hi hk hrel => ?_)
      fun l hl hi => ?_⟩
    · split <;> rfl
    · split <;> rfl
    · split at hrel
      · cases hrel
      · next hcond => simp [hi, hk, hrel] at hcond
    · rw [if_neg (by simp [hi])]
      exact h.spared hl
  · refine ⟨σ, Or.inl rfl, h.map rfl fun l hl => ?_⟩
    split
    · next hcond =>
        simp only [Bool.and_eq_true, decide_eq_true_eq] at hcond
        refine Lease.spared_of_ne rfl rfl rfl (fun hrel => by cases hrel) ?_
        rw [hcond.1.1.1]
        exact hkind
    · exact h.spared hl

theorem Tracks.releaseAll (h : Tracks need db σ) (i readAt : Nat) :
    Tracks need (db.releaseAllForCase i readAt) (Function.update σ i 0) := by
  refine h.drop rfl (fun l => ?_) (fun l => ?_) (fun l hi _ hrel => ?_) fun l hl hi => ?_
  · split <;> rfl
  · split <;> rfl
  · split at hrel
    · cases hrel
    · next hcond => simp [hi, hrel] at hcond
  · rw [if_neg (by simp [hi])]
    exact h.spared hl

theorem nodup_eraseDups (keys : List String) : keys.eraseDups.Nodup := by
  induction hn : keys.length using Nat.strong_induction_on generalizing keys with
  | _ n ih =>
      cases keys with
      | nil => exact List.nodup_nil
      | cons key keys =>
          have hlt : (keys.filter fun k => !k == key).length < n := by
            rw [← hn]
            exact Nat.lt_succ_of_le (List.length_filter_le _ _)
          rw [List.eraseDups_cons]
          refine List.nodup_cons.mpr ⟨fun hmem => ?_, ih _ hlt _ rfl⟩
          have hkept := (List.mem_filter.mp (List.mem_eraseDups.mp hmem)).2
          simp at hkept

/-- What the loop gets for a case of the table. -/
theorem Tracks.session (h : Tracks need db σ) (L : Limits) (owner : String)
    (hσ : Taking.Plausible need σ) (hdecl : Declared need db.cases) {c : CaseRow}
    (hc : c ∈ db.cases) {keys : List String}
    (hkeys : c.sessionKeys = some keys) :
    Taking.Goes need σ c.id (grantedKeys L owner c keys.eraseDups db).length ∧
      Tracks need (acquireResourceKeys L owner keys c db).1
        (Function.update σ c.id (grantedKeys L owner c keys.eraseDups db).length) := by
  obtain ⟨hneed, hne⟩ := hdecl c hc keys hkeys
  have hloop := h.acquireKeys L owner [] hneed.symm
    (by rw [← hneed]; exact nodup_eraseDups keys) (fun hmem => hne (List.mem_eraseDups.mp hmem))
    (Nat.zero_le _) (hσ.le_length c.id)
  rw [List.length_nil, Nat.zero_add] at hloop
  exact hloop

/-- **A step of the workers is one of the agents**, or none. -/
theorem Tracks.step (h : Tracks need db σ) (hσ : Taking.Plausible need σ)
    (hdecl : Declared need db.cases) {x : KeyStep} (hcalled : x.Called)
    (hkeeps : x.Keeps L db) :
    ∃ σ', (σ' = σ ∨ Taking.Step need σ σ') ∧ Tracks need (x.apply L db) σ' := by
  cases x with
  | process owner id =>
      simp only [KeyStep.apply, takeKeys]
      split
      · next c hc =>
          split
          · next keys hkeys =>
              obtain ⟨hgoes, htracks⟩ :=
                h.session L owner hσ hdecl (List.mem_of_find?_eq_some hc) hkeys
              exact ⟨_, Or.inr (.take hgoes), htracks⟩
          · exact ⟨σ, Or.inl rfl, h⟩
      · exact ⟨σ, Or.inl rfl, h⟩
  | lease op =>
      cases op with
      | acquire owner r readAt => exact ⟨σ, Or.inl rfl, h.acquireAt hcalled readAt⟩
      | release kind i scope readAt => exact h.release hcalled i readAt
      | releaseAllForCase i readAt => exact ⟨_, Or.inr (.drop i), h.releaseAll i readAt⟩
      | heartbeat owner ids readAt =>
          refine ⟨σ, Or.inl rfl, h.map rfl fun l hl => ?_⟩
          split
          · exact ⟨rfl, rfl, rfl, id, fun hkind hrel =>
              ⟨hrel, hkeeps, (h.live l hl hkind hrel).2⟩⟩
          · exact h.spared hl
      | expireStale readAt =>
          refine ⟨σ, Or.inl rfl, h.map rfl fun l hl => ?_⟩
          split
          · next hcond =>
              simp only [Bool.and_eq_true, decide_eq_true_eq] at hcond
              refine ⟨rfl, rfl, rfl, fun hrel => (by cases hrel), fun hkind hrel => ?_⟩
              have hlive := (h.live l hl hkind hrel).1
              have hread : readAt ≤ db.now := hkeeps
              omega
          · exact h.spared hl
      | reconcileFinished => exact ⟨σ, Or.inl rfl, h.reconcileFinished⟩
      | tick seconds =>
          refine ⟨σ, Or.inl rfl, h.map (List.map_id _).symm fun l hl => ?_⟩
          exact .refl fun hkind hrel => ⟨hkeeps l hl hkind hrel, (h.live l hl hkind hrel).2⟩
      | rows cases finished => exact ⟨σ, Or.inl rfl, h.congr rfl rfl⟩

theorem declared_updateCase (h : Declared need db.cases) (id : Nat) {f : CaseRow → CaseRow}
    (hf : ∀ c : CaseRow, { f c with id := c.id }.sessionKeys = c.sessionKeys) :
    Declared need (db.updateCase id f).cases := by
  intro x hx keys hkeys
  obtain ⟨y, hy, rfl⟩ := List.mem_map.mp hx
  split at hkeys
  · next hid =>
      rw [if_pos hid]
      exact h y hy keys ((hf y).symm.trans hkeys)
  · next hid =>
      rw [if_neg hid]
      exact h y hy keys hkeys

theorem declared_acquireKeys {c : CaseRow} (keys : List String) (h : Declared need db.cases) :
    Declared need (acquireKeys L owner c keys db).1.cases := by
  induction keys generalizing db with
  | nil => exact declared_updateCase h _ fun _ => rfl
  | cons key keys ih =>
      have hcases := acquire_cases L owner ⟨.resource, c.id, key, none, some 1, false⟩ db
      simp only [acquireKeys]
      generalize acquire L owner ⟨.resource, c.id, key, none, some 1, false⟩ db = p at hcases ⊢
      obtain ⟨db', answer⟩ := p
      have h : Declared need db'.cases := by
        rw [hcases]
        exact h
      cases answer with
      | some d => exact declared_updateCase h _ fun _ => rfl
      | none => exact ih h

theorem declared_step (h : Declared need db.cases) {x : KeyStep} (hx : x.Declares need) :
    Declared need (x.apply L db).cases := by
  cases x with
  | process owner id =>
      simp only [KeyStep.apply, takeKeys]
      split
      · split
        · exact declared_acquireKeys _ h
        · exact h
      · exact h
  | lease op =>
      cases op with
      | rows cases finished => exact hx
      | acquire owner r readAt =>
          have hcases : (acquireAt L owner r readAt db).1.cases = db.cases := by
            simp only [acquireAt, Db.competeAt]
            split
            · rfl
            · split <;> rfl
          show Declared need (acquireAt L owner r readAt db).1.cases
          rw [hcases]
          exact h
      | release kind caseId scope readAt => exact h
      | releaseAllForCase caseId readAt => exact h
      | heartbeat owner caseIds readAt => exact h
      | expireStale readAt => exact h
      | reconcileFinished => exact h
      | tick seconds => exact h

/-- Every run without a lapse is one of the agents. -/
theorem tracks_of_reaches {db₀ : Db} (hdecl : Declared need db₀.cases)
    (hnone : ∀ l ∈ db₀.leases, l.kind = .resource → l.releasedAt ≠ none)
    (h : KeyReaches L (Steady need L) db₀ db) :
    Declared need db.cases ∧ ∃ σ, Taking.Reachable need σ ∧ Tracks need db σ := by
  induction h with
  | init =>
      refine ⟨hdecl, _, .init, ⟨fun l hl hkind hrel => absurd hrel (hnone l hl hkind),
        fun i k => iff_of_false List.not_mem_nil ?_⟩⟩
      rintro ⟨l, hl, hkind, -, -, hrel⟩
      exact hnone l hl hkind hrel
  | step x _ hcalled hsteady ih =>
      obtain ⟨hdecl, σ, hσ, htracks⟩ := ih
      obtain ⟨σ', hstep, htracks'⟩ :=
        htracks.step (Taking.plausible_of_reachable hσ) hdecl hcalled hsteady.keeps
      refine ⟨declared_step hdecl hsteady.declares, σ', ?_, htracks'⟩
      rcases hstep with rfl | hstep
      · exact hσ
      · exact hσ.step hstep

/-- A case that waits for another one is an agent that does. -/
theorem waits_of_waitsOn (h : Tracks need db σ) (hσ : Taking.Plausible need σ)
    (hdecl : Declared need db.cases) {owner : Nat → String} {a b : CaseRow}
    (hwaits : WaitsOn L owner db a b) : Taking.Waits need σ a.id b.id := by
  obtain ⟨renewed, key, -, -, ⟨hrow, keys, hkeys, -, d, hd, rfl⟩, -, hholds, -⟩ := hwaits
  obtain ⟨rest, hrest⟩ := refused_after_granted hd
  obtain ⟨hgoes, -⟩ := h.session L (owner a.id) hσ hdecl hrow hkeys
  have hnext : (need a.id)[(grantedKeys L (owner a.id) a keys.eraseDups db).length]? =
      some d.scope := by
    rw [← (hdecl a hrow keys hkeys).1]
    refine (congrArg (fun ks : List String => ks[_]?) hrest).trans ?_
    rw [List.getElem?_append_right (Nat.le_refl _), Nat.sub_self]
    rfl
  have hheld : d.scope ∈ Taking.held need σ b.id := (h.slots b.id d.scope).mp hholds
  refine ⟨_, d.scope, hgoes, hnext, ?_, hheld⟩
  obtain ⟨j, hj, hheldj⟩ := hgoes.stop d.scope hnext
  intro heq
  rw [heq] at hheld
  exact hσ.apart j a.id hj hheldj hheld

end Tracking

section Deadlocks

variable {L : Limits} {need : Nat → List String} {db₀ db : Db}

theorem no_deadlock_of_untangled (hneed : ¬ Taking.Tangled need)
    (hdecl : Declared need db₀.cases)
    (hnone : ∀ l ∈ db₀.leases, l.kind = .resource → l.releasedAt ≠ none)
    (h : KeyReaches L (Steady need L) db₀ db) : ¬ Deadlock L db := by
  rintro ⟨owner, c, hring⟩
  obtain ⟨hdecl, σ, hσ, htracks⟩ := tracks_of_reaches hdecl hnone h
  refine Taking.no_deadlock_of_not_tangled hneed hσ ⟨c.id, ?_⟩
  exact hring.lift CaseRow.id fun a b hwaits =>
    waits_of_waitsOn htracks (Taking.plausible_of_reachable hσ) hdecl hwaits

/-! ## Tangled manifests -/

/-- The keys of the first row of the case, if it asks for any. -/
def Db.keysOf (db : Db) (i : Nat) : Option (List String) := (db.case? i).bind CaseRow.sessionKeys

theorem keysOf_updateCase (db : Db) (id : Nat) {f : CaseRow → CaseRow}
    (hf : ∀ c : CaseRow, { f c with id := c.id }.sessionKeys = c.sessionKeys) (i : Nat) :
    (db.updateCase id f).keysOf i = db.keysOf i := by
  have hsame : ∀ c : CaseRow, (if c.id = id then { f c with id := c.id } else c).id = c.id := by
    intro c
    split <;> rfl
  have hcomp : (fun c : CaseRow => c.id == i) ∘
      (fun c => if c.id = id then { f c with id := c.id } else c) = fun c => c.id == i := by
    funext c
    simp only [Function.comp_apply, hsame]
  simp only [Db.keysOf, Db.case?, Db.updateCase, List.find?_map, hcomp, Option.bind_map]
  refine congrArg _ (funext fun c => ?_)
  simp only [Function.comp_apply]
  split
  · exact hf c
  · rfl

theorem keysOf_markWaiting (db : Db) (id : Nat) (d : Denied) (i : Nat) :
    (markWaiting db id d).keysOf i = db.keysOf i := by
  unfold markWaiting
  refine keysOf_updateCase db id ?_ i
  exact fun _ => rfl

theorem keysOf_clearWaiting (db : Db) (id i : Nat) :
    (clearWaiting db id).keysOf i = db.keysOf i := by
  unfold clearWaiting
  refine keysOf_updateCase db id ?_ i
  exact fun _ => rfl

theorem keysOf_acquireKeys {owner : String} {c : CaseRow} (keys : List String) (i : Nat) :
    (acquireKeys L owner c keys db).1.keysOf i = db.keysOf i := by
  induction keys generalizing db with
  | nil => exact keysOf_clearWaiting db c.id i
  | cons key keys ih =>
      have hcases := acquire_cases L owner ⟨.resource, c.id, key, none, some 1, false⟩ db
      simp only [acquireKeys]
      generalize acquire L owner ⟨.resource, c.id, key, none, some 1, false⟩ db = p at hcases ⊢
      obtain ⟨db', answer⟩ := p
      have hsame : db'.keysOf i = db.keysOf i := by
        unfold Db.keysOf Db.case?
        rw [hcases]
      rw [← hsame]
      cases answer with
      | some d => exact keysOf_markWaiting db' c.id d i
      | none => exact ih

/-- Who needs keys asks for them. -/
def Posted (need : Nat → List String) (db : Db) : Prop :=
  ∀ i, need i ≠ [] → ∃ keys, db.keysOf i = some keys

/-- Every run of the agents is one without a lapse. -/
theorem reaches_of_reachable (hdecl : Declared need db₀.cases) (hposted : Posted need db₀)
    (hnone : ∀ l ∈ db₀.leases, l.kind = .resource → l.releasedAt ≠ none) {σ : Nat → Nat}
    (h : Taking.Reachable need σ) :
    ∃ db, KeyReaches L (Steady need L) db₀ db ∧ Posted need db ∧ Tracks need db σ := by
  induction h with
  | init =>
      refine ⟨db₀, .init, hposted, ⟨fun l hl hkind hrel => absurd hrel (hnone l hl hkind),
        fun i k => iff_of_false List.not_mem_nil ?_⟩⟩
      rintro ⟨l, hl, hkind, -, -, hrel⟩
      exact hnone l hl hkind hrel
  | @step σ σ' hσ hstep ih =>
      obtain ⟨db, hreaches, hposted, htracks⟩ := ih
      have hplausible := Taking.plausible_of_reachable hσ
      obtain ⟨hdecl, -⟩ := tracks_of_reaches hdecl hnone hreaches
      cases hstep with
      | @take i n hgoes =>
          by_cases hi : need i = []
          · have hzero : n = σ i := by
              have hle := hgoes.le
              have hlength := hgoes.le_length
              rw [hi] at hlength
              have : n ≤ 0 := hlength
              omega
            rw [hzero, Function.update_eq_self]
            exact ⟨db, hreaches, hposted, htracks⟩
          · obtain ⟨keys, hkeys⟩ := hposted i hi
            obtain ⟨c, hc, hsession⟩ := Option.bind_eq_some_iff.mp hkeys
            have hid : c.id = i := by simpa using List.find?_some hc
            subst hid
            obtain ⟨hgoes', htracks'⟩ := htracks.session L "worker" hplausible hdecl
              (List.mem_of_find?_eq_some hc) hsession
            rw [← hgoes.unique hgoes'] at htracks'
            have happly : (KeyStep.process "worker" c.id).apply L db =
                (acquireResourceKeys L "worker" keys c db).1 := by
              simp only [KeyStep.apply, takeKeys, hc, hsession]
            refine ⟨_, hreaches.step (.process "worker" c.id) trivial ⟨trivial, trivial⟩, ?_, ?_⟩
            · intro j hj
              rw [happly]
              exact (keysOf_acquireKeys _ j).symm ▸ hposted j hj
            · rw [happly]
              exact htracks'
      | drop i =>
          exact ⟨_, hreaches.step (.lease (.releaseAllForCase i 0)) trivial ⟨trivial, trivial⟩,
            hposted, htracks.releaseAll i 0⟩

/-- A loop that is not refused gets every key. -/
theorem granted_all {owner : String} {c : CaseRow} {keys : List String}
    (h : (acquireKeys L owner c keys db).2 = none) : grantedKeys L owner c keys db = keys := by
  induction keys generalizing db with
  | nil => rfl
  | cons key keys ih =>
      simp only [acquireKeys, grantedKeys] at h ⊢
      generalize acquire L owner ⟨.resource, c.id, key, none, some 1, false⟩ db = p at h ⊢
      obtain ⟨db', answer⟩ := p
      cases answer with
      | some d => cases h
      | none => exact congrArg _ (ih h)

/-- The row of a case, if it has one. -/
def Db.rowOf (db : Db) (i : Nat) : CaseRow :=
  (db.case? i).getD ⟨i, "", .received, none, none, false, false, .refused, false⟩

theorem Posted.row (h : Posted need db) {i : Nat} (hi : need i ≠ []) :
    db.rowOf i ∈ db.cases ∧ (db.rowOf i).id = i ∧ ∃ keys, (db.rowOf i).sessionKeys = some keys := by
  obtain ⟨keys, hkeys⟩ := h i hi
  obtain ⟨c, hc, hsession⟩ := Option.bind_eq_some_iff.mp hkeys
  have hrow : db.rowOf i = c := by
    unfold Db.rowOf
    rw [hc]
    rfl
  rw [hrow]
  exact ⟨List.mem_of_find?_eq_some hc, by simpa using List.find?_some hc, keys, hsession⟩

section Retried

variable {σ : Nat → Nat} (h : Tracks need db σ) (hσ : Taking.Plausible need σ)
  (hdecl : Declared need db.cases) (hposted : Posted need db)
include h hσ hdecl hposted

/-- An agent that would be stopped is a case that is refused there, and renews what comes before. -/
theorem retries_of_goes (owner : String) {i n : Nat} {k : String}
    (hgoes : Taking.Goes need σ i n) (hk : (need i)[n]? = some k) :
    Retries L owner db (db.rowOf i) ((need i).take n) k ∧ (db.rowOf i).id = i := by
  have hi : need i ≠ [] := by
    intro hnil
    rw [hnil] at hk
    cases hk
  obtain ⟨hrow, hid, keys, hkeys⟩ := hposted.row hi
  have hneed := (hdecl _ hrow keys hkeys).1
  obtain ⟨hgoes', -⟩ := h.session L owner hσ hdecl hrow hkeys
  rw [hid] at hneed hgoes'
  have hn := hgoes.unique hgoes'
  have hlt := (List.getElem?_eq_some_iff.mp hk).1
  cases hanswer : (acquireResourceKeys L owner keys (db.rowOf i) db).2 with
  | none =>
      rw [granted_all hanswer, hneed] at hn
      omega
  | some d =>
      obtain ⟨rest, hrest⟩ := refused_after_granted hanswer
      have htake : (need i).take n = grantedKeys L owner (db.rowOf i) keys.eraseDups db := by
        refine (congrArg (List.take n) (hneed.symm.trans hrest)).trans ?_
        rw [hn, List.take_left]
      have hscope : some d.scope = some k := by
        refine Eq.trans ?_ (Eq.trans (congrArg (fun ks : List String => ks[n]?)
          (hrest.symm.trans hneed)) hk)
        rw [hn, List.getElem?_append_right (Nat.le_refl _), Nat.sub_self]
        rfl
      exact ⟨⟨hrow, keys, hkeys, htake, d, hanswer, Option.some.inj hscope⟩, hid⟩

theorem waitsOn_of_waits (owner : Nat → String) {i j : Nat}
    (hwaits : Taking.Waits need σ i j ∧ ∃ l, Taking.Waits need σ j l) :
    WaitsOn L owner db (db.rowOf i) (db.rowOf j) := by
  obtain ⟨⟨n, k, hgoes, hk, -, hheld⟩, l, n', k', hgoes', hk', -, -⟩ := hwaits
  obtain ⟨hretries, hid⟩ := retries_of_goes (L := L) h hσ hdecl hposted (owner (db.rowOf i).id)
    hgoes hk
  obtain ⟨hretries', hid'⟩ := retries_of_goes (L := L) h hσ hdecl hposted
    (owner (db.rowOf j).id) hgoes' hk'
  refine ⟨_, k, _, k', hretries, hretries', ?_, ?_⟩
  · unfold Db.holdsKey
    rw [hid']
    exact (h.slots j k).mpr hheld
  · obtain ⟨m, hm, hget⟩ := Taking.mem_take_iff.mp hheld
    exact Taking.mem_take_iff.mpr ⟨m, Nat.lt_of_lt_of_le hm hgoes'.le, hget⟩

end Retried

/-- **Tangled manifests deadlock**: some run without a lapse ends in a ring of cases that wait for
each other. -/
theorem deadlock_of_tangled (hneed : Taking.Tangled need) (hdecl : Declared need db₀.cases)
    (hposted : Posted need db₀)
    (hnone : ∀ l ∈ db₀.leases, l.kind = .resource → l.releasedAt ≠ none) :
    ∃ db, KeyReaches L (Steady need L) db₀ db ∧ Deadlock L db := by
  obtain ⟨σ, hσ, i, hring⟩ := Taking.deadlock_of_tangled hneed
  obtain ⟨db, hreaches, hposted, htracks⟩ := reaches_of_reachable (L := L) hdecl hposted hnone hσ
  obtain ⟨hdecl, -⟩ := tracks_of_reaches hdecl hnone hreaches
  refine ⟨db, hreaches, fun _ => "worker", db.rowOf i, ?_⟩
  exact (Taking.ring_followed hring).lift db.rowOf fun a b hwaits =>
    waitsOn_of_waits htracks (Taking.plausible_of_reachable hσ) hdecl hposted _ hwaits

end Deadlocks

/-! ## Runs that cannot deadlock -/

/-- The runs from `db₀` to `db` in which one order of the keys agrees with every manifest, whatever
leases lapse, or in which no lease on a key lapses and each case keeps its manifest, and these are
not tangled. -/
inductive Agreed (L : Limits) (db₀ db : Db) : Prop
  | ordered (rank : String → Nat) : KeysOrdered rank db₀.cases →
      KeyReaches L (fun _ x => x.Ordered rank) db₀ db → Agreed L db₀ db
  | untangled (need : Nat → List String) : ¬ Taking.Tangled need → Declared need db₀.cases →
      (∀ l ∈ db₀.leases, l.kind = .resource → l.releasedAt ≠ none) →
      KeyReaches L (Steady need L) db₀ db → Agreed L db₀ db

/-- **No run deadlocks** whose manifests agree on one order, or are not tangled while no lease
lapses. -/
theorem no_deadlock_of_agreed {L : Limits} {db₀ db : Db} (h : Agreed L db₀ db) :
    ¬ Deadlock L db := by
  cases h with
  | ordered rank h₀ h => exact no_deadlock_of_ordered rank h₀ h
  | untangled need hneed hdecl hnone h => exact no_deadlock_of_untangled hneed hdecl hnone h

/-! ## Two and three cases -/

/-- A case that is about to run its remediation session. -/
def keyCase (id : Nat) (keys : List String) : CaseRow :=
  ⟨id, "apache/superset", .remediationCreateIntent, none, none, true, false, .withProbe keys, true⟩

/-- The third case takes the lockfile, the first takes the migrations and is refused the
lockfile, the third releases its key, and the second case comes. -/
def threeCases (keys : List String) : List KeyStep :=
  [.lease (.rows [keyCase 1 ["migrations", "lockfile"], keyCase 2 keys, keyCase 3 ["lockfile"]] []),
    .process "a" 3, .process "b" 1, .lease (.release .resource 3 none 0), .process "c" 2]

/-- Two cases that declare their keys in different orders, one after the other. -/
def twoCases : List KeyStep :=
  [.lease (.rows [keyCase 1 ["migrations", "lockfile"], keyCase 2 ["lockfile", "migrations"]] []),
    .process "a" 1, .process "b" 2]

theorem reaches_foldl {L : Limits} {ok : Db → KeyStep → Prop} {db₀ db : Db} (xs : List KeyStep)
    (hok : ∀ db, ∀ x ∈ xs, x.Called ∧ ok db x) (h : KeyReaches L ok db₀ db) :
    KeyReaches L ok db₀ (xs.foldl (KeyStep.apply L) db) := by
  induction xs generalizing db with
  | nil => exact h
  | cons x xs ih =>
      obtain ⟨hcalled, hx⟩ := hok db x List.mem_cons_self
      exact ih (fun db y hy => hok db y (List.mem_cons_of_mem _ hy)) (h.step x hcalled hx)

/-- The migrations first, and then the lockfile. -/
def demoRank (key : String) : Nat := if key = "migrations" then 0 else 1

/-- What the two cases need. -/
def twoNeeds : Nat → List String
  | 1 => ["migrations", "lockfile"]
  | 2 => ["lockfile", "migrations"]
  | _ => []

/-- Of two cases, the one that takes a key first gets both. -/
theorem twoNeeds_not_tangled : ¬ Taking.Tangled twoNeeds := by
  have hsame : ∀ {i j : Nat} {x k : String}, j ≠ i → x ∈ twoNeeds i → k ∈ twoNeeds j →
      x ∈ twoNeeds j := by
    intro i j x k hne hx hk
    match i, j with
    | 1, 2 => simpa [twoNeeds, or_comm] using hx
    | 2, 1 => simpa [twoNeeds, or_comm] using hx
    | 1, 1 | 2, 2 => exact absurd rfl hne
    | 0, _ | _ + 3, _ => cases hx
    | 1, 0 | 2, 0 | 1, _ + 3 | 2, _ + 3 => cases hk
  refine Taking.not_tangled_of_whole fun i n h => ?_
  induction h with
  | full i => exact Or.inr rfl
  | @stop i j m n k hne hk _ hmem hdisjoint ih =>
      refine Or.inl ?_
      have hwhole : n = (twoNeeds j).length := by
        refine ih.resolve_left ?_
        rintro rfl
        cases hmem
      rw [hwhole, List.take_length] at hmem hdisjoint
      by_contra hm
      -- the first key of the front is needed by the other case, too
      have hlt := (List.getElem?_eq_some_iff.mp hk).1
      obtain ⟨x, hx⟩ : ∃ x, (twoNeeds i)[0]? = some x :=
        ⟨_, List.getElem?_eq_getElem (by omega)⟩
      have hfirst : x ∈ (twoNeeds i).take m := Taking.mem_take_iff.mpr ⟨0, by omega, hx⟩
      exact hdisjoint hfirst (hsame hne (List.mem_of_getElem? hx) hmem)

theorem no_deadlock_of_agreed_demo :
    ¬ Deadlock oneSlot ((threeCases ["migrations", "lockfile"]).foldl (KeyStep.apply oneSlot)
      emptyDb) ∧ ¬ Deadlock oneSlot (twoCases.foldl (KeyStep.apply oneSlot) emptyDb) := by
  constructor
  · refine no_deadlock_of_agreed (.ordered demoRank (fun c hc => absurd hc List.not_mem_nil)
      (reaches_foldl _ (fun _ x hx => ?_) .init))
    simp only [threeCases, List.mem_cons, List.not_mem_nil, or_false] at hx
    rcases hx with rfl | rfl | rfl | rfl | rfl
    · refine ⟨trivial, fun c hc keys hkeys => ?_⟩
      simp only [List.mem_cons, List.not_mem_nil, or_false] at hc
      rcases hc with rfl | rfl | rfl <;> cases hkeys <;> decide
    · exact ⟨trivial, trivial⟩
    · exact ⟨trivial, trivial⟩
    · exact ⟨fun _ => rfl, trivial⟩
    · exact ⟨trivial, trivial⟩
  · refine no_deadlock_of_agreed (.untangled twoNeeds twoNeeds_not_tangled
      (fun c hc => absurd hc List.not_mem_nil) (fun l hl => absurd hl List.not_mem_nil)
      (reaches_foldl _ (fun _ x hx => ?_) .init))
    simp only [twoCases, List.mem_cons, List.not_mem_nil, or_false] at hx
    rcases hx with rfl | rfl | rfl
    · refine ⟨trivial, fun c hc keys hkeys => ?_, trivial⟩
      simp only [List.mem_cons, List.not_mem_nil, or_false] at hc
      rcases hc with rfl | rfl <;> cases hkeys <;> decide
    · exact ⟨trivial, trivial, trivial⟩
    · exact ⟨trivial, trivial, trivial⟩

/-- When the second case declares its keys the other way round, it takes the lockfile and waits
for the migrations, and the first case keeps the migrations and waits for the lockfile. -/
theorem keys_deadlock : ∃ db, KeyReaches oneSlot (fun _ _ => True) emptyDb db ∧
    Deadlock oneSlot db := by
  have hcalled : ∀ x ∈ threeCases ["lockfile", "migrations"], x.Called := by
    intro x hx
    simp only [threeCases, List.mem_cons, List.not_mem_nil, or_false] at hx
    rcases hx with rfl | rfl | rfl | rfl | rfl <;> first | trivial | exact fun _ => rfl
  refine ⟨_, reaches_foldl _ (fun _ x hx => ⟨hcalled x hx, trivial⟩) .init, fun _ => "a", ?_⟩
  let c₁ : CaseRow := { keyCase 1 ["migrations", "lockfile"] with
    waitingFor := some "RESOURCE:lockfile (1/1)", waitingSince := some 0 }
  let c₂ : CaseRow := { keyCase 2 ["lockfile", "migrations"] with
    waitingFor := some "RESOURCE:migrations (1/1)", waitingSince := some 0 }
  generalize hdb : (threeCases ["lockfile", "migrations"]).foldl (KeyStep.apply oneSlot) emptyDb = db
  have h₁ : Retries oneSlot "a" db c₁ ["migrations"] "lockfile" := by
    subst hdb
    exact ⟨by decide, ["migrations", "lockfile"], rfl, by decide +kernel,
      ⟨.resource, "lockfile", 1, 1, 0⟩, by decide +kernel, rfl⟩
  have h₂ : Retries oneSlot "a" db c₂ ["lockfile"] "migrations" := by
    subst hdb
    exact ⟨by decide, ["lockfile", "migrations"], rfl, by decide +kernel,
      ⟨.resource, "migrations", 1, 1, 0⟩, by decide +kernel, rfl⟩
  have h₁₂ : WaitsOn oneSlot (fun _ => "a") db c₁ c₂ := by
    refine ⟨_, _, _, _, h₁, h₂, ?_, List.mem_cons_self⟩
    subst hdb
    simp only [Db.holdsKey]
    decide +kernel
  have h₂₁ : WaitsOn oneSlot (fun _ => "a") db c₂ c₁ := by
    refine ⟨_, _, _, _, h₂, h₁, ?_, List.mem_cons_self⟩
    subst hdb
    simp only [Db.holdsKey]
    decide +kernel
  exact ⟨c₁, (Relation.TransGen.single h₁₂).tail h₂₁⟩

end Remediator.Capacity
