import Remediator.Clients.Pages
import Remediator.Lib.Text

set_option autoImplicit false

/-! # Operation keys

`remediator/devin/tags.py`, and the request that the runner sends with them. The key of an attempt
is the one thing that connects it with its session while the answer to the create is unknown: the
reconciliation adopts, and a termination deletes, what `find_sessions_by_tag` finds under it.
-/

namespace Remediator.Clients.Tags

open Json Paging

/-! ## Case ids -/

/-- `uuid.UUID`: an integer of 128 bits. -/
structure Uuid where
  int : Nat
  isLt : int < 2 ^ 128
  deriving DecidableEq

/-- `hex[:8]-hex[8:12]-hex[12:16]-hex[16:20]-hex[20:]`. -/
def dashed (hex : Text) : Text :=
  hex.take 8 ++ '-' :: ((hex.drop 8).take 4 ++ '-' :: ((hex.drop 12).take 4 ++
    '-' :: ((hex.drop 16).take 4 ++ '-' :: hex.drop 20)))

/-- `str(uuid)`. -/
def Uuid.text (u : Uuid) : Text := dashed (Text.hex 32 u.int)

theorem dashed_length {hex : Text} (h : hex.length = 32) : (dashed hex).length = 36 := by
  unfold dashed
  simp only [List.length_append, List.length_cons, List.length_take, List.length_drop, h]
  omega

theorem dashed_inj {s t : Text} (hs : s.length = 32) (ht : t.length = 32)
    (h : dashed s = dashed t) : s = t := by
  have htake : ∀ k, ((s.drop k).take 4).length = ((t.drop k).take 4).length := by
    intro k
    simp only [List.length_take, List.length_drop, hs, ht]
  unfold dashed at h
  obtain ⟨h0, h⟩ := List.append_inj h (by rw [List.length_take, List.length_take, hs, ht])
  obtain ⟨h8, h⟩ := List.append_inj (List.cons.inj h).2 (htake 8)
  obtain ⟨h12, h⟩ := List.append_inj (List.cons.inj h).2 (htake 12)
  obtain ⟨h16, h⟩ := List.append_inj (List.cons.inj h).2 (htake 16)
  have h20 := (List.cons.inj h).2
  have hjoin : ∀ hex : Text, hex = hex.take 8 ++ ((hex.drop 8).take 4 ++ ((hex.drop 12).take 4 ++
      ((hex.drop 16).take 4 ++ hex.drop 20))) := by
    intro hex
    have hpart : ∀ k, (hex.drop k).take 4 ++ hex.drop (k + 4) = hex.drop k := fun k => by
      rw [← List.drop_drop, List.take_append_drop]
    rw [hpart 16, hpart 12, hpart 8, List.take_append_drop]
  rw [hjoin s, hjoin t, h0, h8, h12, h16, h20]

theorem Uuid.text_length (u : Uuid) : u.text.length = 36 := dashed_length (Text.hex_length 32 u.int)

/-- Different ids have different texts. -/
theorem Uuid.text_inj {u v : Uuid} (h : u.text = v.text) : u = v := by
  have hhex := dashed_inj (Text.hex_length 32 u.int) (Text.hex_length 32 v.int) h
  have hint := Text.hex_inj (w := 32) u.isLt v.isLt hhex
  cases u
  cases v
  exact (Uuid.mk.injEq _ _ _ _).mpr hint

/-! ## Keys and tags -/

/-- `str(n)`. -/
def decimal (n : Nat) : Text := (toString n).toList

theorem decimal_inj {m n : Nat} (h : decimal m = decimal n) : m = n := by
  have hdigits : ∀ k, decimal k = Nat.toDigits 10 k := fun k => Nat.toList_repr
  rw [hdigits, hdigits] at h
  rw [← Nat.ofDigitChars_ten_toDigits (n := m), h, Nat.ofDigitChars_ten_toDigits]

/-- `SYSTEM_TAG`. -/
def systemTag : Text := "superset-devin-remediator".toList

/-- `OPERATION_TAG_PREFIX`. -/
def operationTagPrefix : Text := "op:".toList

/-- `operation_key`. -/
def operationKey (caseId kind : Text) (ordinal : Nat) : Text :=
  operationTagPrefix ++ caseId ++ ":".toList ++ kind ++ ":".toList ++ decimal ordinal

/-- `remediation_operation_key`; `none` is its `ValueError`. -/
def remediationOperationKey (caseId triageResultHash baseSha : Text) (ordinal : Nat) :
    Option Text :=
  if triageResultHash.length ≠ 64 ∨ baseSha.length ≠ 40 then none
  else some (operationTagPrefix ++ caseId ++ ":REMEDIATION:".toList ++ triageResultHash ++
    ":".toList ++ baseSha ++ ":".toList ++ decimal ordinal)

/-- `correlation_tags`. -/
def correlationTags (repository : Text) (issueNumber : Int) (kind caseId attemptId : Text) :
    List Text :=
  [systemTag, "repo:".toList ++ repository, "issue:".toList ++ (toString issueNumber).toList,
    "kind:".toList ++ kind, "case:".toList ++ caseId, "attempt:".toList ++ attemptId]

/-- `CreateSessionRequest`. -/
structure CreateSessionRequest where
  prompt : Text
  repository : Text
  baseSha : Text
  maxAcuLimit : Nat
  operationKey : Text
  tags : List Text
  structuredOutputSchema : Value
  title : Option Text := none

/-- `if tag not in ordered: ordered.append(tag)`. -/
def addTag (ordered : List Text) (tag : Text) : List Text :=
  if tag ∈ ordered then ordered else ordered ++ [tag]

/-- `all_tags`. -/
def CreateSessionRequest.allTags (request : CreateSessionRequest) : List Text :=
  request.tags.foldl addTag [request.operationKey]

theorem mem_addTag {ordered : List Text} {tag t : Text} :
    t ∈ addTag ordered tag ↔ t ∈ ordered ∨ t = tag := by
  unfold addTag
  split_ifs with h
  · constructor
    · exact Or.inl
    · rintro (ht | rfl)
      · exact ht
      · exact h
  · rw [List.mem_append, List.mem_singleton]

theorem mem_foldl_addTag {tags ordered : List Text} {t : Text} :
    t ∈ tags.foldl addTag ordered ↔ t ∈ ordered ∨ t ∈ tags := by
  induction tags generalizing ordered with
  | nil => exact ⟨Or.inl, fun h => h.resolve_right (by rintro ⟨⟩)⟩
  | cons tag tags ih => rw [List.foldl_cons, ih, mem_addTag, List.mem_cons, or_assoc]

/-- A request carries its key and its tags. -/
theorem CreateSessionRequest.mem_allTags {request : CreateSessionRequest} {t : Text} :
    t ∈ request.allTags ↔ t = request.operationKey ∨ t ∈ request.tags := by
  unfold allTags
  rw [mem_foldl_addTag, List.mem_singleton]

/-- No correlation tag can be taken for a key. -/
theorem correlationTags_not_key {repository kind caseId attemptId t : Text} {issueNumber : Int}
    (ht : t ∈ correlationTags repository issueNumber kind caseId attemptId) :
    Text.startsWith operationTagPrefix t = false := by
  simp only [correlationTags, List.mem_cons, List.not_mem_nil, or_false] at ht
  rcases ht with rfl | rfl | rfl | rfl | rfl | rfl <;> rfl

/-! ## The request of the runner -/

/-- `kind.value`. -/
def kindValue : AttemptKind → Text
  | .triage => "TRIAGE".toList
  | .remediation => "REMEDIATION".toList

/-- What `_create` and `_build_request` take from the case, the attempt and its context. -/
structure Launch where
  caseId : Uuid
  attemptId : Uuid
  kind : AttemptKind
  ordinal : Nat
  triageResultHash : Text
  baseSha : Text
  repository : Text
  issueNumber : Int
  prompt : Text
  maxAcuLimit : Nat
  schema : Value

/-- The key that `_create` gives to the attempt. -/
def Launch.key (a : Launch) : Option Text :=
  match a.kind with
  | .remediation => remediationOperationKey a.caseId.text a.triageResultHash a.baseSha a.ordinal
  | .triage => some (operationKey a.caseId.text (kindValue a.kind) a.ordinal)

/-- `_build_request`, after the prompt. -/
def Launch.request (a : Launch) (operationKey : Text) : CreateSessionRequest where
  prompt := a.prompt
  repository := a.repository
  baseSha := a.baseSha
  maxAcuLimit := a.maxAcuLimit
  operationKey := operationKey
  tags := correlationTags a.repository a.issueNumber (kindValue a.kind) a.caseId.text
    a.attemptId.text
  structuredOutputSchema := a.schema
  title := match a.kind with
    | .triage => none
    | .remediation => some ("Remediate ".toList ++ a.repository ++ "#".toList ++
        (toString a.issueNumber).toList)

/-- A text in a body. -/
def text (t : Text) : Value := .str (String.ofList t)

/-- The body of `create_session`; `repo` is `format_devin_repo` at the configured format. -/
def createBody (repo : Text → Text) (request : CreateSessionRequest) : List (String × Value) :=
  [("prompt", text request.prompt),
    ("title", text (match request.title with
      | some (c :: title) => c :: title
      | _ => "triage ".toList ++ request.repository ++ "@".toList ++ request.baseSha.take 12 ++
          " [".toList ++ request.operationKey ++ "]".toList)),
    ("tags", .list (request.allTags.map text)),
    ("max_acu_limit", .number (.int request.maxAcuLimit)),
    ("repos", .list [text (repo request.repository)]),
    ("structured_output_schema", request.structuredOutputSchema),
    ("structured_output_required", .bool true),
    ("resumable", .bool false)]

/-- What an attempt is about. `approved` are the triage hash and the base commit of a
remediation. -/
structure Operation where
  caseId : Uuid
  kind : AttemptKind
  ordinal : Nat
  approved : Option (Text × Text)
  deriving DecidableEq

def Launch.operation (a : Launch) : Operation where
  caseId := a.caseId
  kind := a.kind
  ordinal := a.ordinal
  approved := match a.kind with
    | .triage => none
    | .remediation => some (a.triageResultHash, a.baseSha)

/-! ## Keys are identities -/

theorem operationKey_start (caseId kind : Text) (ordinal : Nat) :
    operationKey caseId kind ordinal =
      operationTagPrefix ++ (caseId ++ (":".toList ++ (kind ++ (":".toList ++ decimal ordinal)))) := by
  simp only [operationKey, List.append_assoc]

theorem remediationOperationKey_eq_some {caseId hash sha key : Text} {ordinal : Nat} :
    remediationOperationKey caseId hash sha ordinal = some key ↔
      hash.length = 64 ∧ sha.length = 40 ∧
        key = operationTagPrefix ++ (caseId ++ (":REMEDIATION:".toList ++ (hash ++
          (":".toList ++ (sha ++ (":".toList ++ decimal ordinal)))))) := by
  unfold remediationOperationKey
  split_ifs with h
  · constructor
    · nofun
    · rintro ⟨hhash, hsha, -⟩
      exact absurd h (by omega)
  · constructor
    · intro hkey
      refine ⟨by omega, by omega, ?_⟩
      rw [← Option.some.inj hkey]
      simp only [List.append_assoc]
    · rintro ⟨-, -, rfl⟩
      simp only [List.append_assoc]

/-- What a key consists of. -/
theorem Launch.key_cases {a : Launch} {key : Text} (h : a.key = some key) :
    ∃ rest, key = operationTagPrefix ++ (a.caseId.text ++ rest) ∧
      (a.kind = .triage ∧ rest = ":TRIAGE:".toList ++ decimal a.ordinal ∨
        a.kind = .remediation ∧ a.triageResultHash.length = 64 ∧ a.baseSha.length = 40 ∧
          rest = ":REMEDIATION:".toList ++ (a.triageResultHash ++ (":".toList ++
            (a.baseSha ++ (":".toList ++ decimal a.ordinal))))) := by
  unfold Launch.key at h
  cases hkind : a.kind with
  | triage =>
      rw [hkind] at h
      refine ⟨_, ?_, Or.inl ⟨rfl, rfl⟩⟩
      rw [← Option.some.inj h]
      exact operationKey_start a.caseId.text (kindValue .triage) a.ordinal
  | remediation =>
      rw [hkind] at h
      obtain ⟨hhash, hsha, rfl⟩ := remediationOperationKey_eq_some.mp h
      exact ⟨_, rfl, Or.inr ⟨rfl, hhash, hsha, rfl⟩⟩

theorem Launch.key_start {a : Launch} {key : Text} (h : a.key = some key) :
    Text.startsWith operationTagPrefix key = true := by
  obtain ⟨rest, rfl, -⟩ := Launch.key_cases h
  exact List.isPrefixOf_iff_prefix.mpr (List.prefix_append _ _)

/-- Two attempts have one key only if they are about the same thing. -/
theorem Launch.operation_of_key {a b : Launch} {key : Text} (ha : a.key = some key)
    (hb : b.key = some key) : a.operation = b.operation := by
  obtain ⟨s, hs, hsa⟩ := Launch.key_cases ha
  obtain ⟨t, ht, htb⟩ := Launch.key_cases hb
  rw [hs] at ht
  obtain ⟨hcase, hrest⟩ := List.append_inj (List.append_cancel_left ht)
    (by rw [Uuid.text_length, Uuid.text_length])
  have hcase := Uuid.text_inj hcase
  unfold Launch.operation
  rcases hsa with ⟨hka, rfl⟩ | ⟨hka, hhash, hsha, rfl⟩ <;>
    rcases htb with ⟨hkb, rfl⟩ | ⟨hkb, hhash', hsha', rfl⟩
  · rw [hcase, hka, hkb, decimal_inj (List.append_cancel_left hrest)]
  · exact absurd (List.cons.inj (List.cons.inj hrest).2).1 (by decide)
  · exact absurd (List.cons.inj (List.cons.inj hrest).2).1 (by decide)
  · obtain ⟨heq, hrest⟩ := List.append_inj (List.append_cancel_left hrest) (by omega)
    obtain ⟨heq', hrest⟩ := List.append_inj (List.append_cancel_left hrest) (by omega)
    rw [hcase, hka, hkb, heq, heq', decimal_inj (List.append_cancel_left hrest)]

theorem Launch.key_of_operation {a b : Launch} (h : a.operation = b.operation) : a.key = b.key := by
  unfold Launch.operation at h
  obtain ⟨hcase, hkind, hordinal, h⟩ := Operation.mk.inj h
  unfold Launch.key
  rw [hcase, hordinal, hkind]
  cases hb : b.kind with
  | triage => rfl
  | remediation =>
      rw [hkind, hb] at h
      obtain ⟨hhash, hsha⟩ := Prod.mk.inj (Option.some.inj h)
      dsimp only
      rw [hhash, hsha]

/-- The tags of a request hold the key of an attempt exactly when both are about the same thing. -/
theorem Launch.key_mem_allTags {a b : Launch} {key own : Text} (ha : a.key = some key)
    (hb : b.key = some own) : key ∈ (b.request own).allTags ↔ b.operation = a.operation := by
  rw [CreateSessionRequest.mem_allTags]
  constructor
  · rintro (rfl | htag)
    · exact Launch.operation_of_key hb ha
    · have hstart := Launch.key_start ha
      rw [correlationTags_not_key htag] at hstart
      cases hstart
  · intro h
    have hkey := Launch.key_of_operation h
    rw [hb, ha] at hkey
    exact Or.inl (Option.some.inj hkey).symm

/-! ## What is found under a key -/

/-- A session of the organization: the launch that created it, if it was one of the runner's, and
the item that the service lists for it. -/
structure Session where
  launch : Option Launch
  item : Value

/-- The service lists the tags that a session was created with, and nobody else uses tags that
look like a key. -/
inductive Listed (repo : Text → Text) : Option Launch → Value → Prop
  | own {b : Launch} {key : Text} {fields : List (String × Value)} (hkey : b.key = some key)
      (htags : List.lookup "tags" fields =
        List.lookup "tags" (createBody repo (b.request key))) :
      Listed repo (some b) (.dict fields)
  | foreign {fields : List (String × Value)} {tags : List Value}
      (htags : List.lookup "tags" fields = some (.list tags))
      (hforeign : ∀ t, Text.startsWith operationTagPrefix t = true → text t ∉ tags) :
      Listed repo none (.dict fields)

/-- The session was created for the operation of the attempt. -/
def Session.madeFor (a : Launch) (s : Session) : Bool :=
  decide (s.launch.map Launch.operation = some a.operation)

/-- The snapshot of an item that can be read. -/
def snapshots (repr : Value → String) (item : Value) : List SessionSnapshot :=
  (parseSnapshot (shallow repr) item).toOption.toList

section Found

variable {repr : Value → String} {repo : Text → Text}

theorem any_isStr_text {key : Text} {tags : List Value} :
    tags.any (Value.isStr (String.ofList key)) = true ↔ text key ∈ tags := by
  rw [List.any_eq_true]
  constructor
  · rintro ⟨tag, htag, hstr⟩
    cases tag with
    | str s =>
        have hs : s = String.ofList key := of_decide_eq_true hstr
        rw [hs] at htag
        exact htag
    | _ => cases hstr
  · intro h
    exact ⟨text key, h, decide_eq_true rfl⟩

theorem text_mem_map {t : Text} {tags : List Text} : text t ∈ tags.map text ↔ t ∈ tags := by
  refine List.mem_map_of_injective ?_
  intro s t h
  exact String.ofList_injective (Value.str.inj h)

theorem taggedSession_list {tag : String} {fields : List (String × Value)} {tags : List Value}
    (htags : List.lookup "tags" fields = some (.list tags)) :
    taggedSession repr tag (.dict fields) =
      if tags.any (Value.isStr tag) then (parseSnapshot (shallow repr) (.dict fields)).map some
      else .ok none := by
  unfold taggedSession
  dsimp only
  rw [htags]
  cases tags with
  | nil => rfl
  | cons tag rest => rfl

/-- An item with a list of tags is read exactly when the key is one of them. -/
theorem sessionsOf_list {key : Text} {fields : List (String × Value)} {tags : List Value}
    (htags : List.lookup "tags" fields = some (.list tags)) :
    sessionsOf repr (String.ofList key) (.dict fields) =
      if tags.any (Value.isStr (String.ofList key)) then snapshots repr (.dict fields) else [] := by
  unfold sessionsOf snapshots
  rw [taggedSession_list htags]
  split_ifs
  · cases parseSnapshot (shallow repr) (.dict fields) <;> rfl
  · rfl

/-- Under the key of an attempt an item gives the snapshot of its own session and no other. -/
theorem sessionsOf_listed {a : Launch} {key : Text} (hkey : a.key = some key) {s : Session}
    (h : Listed repo s.launch s.item) :
    sessionsOf repr (String.ofList key) s.item =
      if s.madeFor a then snapshots repr s.item else [] := by
  obtain ⟨launch, item⟩ := s
  dsimp only at h ⊢
  unfold Session.madeFor
  cases h with
  | @own b own fields hown htags =>
      have hlist : List.lookup "tags" fields = some (.list ((b.request own).allTags.map text)) :=
        htags
      rw [sessionsOf_list hlist]
      simp only [any_isStr_text, text_mem_map, Launch.key_mem_allTags hkey hown, Option.map_some,
        Option.some.injEq, decide_eq_true_eq]
  | foreign htags hforeign =>
      rw [sessionsOf_list htags, if_neg (any_isStr_text.not.mpr (hforeign key (Launch.key_start hkey)))]
      rfl

/-- A round takes entries of its page only. -/
theorem sessionsTurn_taken (tag : String) (l : Listing (Raised DevinError) Value sessionsPage)
    (k : Nat) :
    (sessionsTurn repr tag (l.answer k)).taken.Sublist (l.entries (sessionsOf repr tag) k) := by
  cases hanswer : l.answer k with
  | error e => exact List.nil_sublist _
  | ok page =>
      cases page with
      | dict payload =>
          unfold sessionsTurn
          dsimp only
          split
          · exact List.nil_sublist _
          · next items hitems =>
              have hpart : (items.flatMap (sessionsOf repr tag)).Sublist
                  (l.entries (sessionsOf repr tag) k) := by
                unfold itemsOf at hitems
                split at hitems
                · next value hvalue =>
                    rcases iterate_texts hitems with rfl | ⟨texts, rfl⟩
                    · rw [l.honest k _ items hanswer (listAt_eq_some.mpr hvalue)]
                      exact List.Sublist.refl _
                    · rw [flatMap_of_texts fun _ => rfl]
                      exact List.nil_sublist _
                · rw [← Except.ok.inj hitems]
                  exact List.nil_sublist _
              split
              · exact List.nil_sublist _
              · split_ifs
                · exact hpart
                · exact hpart
      | _ => exact List.nil_sublist _

/-- What the sessions of the list give under the key of an attempt. -/
theorem all_listed {l : Listing (Raised DevinError) Value sessionsPage} {sessions : List Session}
    (hserved : l.pages.flatten = sessions.map Session.item)
    (hlisted : ∀ s ∈ sessions, Listed repo s.launch s.item) {a : Launch} {key : Text}
    (hkey : a.key = some key) :
    l.all (sessionsOf repr (String.ofList key)) =
      (sessions.filter (Session.madeFor a)).flatMap (fun s => snapshots repr s.item) := by
  unfold Listing.all
  rw [hserved]
  clear hserved
  induction sessions with
  | nil => rfl
  | cons s sessions ih =>
      rw [List.forall_mem_cons] at hlisted
      rw [List.map_cons, List.flatMap_cons, sessionsOf_listed hkey hlisted.1, ih hlisted.2,
        List.filter_cons]
      split_ifs with hmade
      · rw [List.flatMap_cons]
      · rw [List.nil_append]

/-- No two sessions were created for one operation. -/
def OneEach (sessions : List Session) : Prop :=
  (sessions.filterMap (fun s => s.launch.map Launch.operation)).Nodup

theorem OneEach.length_le {sessions : List Session} (h : OneEach sessions) (a : Launch) :
    (sessions.filter (Session.madeFor a)).length ≤ 1 := by
  have hsame : (sessions.filter (Session.madeFor a)).filterMap
      (fun s => s.launch.map Launch.operation) =
        List.replicate (sessions.filter (Session.madeFor a)).length a.operation := by
    generalize hown : sessions.filter (Session.madeFor a) = own
    have hmade : ∀ s ∈ own, s.launch.map Launch.operation = some a.operation := by
      intro s hs
      rw [← hown] at hs
      exact of_decide_eq_true (List.mem_filter.mp hs).2
    clear hown
    induction own with
    | nil => rfl
    | cons s own ih =>
        rw [List.forall_mem_cons] at hmade
        rw [List.filterMap_cons, hmade.1, ih hmade.2]
        rfl
  have hpart : ((sessions.filter (Session.madeFor a)).filterMap
      (fun s => s.launch.map Launch.operation)).Sublist
        (sessions.filterMap (fun s => s.launch.map Launch.operation)) :=
    List.filter_sublist.filterMap _
  have hnodup := hpart.nodup h
  rw [hsame] at hnodup
  exact List.nodup_replicate.mp hnodup

/-- Whatever sessions the organization has and however they are paged, `find_sessions_by_tag` with
the key of an attempt returns sessions of that operation only; a covered read returns all of them.
Where every operation has one session at most, so has the result: the reconciliation never has to
choose, and neither it nor a termination by tag ever gets hold of the session of another attempt. -/
theorem found_by_key {l : Listing (Raised DevinError) Value sessionsPage} {sessions : List Session}
    (hserved : l.pages.flatten = sessions.map Session.item)
    (hlisted : ∀ s ∈ sessions, Listed repo s.launch s.item) {a : Launch} {key : Text}
    (hkey : a.key = some key) {r : List SessionSnapshot}
    (h : findSessionsByTag repr (String.ofList key) l.answer = .ok r) :
    r.Sublist ((sessions.filter (Session.madeFor a)).flatMap (fun s => snapshots repr s.item)) ∧
      (Covered (fun k => sessionsTurn repr (String.ofList key) (l.answer k)) 5
          (l.entries (sessionsOf repr (String.ofList key))) →
        r = (sessions.filter (Session.madeFor a)).flatMap (fun s => snapshots repr s.item)) ∧
      (OneEach sessions → r.length ≤ 1) := by
  have hpart : r.Sublist
      ((sessions.filter (Session.madeFor a)).flatMap (fun s => snapshots repr s.item)) := by
    rw [← all_listed hserved hlisted hkey, ← l.flatMap_entries]
    exact walk_sublist (fun k => sessionsTurn_taken _ l k) (l.entries_of_length _) h
  refine ⟨hpart, ?_, ?_⟩
  · intro hcovered
    rw [← all_listed hserved hlisted hkey]
    exact (sessionsComplete_iff repr _ l).mpr hcovered r h
  · intro hone
    have hlength : ∀ own : List Session,
        (own.flatMap (fun s => snapshots repr s.item)).length ≤ own.length := by
      intro own
      induction own with
      | nil => exact Nat.le_refl _
      | cons s own ih =>
          have hsnapshot : (snapshots repr s.item).length ≤ 1 := by
            unfold snapshots
            cases (parseSnapshot (shallow repr) s.item).toOption with
            | none => exact Nat.zero_le 1
            | some snapshot => exact Nat.le_refl 1
          rw [List.flatMap_cons, List.length_append, List.length_cons]
          omega
    exact (hpart.length_le.trans (hlength _)).trans (hone.length_le a)

end Found

/-- The first triage of a case. -/
def demoLaunch : Launch where
  caseId := ⟨7, by decide⟩
  attemptId := ⟨8, by decide⟩
  kind := .triage
  ordinal := 1
  triageResultHash := []
  baseSha := "0123456789012345678901234567890123456789".toList
  repository := "apache/superset".toList
  issueNumber := 42
  prompt := "Look at the issue.".toList
  maxAcuLimit := 10
  schema := .dict []

def demoKey : Text := operationKey demoLaunch.caseId.text "TRIAGE".toList 1

theorem demoLaunch_key : demoLaunch.key = some demoKey := rfl

/-- Its session, and one of somebody else. -/
def triageSessions : List Session :=
  [⟨some demoLaunch, .dict [("session_id", .str "devin-1"),
      ("tags", .list ((demoLaunch.request demoKey).allTags.map text))]⟩,
    ⟨none, .dict [("session_id", .str "devin-2"), ("tags", .list [.str "nightly"])]⟩]

/-- Both on one page. -/
def triageListing : Listing (Raised DevinError) Value sessionsPage where
  pages := [triageSessions.map Session.item]
  answer
    | 0 => .ok (.dict [("items", .list (triageSessions.map Session.item))])
    | _ => .ok .null
  honest := by
    intro k page xs hanswer hentries
    rcases k with _ | k
    all_goals
      obtain rfl := Except.ok.inj hanswer
      first
        | (obtain rfl := Option.some.inj hentries; rfl)
        | cases hentries

theorem triageSessions_listed : ∀ s ∈ triageSessions, Listed id s.launch s.item := by
  intro s hs
  simp only [triageSessions, List.mem_cons, List.not_mem_nil, or_false] at hs
  rcases hs with rfl | rfl
  · exact Listed.own demoLaunch_key rfl
  · refine Listed.foreign rfl ?_
    intro t ht hmem
    have htext := String.ofList_injective (Value.str.inj (List.mem_singleton.mp hmem))
    rw [htext] at ht
    exact absurd ht (by decide)

theorem found_by_key_demo : ∃ r : List SessionSnapshot,
    findSessionsByTag (fun _ => "") (String.ofList demoKey) triageListing.answer = .ok r ∧
      r.length = 1 ∧ r.Sublist ((triageSessions.filter (Session.madeFor demoLaunch)).flatMap
        (fun s => snapshots (fun _ => "") s.item)) := by
  have hfound : findSessionsByTag (fun _ => "") (String.ofList demoKey) triageListing.answer =
      .ok (triageSessions.flatMap
        (fun s => sessionsOf (fun _ => "") (String.ofList demoKey) s.item)) := rfl
  have hserved : triageListing.pages.flatten = triageSessions.map Session.item := rfl
  exact ⟨_, hfound, rfl, (found_by_key hserved triageSessions_listed demoLaunch_key hfound).1⟩

end Remediator.Clients.Tags
