import Remediator.Api.Signatures
import Remediator.Devin.Status
import Remediator.Lib.Json

set_option autoImplicit false

/-! # The deliveries of GitHub

`api/webhooks.py`: a delivery is taken into the table of events when it is signed, allowed by the
settings and not there yet. The unique index on the delivery id puts the commits of concurrent
requests in an order, so a run of the endpoint is the list of its requests in that order.
-/

namespace Remediator.Webhooks

open Text Signatures

/-! ## The endpoint -/

/-- Why `json.loads` returns nothing. -/
inductive Undecoded
  /-- `JSONDecodeError` -/
  | json
  /-- another exception, such as that of a body that is no text -/
  | other

/-- What Python does with bodies and texts. -/
structure Library where
  loads : List UInt8 → Except Undecoded Json.Value
  /-- `str.lower()` -/
  lower : String → String
  /-- `repr` of a decoded value -/
  repr : Json.Value → String

/-- The fields of `Settings` that the endpoint reads. -/
structure Settings where
  githubWebhookSecret : Text
  githubRepository : String
  githubAllowedEvents : String
  githubAllowedActions : String
  githubRequiredLabel : String
  githubRemediationLabel : String

/-- `x.strip() for x in raw.split(",") if x.strip()`. -/
def entries (raw : String) : List String :=
  ((raw.toList.splitOn ',').map fun part => Devin.trim (String.ofList part)).filter (· ≠ "")

def Settings.allowedEvents (settings : Settings) : List String :=
  entries settings.githubAllowedEvents

def Settings.allowedActions (settings : Settings) : List String :=
  entries settings.githubAllowedActions

def Settings.allowedRepositories (py : Library) (settings : Settings) : List String :=
  (entries settings.githubRepository).map py.lower

def Settings.repositoryAllowed (py : Library) (settings : Settings) (repository : String) : Bool :=
  (settings.allowedRepositories py).contains (py.lower (Devin.trim repository))

/-- A request to the endpoint. -/
structure Request where
  body : List UInt8
  xGithubDelivery : Option Header
  xGithubEvent : Option Header
  xHubSignature256 : Option Header

/-- What the endpoint writes of a `WebhookEvent`. -/
structure Row where
  deliveryId : String
  eventType : String
  action : String
  repository : String
  payload : List (String × Json.Value)

/-- The table, with its unique index. -/
structure Table where
  rows : List Row
  unique : (rows.map (·.deliveryId)).Nodup

def Table.ids (t : Table) : List String := t.rows.map (·.deliveryId)

/-- The insert of a row; `none` is an `IntegrityError`. -/
def Table.insert (t : Table) (row : Row) : Option Table :=
  if h : row.deliveryId ∈ t.ids then none
  else
    some ⟨t.rows ++ [row], by
      rw [List.map_append]
      exact t.unique.append (List.nodup_singleton _) (by simpa [Table.ids] using h)⟩

inductive Answer
  /-- an exception leaves the endpoint -/
  | raised
  | refused (status : ℕ) (detail : String)
  /-- 202, not taken -/
  | filtered (reason : String)
  /-- 202, taken or there already -/
  | accepted (deduplicated : Bool)
  deriving DecidableEq

/-- The delivery is in the table, by the answer. -/
def Answer.taken : Answer → Bool
  | .accepted _ => true
  | _ => false

abbrev Payload : Type := List (String × Json.Value)

/-- `payload.get(key, {}).get(name)`. -/
def getIn (payload : Payload) (key name : String) : Except Json.Exc (Option Json.Value) :=
  match List.lookup key payload with
  | none => .ok none
  | some value => value.get name

/-- `str(found)`, and a default of `""`. -/
def textOf (py : Library) (found : Option Json.Value) : String :=
  (found.map (·.text py.repr)).getD ""

/-- `str(item.get("name", "")).lower()`. -/
def labelName (py : Library) (item : Json.Value) : Except Json.Exc String := do
  let found ← item.get "name"
  .ok (py.lower (textOf py found))

/-- `_labels`. -/
def labels (py : Library) (payload : Payload) : Except Json.Exc (List String) := do
  match ← getIn payload "issue" "labels" with
  | none => .ok []
  | some value =>
      let items ← value.iterate
      items.mapM (labelName py)

/-- The condition for `required label missing`. -/
def labelMissing (py : Library) (settings : Settings) (payload : Payload) (action : String) :
    Except Json.Exc Bool := do
  let required := py.lower settings.githubRequiredLabel
  let found ← getIn payload "label" "name"
  let eventLabel := py.lower (textOf py found)
  if required = "" then .ok false
  else
    let names ← labels py payload
    .ok (!names.contains required && !(decide (action = "labeled") &&
      [required, py.lower settings.githubRemediationLabel].contains eventLabel))

/-- A header, if it is not empty. -/
def present (header : Option Header) : Option String :=
  (header.filter fun h => h.1 ≠ []).map fun h => String.ofList h.1

section Endpoint

-- the bytes of HMAC-SHA256, of a key and a message
variable (hmac : List UInt8 → List UInt8 → List UInt8) (py : Library) (settings : Settings)

/-- The filters of `github_webhook`. -/
def filter (deliveryId eventType : String) (payload : Payload) : Except Answer Row :=
  let action := textOf py (List.lookup "action" payload)
  match getIn payload "repository" "full_name" with
  | .error _ => .error .raised
  | .ok (some (.str repository)) =>
      if settings.repositoryAllowed py repository = false then
        .error (.filtered "repository not allowed")
      else if eventType ∉ settings.allowedEvents then .error (.filtered "event not allowed")
      else if action ∉ settings.allowedActions then .error (.filtered "action not allowed")
      else
        match labelMissing py settings payload action with
        | .error _ => .error .raised
        | .ok true => .error (.filtered "required label missing")
        | .ok false => .ok ⟨deliveryId, eventType, action, repository, payload⟩
  | .ok _ => .error (.filtered "repository not allowed")

/-- `github_webhook` up to the write: the row to add, or the answer. -/
def intake (request : Request) : Except Answer Row :=
  match Github.refusal hmac settings.githubWebhookSecret request.body request.xHubSignature256 with
  | .error _ => .error .raised
  | .ok (some (status, detail)) => .error (.refused status detail)
  | .ok none =>
      match present request.xGithubDelivery with
      | none => .error (.refused 400 "missing delivery id")
      | some deliveryId =>
          match present request.xGithubEvent with
          | none => .error (.refused 400 "missing event type")
          | some eventType =>
              match py.loads request.body with
              | .error .json => .error (.refused 400 "invalid JSON")
              | .error .other => .error .raised
              | .ok (.dict payload) => filter py settings deliveryId eventType payload
              | .ok _ => .error (.refused 400 "payload must be a JSON object")

/-- What becomes of the commit: it can fail for reasons of its own, and a failure may be seen
after the row was written. -/
inductive Commit
  | done
  | fails (written : Bool)
  deriving DecidableEq

structure Post where
  request : Request
  commit : Commit

/-- `github_webhook`. -/
def post (t : Table) (p : Post) : Table × Answer :=
  match intake hmac py settings p.request with
  | .error answer => (t, answer)
  | .ok row =>
      match t.insert row with
      | none => (t, if p.commit = .done then .accepted true else .raised)
      | some t' =>
          match p.commit with
          | .done => (t', .accepted false)
          | .fails true => (t', .raised)
          | .fails false => (t, .raised)

/-- The table and the answers after a list of requests. -/
def posts (t : Table) : List Post → Table × List Answer
  | [] => (t, [])
  | p :: ps =>
      let step := post hmac py settings t p
      let rest := posts step.1 ps
      (rest.1, step.2 :: rest.2)

end Endpoint

/-! ## The deliveries that are taken -/

/-- A delivery of a holder of the secret that the settings let through; `row` is what is kept. -/
structure Genuine (hmac : List UInt8 → List UInt8 → List UInt8) (py : Library)
    (settings : Settings) (request : Request) (row : Row) : Prop where
  signed : request.xHubSignature256.map (·.1) =
    some (githubStart ++ hexdigest hmac settings.githubWebhookSecret request.body)
  delivery : present request.xGithubDelivery = some row.deliveryId
  event : present request.xGithubEvent = some row.eventType
  body : py.loads request.body = .ok (.dict row.payload)
  action : textOf py (List.lookup "action" row.payload) = row.action
  repository : getIn row.payload "repository" "full_name" = .ok (some (.str row.repository))
  repositoryAllowed : settings.repositoryAllowed py row.repository = true
  eventAllowed : row.eventType ∈ settings.allowedEvents
  actionAllowed : row.action ∈ settings.allowedActions
  labelled : labelMissing py settings row.payload row.action = .ok false

section Taken

variable {hmac : List UInt8 → List UInt8 → List UInt8} {py : Library} {settings : Settings}

theorem refusal_none {secret : Text} {body : List UInt8} {header : Option Header} :
    Github.refusal hmac secret body header = .ok none ↔
      header.map (·.1) = some (githubStart ++ hexdigest hmac secret body) := by
  constructor
  · intro h
    cases header with
    | none => cases h
    | some header =>
        by_cases hstart : startsWith githubStart header.1 = true
        · have hheader := startsWith_iff.mp hstart
          rw [Github.refusal_start hmac secret body hheader] at h
          rw [Option.map_some, hheader]
          generalize removeStart githubStart header.1 = rest at h
          cases hc : compareDigest (hexdigest hmac secret body) rest with
          | error e =>
              rw [hc] at h
              cases h
          | ok equal =>
              rw [hc] at h
              cases equal with
              | false => cases h
              | true =>
                  unfold compareDigest at hc
                  split at hc
                  · rw [beq_iff_eq.mp (Except.ok.inj hc)]
                  · cases hc
        · simp [Github.refusal, Github.verifySignature, hstart] at h
          cases h
  · intro h
    cases header with
    | none => cases h
    | some header =>
        rw [Github.refusal_start hmac secret body (Option.some.inj h),
          compareDigest_ascii (isAscii_hexdigest hmac _ _) (isAscii_hexdigest hmac _ _), beq_self_eq_true]
        rfl

/-- What the filters let through. -/
theorem filter_iff {deliveryId eventType : String} {payload : Payload} {row : Row} :
    filter py settings deliveryId eventType payload = .ok row ↔
      row.deliveryId = deliveryId ∧ row.eventType = eventType ∧ row.payload = payload ∧
      textOf py (List.lookup "action" payload) = row.action ∧
      getIn payload "repository" "full_name" = .ok (some (.str row.repository)) ∧
      settings.repositoryAllowed py row.repository = true ∧ eventType ∈ settings.allowedEvents ∧
      row.action ∈ settings.allowedActions ∧
      labelMissing py settings payload row.action = .ok false := by
  constructor
  · intro h
    unfold filter at h
    dsimp only at h
    split at h
    · cases h
    · next repository hrepository =>
        split at h
        · cases h
        · next hallowed =>
            split at h
            · cases h
            · next hevent =>
                split at h
                · cases h
                · next haction =>
                    split at h
                    · cases h
                    · cases h
                    · next hlabel =>
                        cases h
                        exact ⟨rfl, rfl, rfl, rfl, hrepository, by simpa using hallowed,
                          not_not.mp hevent, not_not.mp haction, hlabel⟩
    · cases h
  · rintro ⟨rfl, rfl, rfl, haction, hrepository, hallowed, hevent, hactionAllowed, hlabel⟩
    unfold filter
    rw [hrepository, haction]
    simp only [hallowed, hlabel]
    rw [if_neg (by simp), if_neg (not_not.mpr hevent), if_neg (not_not.mpr hactionAllowed)]

/-- Exactly the genuine deliveries get as far as the table. -/
theorem intake_iff {request : Request} {row : Row} :
    intake hmac py settings request = .ok row ↔ Genuine hmac py settings request row := by
  constructor
  · intro h
    unfold intake at h
    split at h
    · cases h
    · cases h
    · next hsigned =>
        split at h
        · cases h
        · next deliveryId hdelivery =>
            split at h
            · cases h
            · next eventType hevent =>
                split at h
                · cases h
                · cases h
                · next payload hbody =>
                    obtain ⟨rfl, rfl, rfl, haction, hrepository, hallowed, heventAllowed,
                      hactionAllowed, hlabel⟩ := filter_iff.mp h
                    exact ⟨refusal_none.mp hsigned, hdelivery, hevent, hbody, haction, hrepository,
                      hallowed, heventAllowed, hactionAllowed, hlabel⟩
                · cases h
  · intro h
    unfold intake
    simp only [refusal_none.mpr h.signed, h.delivery, h.event, h.body]
    exact filter_iff.mpr ⟨rfl, rfl, rfl, h.action, h.repository, h.repositoryAllowed,
      h.eventAllowed, h.actionAllowed, h.labelled⟩

theorem filter_error {deliveryId eventType : String} {payload : Payload} {answer : Answer}
    (h : filter py settings deliveryId eventType payload = .error answer) :
    answer.taken = false := by
  unfold filter at h
  dsimp only at h
  repeat' split at h
  all_goals
    cases h
    try rfl

theorem intake_error {request : Request} {answer : Answer}
    (h : intake hmac py settings request = .error answer) : answer.taken = false := by
  unfold intake at h
  repeat' split at h
  case h_3 => exact filter_error h
  all_goals
    cases h
    rfl

end Taken

/-! ## Runs of the endpoint -/

section Runs

variable (hmac : List UInt8 → List UInt8 → List UInt8) (py : Library) (settings : Settings)

theorem insert_none {t : Table} {row : Row} (h : t.insert row = none) : row.deliveryId ∈ t.ids := by
  unfold Table.insert at h
  split at h
  · assumption
  · cases h

theorem insert_some {t t' : Table} {row : Row} (h : t.insert row = some t') :
    row.deliveryId ∉ t.ids ∧ t'.rows = t.rows ++ [row] := by
  unfold Table.insert at h
  split at h
  · cases h
  · next hnew =>
      cases h
      exact ⟨hnew, rfl⟩

/-- Everything a request can do. -/
inductive Does (t : Table) (p : Post) : Table × Answer → Prop
  | refused (answer : Answer) (hnone : ¬ ∃ row, Genuine hmac py settings p.request row)
      (htaken : answer.taken = false) : Does t p (t, answer)
  | duplicate (row : Row) (hrow : Genuine hmac py settings p.request row)
      (hmem : row.deliveryId ∈ t.ids) (hdone : p.commit = .done) : Does t p (t, .accepted true)
  | added (t' : Table) (row : Row) (hrow : Genuine hmac py settings p.request row)
      (hnew : row.deliveryId ∉ t.ids) (hrows : t'.rows = t.rows ++ [row])
      (hdone : p.commit = .done) : Does t p (t', .accepted false)
  | failed (hdone : p.commit ≠ .done) : Does t p (t, .raised)
  | failedLate (t' : Table) (row : Row) (hrow : Genuine hmac py settings p.request row)
      (hnew : row.deliveryId ∉ t.ids) (hrows : t'.rows = t.rows ++ [row])
      (hdone : p.commit ≠ .done) : Does t p (t', .raised)

theorem post_does (t : Table) (p : Post) : Does hmac py settings t p (post hmac py settings t p) := by
  unfold post
  cases hintake : intake hmac py settings p.request with
  | error answer =>
      refine .refused answer (fun ⟨row, hrow⟩ => ?_) (intake_error hintake)
      rw [intake_iff.mpr hrow] at hintake
      cases hintake
  | ok row =>
      have hrow := intake_iff.mp hintake
      dsimp only
      cases hinsert : t.insert row with
      | none =>
          dsimp only
          split
          · next hdone => exact .duplicate row hrow (insert_none hinsert) hdone
          · next hdone => exact .failed hdone
      | some t' =>
          obtain ⟨hnew, hrows⟩ := insert_some hinsert
          cases hcommit : p.commit with
          | done => exact .added t' row hrow hnew hrows hcommit
          | fails written =>
              have hdone : p.commit ≠ .done := by simp [hcommit]
              cases written with
              | true => exact .failedLate t' row hrow hnew hrows hdone
              | false => exact .failed hdone

/-- What the table and the answers of a run have to do with its requests. -/
structure Ledger (before : Table) (ps : List Post) (after : Table × List Answer) : Prop where
  answered : after.2.length = ps.length
  /-- nothing is removed or changed -/
  grows : before.rows <+: after.1.rows
  /-- what is added was sent by a holder of the secret -/
  genuine : ∀ row ∈ after.1.rows, row ∈ before.rows ∨
    ∃ p ∈ ps, Genuine hmac py settings p.request row
  /-- a request is taken if it is genuine and the database is there, and not otherwise -/
  taken : ∀ x ∈ ps.zip after.2, x.2.taken = true ↔
    x.1.commit = .done ∧ ∃ row, Genuine hmac py settings x.1.request row
  /-- what is taken stays in the table -/
  kept : ∀ x ∈ ps.zip after.2, x.2.taken = true →
    ∃ id ∈ after.1.ids, present x.1.request.xGithubDelivery = some id
  /-- a request that is not told to be a duplicate has its own row -/
  own : ∀ x ∈ ps.zip after.2, x.2 = .accepted false → ∃ row ∈ after.1.rows,
    row.deliveryId ∉ before.ids ∧ Genuine hmac py settings x.1.request row
  /-- and no delivery id has two of them -/
  once : ∀ id, ((ps.zip after.2).filter fun x => decide (x.2 = .accepted false ∧
    present x.1.request.xGithubDelivery = some id)).length ≤ if id ∈ before.ids then 0 else 1

variable {hmac py settings} {t : Table} {p : Post} {r : Table × Answer}

theorem Does.taken_iff (h : Does hmac py settings t p r) :
    r.2.taken = true ↔ p.commit = .done ∧ ∃ row, Genuine hmac py settings p.request row := by
  cases h with
  | refused answer hnone htaken => simp [hnone, htaken]
  | duplicate row hrow hmem hdone => exact iff_of_true rfl ⟨hdone, row, hrow⟩
  | added t' row hrow hnew hrows hdone => exact iff_of_true rfl ⟨hdone, row, hrow⟩
  | failed hdone => exact iff_of_false Bool.false_ne_true fun h => hdone h.1
  | failedLate t' row hrow hnew hrows hdone =>
      exact iff_of_false Bool.false_ne_true fun h => hdone h.1

/-- The table after a request: the same, or with the row of the request, whose id is new. -/
theorem Does.rows (h : Does hmac py settings t p r) :
    r.1.rows = t.rows ∨ ∃ row, Genuine hmac py settings p.request row ∧
      row.deliveryId ∉ t.ids ∧ r.1.rows = t.rows ++ [row] := by
  cases h with
  | refused answer hnone htaken => exact Or.inl rfl
  | duplicate row hrow hmem hdone => exact Or.inl rfl
  | added t' row hrow hnew hrows hdone => exact Or.inr ⟨row, hrow, hnew, hrows⟩
  | failed hdone => exact Or.inl rfl
  | failedLate t' row hrow hnew hrows hdone => exact Or.inr ⟨row, hrow, hnew, hrows⟩

theorem Does.grows (h : Does hmac py settings t p r) : t.rows <+: r.1.rows := by
  rcases h.rows with hrows | ⟨row, -, -, hrows⟩
  · rw [hrows]
  · rw [hrows]
    exact List.prefix_append _ _

/-- A request that is taken has its id in the table. -/
theorem Does.kept (h : Does hmac py settings t p r) (htaken : r.2.taken = true) :
    ∃ id ∈ r.1.ids, present p.request.xGithubDelivery = some id := by
  cases h with
  | refused answer hnone hrefused =>
      rw [hrefused] at htaken
      cases htaken
  | duplicate row hrow hmem hdone => exact ⟨_, hmem, hrow.delivery⟩
  | added t' row hrow hnew hrows hdone =>
      exact ⟨_, by simp [Table.ids, hrows], hrow.delivery⟩
  | failed hdone => cases htaken
  | failedLate t' row hrow hnew hrows hdone => cases htaken

theorem Does.own (h : Does hmac py settings t p r) (haccepted : r.2 = .accepted false) :
    ∃ row, Genuine hmac py settings p.request row ∧ row.deliveryId ∉ t.ids ∧
      r.1.rows = t.rows ++ [row] := by
  cases h with
  | refused answer hnone hrefused =>
      dsimp only at haccepted
      rw [haccepted] at hrefused
      cases hrefused
  | duplicate row hrow hmem hdone => cases haccepted
  | added t' row hrow hnew hrows hdone => exact ⟨row, hrow, hnew, hrows⟩
  | failed hdone => cases haccepted
  | failedLate t' row hrow hnew hrows hdone => cases haccepted

theorem ids_of_grows {a b : Table} (h : a.rows <+: b.rows) {id : String} (hid : id ∈ a.ids) :
    id ∈ b.ids := by
  obtain ⟨row, hrow, rfl⟩ := List.mem_map.mp hid
  exact List.mem_map.mpr ⟨row, h.subset hrow, rfl⟩

/-- The requests before and after a request account for themselves, and so does it. -/
theorem Ledger.cons {ps : List Post} {rest : Table × List Answer}
    (h : Does hmac py settings t p r) (ih : Ledger hmac py settings r.1 ps rest) :
    Ledger hmac py settings t (p :: ps) (rest.1, r.2 :: rest.2) where
  answered := congrArg (· + 1) ih.answered
  grows := h.grows.trans ih.grows
  genuine row hrow := by
    rcases ih.genuine row hrow with hrow | ⟨p', hp', hgenuine⟩
    · rcases h.rows with hrows | ⟨row', hgenuine, -, hrows⟩
      · exact Or.inl (hrows ▸ hrow)
      · rw [hrows, List.mem_append, List.mem_singleton] at hrow
        rcases hrow with hrow | rfl
        · exact Or.inl hrow
        · exact Or.inr ⟨p, List.mem_cons_self, hgenuine⟩
    · exact Or.inr ⟨p', List.mem_cons_of_mem _ hp', hgenuine⟩
  taken x hx := by
    rcases List.mem_cons.mp hx with rfl | hx
    · exact h.taken_iff
    · exact ih.taken x hx
  kept x hx htaken := by
    rcases List.mem_cons.mp hx with rfl | hx
    · obtain ⟨id, hid, hpresent⟩ := h.kept htaken
      exact ⟨id, ids_of_grows ih.grows hid, hpresent⟩
    · exact ih.kept x hx htaken
  own x hx haccepted := by
    rcases List.mem_cons.mp hx with rfl | hx
    · obtain ⟨row, hgenuine, hnew, hrows⟩ := h.own haccepted
      refine ⟨row, ih.grows.subset ?_, hnew, hgenuine⟩
      rw [hrows]
      simp
    · obtain ⟨row, hrow, hnew, hgenuine⟩ := ih.own x hx haccepted
      exact ⟨row, hrow, fun hid => hnew (ids_of_grows h.grows hid), hgenuine⟩
  once id := by
    have hih := ih.once id
    rw [List.zip_cons_cons, List.filter_cons]
    split
    · next hhead =>
        -- the head has put the id into the table
        obtain ⟨haccepted, hpresent⟩ := of_decide_eq_true hhead
        obtain ⟨row, hgenuine, hnew, hrows⟩ := h.own haccepted
        have heq : row.deliveryId = id :=
          Option.some.inj (hgenuine.delivery.symm.trans hpresent)
        subst heq
        have hmem : row.deliveryId ∈ r.1.ids := by simp [Table.ids, hrows]
        rw [if_pos hmem] at hih
        rw [if_neg hnew, List.length_cons]
        omega
    · refine hih.trans ?_
      by_cases hmem : id ∈ t.ids
      · rw [if_pos hmem, if_pos (ids_of_grows h.grows hmem)]
      · rw [if_neg hmem]
        split <;> omega

end Runs

/-- **Whatever requests reach the endpoint, in whatever order they commit and whichever commits
fail: the table and the answers account for each other.** Only deliveries signed with the secret
are kept, each that is answered as taken is kept, and there is one row for its id. -/
theorem intake_ledger (hmac : List UInt8 → List UInt8 → List UInt8) (py : Library)
    (settings : Settings) (t : Table) (ps : List Post) :
    Ledger hmac py settings t ps (posts hmac py settings t ps) := by
  induction ps generalizing t with
  | nil =>
      refine ⟨rfl, List.prefix_rfl, fun row hrow => Or.inl hrow, by simp [posts], by simp [posts],
        by simp [posts], fun id => ?_⟩
      exact Nat.zero_le _
  | cons p ps ih => exact Ledger.cons (post_does hmac py settings t p) (ih _)

end Remediator.Webhooks
