import Remediator.Clients.Devin
import Remediator.Lib.Paging
import Remediator.Program

set_option autoImplicit false

/-! # Paged readers

`list_check_runs`, `list_pull_request_files`, `find_sessions_by_tag` and `find_message`. Each
reader has its own cap, its own test for the last page and its own way with a page of another
shape; what it takes from a page is all that the page holds, or nothing.
-/

namespace Remediator.Clients

open Json Paging

/-! ## Remote lists -/

/-- A remote list of entries, page by page, and what the remote answers to the requests of one
call. `entriesOf` are the entries of a well-formed page, and a well-formed page holds those that
belong on it; any other answer may come at any position. -/
structure Listing (E Page : Type) (entriesOf : Page → Option (List Value)) where
  pages : List (List Value)
  answer : Nat → Except E Page
  honest : ∀ k page xs, answer k = .ok page → entriesOf page = some xs → xs = pages.getD k []

/-- The list under a key of an object. -/
def listAt (key : String) (payload : List (String × Value)) : Option (List Value) :=
  match List.lookup key payload with
  | some (.list xs) => some xs
  | _ => none

theorem listAt_eq_some {key : String} {payload : List (String × Value)} {xs : List Value} :
    listAt key payload = some xs ↔ List.lookup key payload = some (.list xs) := by
  unfold listAt
  split
  · next ys hys =>
      rw [hys]
      exact ⟨fun h => by rw [Option.some.inj h], fun h => by
        rw [Value.list.inj (Option.some.inj h)]⟩
  · next hother => exact ⟨nofun, fun h => absurd h (hother xs)⟩

section Listing

variable {E Page α : Type} {entriesOf : Page → Option (List Value)}

/-- What the page `k` of the list contributes to a result. -/
def Listing.entries (l : Listing E Page entriesOf) (read : Value → List α) (k : Nat) : List α :=
  (l.pages.getD k []).flatMap read

/-- The result over the whole list. -/
def Listing.all (l : Listing E Page entriesOf) (read : Value → List α) : List α :=
  l.pages.flatten.flatMap read

theorem Listing.entries_of_length (l : Listing E Page entriesOf) (read : Value → List α) (k : Nat)
    (h : l.pages.length ≤ k) : l.entries read k = [] := by
  unfold Listing.entries
  rw [List.getD_eq_getElem?_getD, List.getElem?_eq_none h, Option.getD_none, List.flatMap_nil]

theorem Listing.flatMap_entries (l : Listing E Page entriesOf) (read : Value → List α) :
    (List.range l.pages.length).flatMap (l.entries read) = l.all read := by
  have hpages : l.pages = (List.range l.pages.length).map (fun k => l.pages.getD k []) := by
    refine List.ext_getElem (by simp) fun k h₁ h₂ => ?_
    simp [List.getElem?_eq_getElem h₁]
  unfold Listing.all Listing.entries
  conv_rhs => rw [hpages]
  rw [List.flatten_eq_flatMap, List.flatMap_map, List.flatMap_assoc]
  rfl

end Listing

/-! ## `list_check_runs` -/

section GitHub

variable {E : Type} (repr : Value → String)

/-- The run that an item of `check_runs` describes; what is not an object is skipped. -/
def checkRun : Value → List CheckRun
  | .dict item => [{
      name := textOr repr (List.lookup "name" item)
      status := textOr repr (List.lookup "status" item)
      conclusion := textOrNone repr (List.lookup "conclusion" item) }]
  | _ => []

/-- `app.get(..)` fails: `app` is truthy and no object. -/
def appBroken : Value → Bool
  | .dict item =>
      match orNone (List.lookup "app" item) with
      | some (.dict _) => false
      | some _ => true
      | none => false
  | _ => false

/-- One round of `list_check_runs`. -/
def checkRunsTurn : Except E Value → Turn CheckRun (Raised E)
  | .error e => .raise (.client e)
  | .ok (.dict payload) =>
      match iterateOrNil (List.lookup "check_runs" payload) with
      | .error e => .raise (.python e)
      | .ok items =>
          if items.any appBroken then .raise (.python .attributeError)
          else if items.length < 100 then .stop (items.flatMap (checkRun repr))
          else .more (items.flatMap (checkRun repr))
  | .ok _ => .stop []

/-- `list_check_runs`. -/
def listCheckRuns (answer : Nat → Except E Value) : Except (Raised E) (List CheckRun) :=
  walk (fun k => checkRunsTurn repr (answer k)) 10 0

def checkRunsPage : Value → Option (List Value)
  | .dict payload => listAt "check_runs" payload
  | _ => none

/-! ## `list_pull_request_files` -/

/-- The names of a changed file. -/
def fileNames : Value → List String
  | .dict item =>
      match orNone (List.lookup "filename" item) with
      | some name => name.text repr ::
          (match orNone (List.lookup "previous_filename" item) with
            | some previous => [previous.text repr]
            | none => [])
      | none => []
  | _ => []

/-- One round of `list_pull_request_files`. -/
def filesTurn : Except E Value → Turn String (Raised E)
  | .error e => .raise (.client e)
  | .ok (.list payload) =>
      if payload.length < 100 then .stop (payload.flatMap (fileNames repr))
      else .more (payload.flatMap (fileNames repr))
  | .ok _ => .stop []

/-- `list_pull_request_files`. -/
def listPullRequestFiles (answer : Nat → Except E Value) : Except (Raised E) (List String) :=
  walk (fun k => filesTurn repr (answer k)) 30 0

def filesPage : Value → Option (List Value)
  | .list payload => some payload
  | _ => none

end GitHub

/-! ## `find_sessions_by_tag` -/

section Devin

variable (repr : Value → String) (tag : String)

/-- `repr` of values that are not nested too deeply. -/
def shallow (value : Value) : Except Exc String := .ok (repr value)

/-- The session that an item describes, if it carries the tag. -/
def taggedSession : Value → Except Exc (Option SessionSnapshot)
  | .dict item => do
      let carries ← match orNone (List.lookup "tags" item) with
        | some tags => tags.contains tag
        | none => .ok false
      if carries then (parseSnapshot (shallow repr) (.dict item)).map some else .ok none
  | _ => .ok none

/-- The snapshots that the loop collects from an item that it survives. -/
def sessionsOf (item : Value) : List SessionSnapshot :=
  match taggedSession repr tag item with
  | .ok found => found.toList
  | .error _ => []

/-- The first exception of the loop over the items. -/
def firstError (items : List Value) : Option Exc :=
  items.findSome? (fun item =>
    match taggedSession repr tag item with
    | .ok _ => none
    | .error e => some e)

/-- `payload.get("items", [])`. -/
def itemsOf (payload : List (String × Value)) : Except Exc (List Value) :=
  match List.lookup "items" payload with
  | some items => items.iterate
  | none => .ok []

/-- The page announces another one and says where it starts. -/
def hasNext (payload : List (String × Value)) : Bool :=
  (orNone (List.lookup "has_next_page" payload)).isSome &&
    (orNone (List.lookup "end_cursor" payload)).isSome

/-- One round of `find_sessions_by_tag`. -/
def sessionsTurn : Except (Raised DevinError) Value → Turn SessionSnapshot (Raised DevinError)
  | .error e => .raise e
  | .ok (.dict payload) =>
      match itemsOf payload with
      | .error e => .raise (.python e)
      | .ok items =>
          match firstError repr tag items with
          | some e => .raise (.python e)
          | none =>
              if hasNext payload then .more (items.flatMap (sessionsOf repr tag))
              else .stop (items.flatMap (sessionsOf repr tag))
  | .ok _ => .stop []

/-- `find_sessions_by_tag`. -/
def findSessionsByTag (answer : Nat → Except (Raised DevinError) Value) :
    Except (Raised DevinError) (List SessionSnapshot) :=
  walk (fun k => sessionsTurn repr tag (answer k)) 5 0

def sessionsPage : Value → Option (List Value)
  | .dict payload => listAt "items" payload
  | _ => none

end Devin

/-! ## `find_message` -/

section Slack

variable {E : Type} (repr : Value → String) (request : String)

/-- `_metadata_request_id`. -/
def metadataRequestId : Option Value → Option String
  | some (.dict metadata) =>
      match List.lookup "event_type" metadata with
      | some (.str "remediator_approval_request") =>
          match List.lookup "event_payload" metadata with
          | some (.dict payload) =>
              match List.lookup "approval_request_id" payload with
              | some (.str value) => some value
              | _ => none
          | _ => none
      | _ => none
  | _ => none

/-- The message carries the id of the request. -/
def carriesRequest : Value → Bool
  | .dict message =>
      decide (metadataRequestId (List.lookup "metadata" message) = some request)
  | _ => false

/-- `message["ts"]`, as text. -/
def messageTs : Value → Option String
  | .dict message => (List.lookup "ts" message).map (·.text repr)
  | _ => none

/-- The time stamp of a message that carries the id. -/
def matchingTs (message : Value) : List String :=
  if carriesRequest request message then (messageTs repr message).toList else []

/-- `(payload.get("response_metadata") or {}).get("next_cursor") or None`. -/
def nextCursor (payload : List (String × Value)) : Except Exc (Option Value) :=
  match orNone (List.lookup "response_metadata" payload) with
  | none => .ok none
  | some metadata => (metadata.get "next_cursor").map orNone

/-- One round of `find_message`; `_read` returns objects only. -/
def messagesTurn : Except E (List (String × Value)) → Turn String (Raised E)
  | .error e => .raise (.client e)
  | .ok payload =>
      match iterateOrNil (List.lookup "messages" payload) with
      | .error e => .raise (.python e)
      | .ok messages =>
          match messages.find? (carriesRequest request) with
          | some message =>
              match messageTs repr message with
              | some ts => .stop [ts]
              | none => .raise (.python .keyError)
          | none =>
              match nextCursor payload with
              | .error e => .raise (.python e)
              | .ok none => .stop []
              | .ok (some _) => .more []

/-- `find_message`. -/
def findMessage (answer : Nat → Except E (List (String × Value))) :
    Except (Raised E) (Option String) :=
  (walk (fun k => messagesTurn repr request (answer k)) 5 0).map List.head?

def messagesPage (payload : List (String × Value)) : Option (List Value) :=
  listAt "messages" payload

end Slack

/-! ## What a reader takes from a page -/

/-- A request of the reader raises, or every page that contributes is asked for within the cap and
taken. -/
def Covered {α ε : Type} (turn : Nat → Turn α ε) (cap : Nat) (entries : Nat → List α) : Prop :=
  Raises turn cap ∨ ∀ k, entries k ≠ [] → Asked turn cap k ∧ (turn k).taken ≠ []

section Taken

variable {E Page α ε : Type} {entriesOf : Page → Option (List Value)}

/-- A reader whose round takes the entries of a well-formed page, or nothing, and nothing from a
page of another shape, reads the whole list exactly when the list is covered. -/
theorem Listing.complete_iff (l : Listing E Page entriesOf) (read : Value → List α)
    (turn : Except E Page → Turn α ε) (cap : Nat)
    (herror : ∀ e, (turn (.error e)).taken = [])
    (htaken : ∀ page items, entriesOf page = some items →
      (turn (.ok page)).taken = items.flatMap read ∨ (turn (.ok page)).taken = [])
    (hother : ∀ page, entriesOf page = none → (turn (.ok page)).taken = []) :
    (∀ r, walk (fun k => turn (l.answer k)) cap 0 = .ok r → r = l.all read) ↔
      Covered (fun k => turn (l.answer k)) cap (l.entries read) := by
  rw [← l.flatMap_entries read]
  refine walk_complete_iff (fun k => ?_) (l.entries_of_length read)
  cases hanswer : l.answer k with
  | error e => exact Or.inr (herror e)
  | ok page =>
      cases hentries : entriesOf page with
      | none => exact Or.inr (hother page hentries)
      | some items =>
          unfold Listing.entries
          rw [← l.honest k page items hanswer hentries]
          exact htaken page items hentries

end Taken

theorem flatMap_of_texts {α : Type} {read : Value → List α} (hread : ∀ text, read (.str text) = [])
    {texts : List String} : (texts.map Value.str).flatMap read = [] := by
  rw [List.flatMap_eq_nil_iff]
  intro x hx
  obtain ⟨text, _, rfl⟩ := List.mem_map.mp hx
  exact hread text

/-- What is iterated without being a list consists of texts. -/
theorem iterate_texts {value : Value} {items : List Value} (h : value.iterate = .ok items) :
    value = .list items ∨ ∃ texts : List String, items = texts.map Value.str := by
  cases value with
  | list xs => exact Or.inl (congrArg Value.list (Except.ok.inj h))
  | str s =>
      refine Or.inr ⟨s.toList.map String.singleton, ?_⟩
      rw [← Except.ok.inj h, List.map_map]
      rfl
  | dict fields =>
      refine Or.inr ⟨fields.map (·.1), ?_⟩
      rw [← Except.ok.inj h, List.map_map]
      rfl
  | null => cases h
  | bool b => cases h
  | number n => cases h

theorem iterateOrNil_list (xs : List Value) : iterateOrNil (some (.list xs)) = .ok xs := by
  cases xs with
  | nil => rfl
  | cons x xs => rfl

theorem iterateOrNil_texts {found : Option Value} {items : List Value}
    (h : iterateOrNil found = .ok items) (hlist : ∀ xs, found ≠ some (.list xs)) :
    ∃ texts : List String, items = texts.map Value.str := by
  unfold iterateOrNil orNone at h
  cases found with
  | none => exact ⟨[], (Except.ok.inj h).symm⟩
  | some value =>
      by_cases htruthy : value.truthy = true
      · rw [Option.filter_some, if_pos htruthy] at h
        rcases iterate_texts h with rfl | htexts
        · exact absurd rfl (hlist items)
        · exact htexts
      · rw [Option.filter_some, if_neg htruthy] at h
        exact ⟨[], (Except.ok.inj h).symm⟩

/-! ## The four readers -/

section Complete

variable {E : Type} (repr : Value → String)

/-- `list_check_runs` returns all check runs or raises. -/
def CheckRunsComplete (l : Listing E Value checkRunsPage) : Prop :=
  ∀ r, listCheckRuns repr l.answer = .ok r → r = l.all (checkRun repr)

/-- `list_pull_request_files` returns all changed and previous names or raises. -/
def FilesComplete (l : Listing E Value filesPage) : Prop :=
  ∀ r, listPullRequestFiles repr l.answer = .ok r → r = l.all (fileNames repr)

/-- `find_sessions_by_tag` returns all sessions with the tag or raises. -/
def SessionsComplete (tag : String) (l : Listing (Raised DevinError) Value sessionsPage) : Prop :=
  ∀ r, findSessionsByTag repr tag l.answer = .ok r → r = l.all (sessionsOf repr tag)

/-- `find_message` returns a message with the metadata if there is one, or raises. -/
def MessageComplete (request : String)
    (l : Listing E (List (String × Value)) messagesPage) : Prop :=
  ∀ r, findMessage repr request l.answer = .ok r →
    (∀ ts, r = some ts → ts ∈ l.all (matchingTs repr request)) ∧
      (r = none → l.all (matchingTs repr request) = [])

theorem checkRunsComplete_iff (l : Listing E Value checkRunsPage) :
    CheckRunsComplete repr l ↔
      Covered (fun k => checkRunsTurn repr (l.answer k)) 10 (l.entries (checkRun repr)) := by
  refine l.complete_iff (checkRun repr) (checkRunsTurn repr) 10 (fun e => rfl) ?_ ?_
  · intro page items hpage
    cases page with
    | dict payload =>
        unfold checkRunsTurn
        dsimp only
        rw [listAt_eq_some.mp hpage, iterateOrNil_list]
        dsimp only
        split_ifs
        · exact Or.inr rfl
        · exact Or.inl rfl
        · exact Or.inl rfl
    | null => cases hpage
    | bool b => cases hpage
    | number n => cases hpage
    | str s => cases hpage
    | list xs => cases hpage
  · intro page hpage
    cases page with
    | dict payload =>
        have hlist : ∀ xs, List.lookup "check_runs" payload ≠ some (.list xs) := by
          intro xs hxs
          cases hpage.symm.trans (listAt_eq_some.mpr hxs)
        unfold checkRunsTurn
        dsimp only
        split
        · rfl
        · next items hitems =>
            obtain ⟨texts, rfl⟩ := iterateOrNil_texts hitems hlist
            have hnil : (texts.map Value.str).flatMap (checkRun repr) = [] :=
              flatMap_of_texts fun _ => rfl
            split_ifs
            · rfl
            · exact hnil
            · exact hnil
    | null => rfl
    | bool b => rfl
    | number n => rfl
    | str s => rfl
    | list xs => rfl

theorem filesComplete_iff (l : Listing E Value filesPage) :
    FilesComplete repr l ↔
      Covered (fun k => filesTurn repr (l.answer k)) 30 (l.entries (fileNames repr)) := by
  refine l.complete_iff (fileNames repr) (filesTurn repr) 30 (fun e => rfl) ?_ ?_
  · intro page items hpage
    cases page with
    | list payload =>
        obtain rfl := Option.some.inj hpage
        unfold filesTurn
        dsimp only
        split_ifs
        · exact Or.inl rfl
        · exact Or.inl rfl
    | null => cases hpage
    | bool b => cases hpage
    | number n => cases hpage
    | str s => cases hpage
    | dict fields => cases hpage
  · intro page hpage
    cases page with
    | list payload => cases hpage
    | null => rfl
    | bool b => rfl
    | number n => rfl
    | str s => rfl
    | dict fields => rfl

theorem sessionsComplete_iff (tag : String)
    (l : Listing (Raised DevinError) Value sessionsPage) :
    SessionsComplete repr tag l ↔
      Covered (fun k => sessionsTurn repr tag (l.answer k)) 5 (l.entries (sessionsOf repr tag)) := by
  refine l.complete_iff (sessionsOf repr tag) (sessionsTurn repr tag) 5 (fun e => rfl) ?_ ?_
  · intro page items hpage
    cases page with
    | dict payload =>
        have hitems : itemsOf payload = .ok items := by
          unfold itemsOf
          rw [listAt_eq_some.mp hpage]
          rfl
        unfold sessionsTurn
        dsimp only
        rw [hitems]
        dsimp only
        split
        · exact Or.inr rfl
        · split_ifs
          · exact Or.inl rfl
          · exact Or.inl rfl
    | null => cases hpage
    | bool b => cases hpage
    | number n => cases hpage
    | str s => cases hpage
    | list xs => cases hpage
  · intro page hpage
    cases page with
    | dict payload =>
        unfold sessionsTurn
        dsimp only
        split
        · rfl
        · next items hitems =>
            have htexts : ∃ texts : List String, items = texts.map Value.str := by
              unfold itemsOf at hitems
              split at hitems
              · next value hvalue =>
                  rcases iterate_texts hitems with rfl | htexts
                  · cases hpage.symm.trans (listAt_eq_some.mpr hvalue)
                  · exact htexts
              · exact ⟨[], (Except.ok.inj hitems).symm⟩
            obtain ⟨texts, rfl⟩ := htexts
            have hnil : (texts.map Value.str).flatMap (sessionsOf repr tag) = [] :=
              flatMap_of_texts fun _ => rfl
            split
            · rfl
            · split_ifs
              · exact hnil
              · exact hnil
    | null => rfl
    | bool b => rfl
    | number n => rfl
    | str s => rfl
    | list xs => rfl

/-- What `find_message` takes from a page is on the page of the list. -/
theorem messagesTurn_taken (request : String)
    (l : Listing E (List (String × Value)) messagesPage) (k : Nat) (ts : String)
    (h : ts ∈ (messagesTurn repr request (l.answer k)).taken) :
    ts ∈ l.entries (matchingTs repr request) k := by
  cases hanswer : l.answer k with
  | error e =>
      rw [hanswer] at h
      cases h
  | ok payload =>
      rw [hanswer] at h
      unfold messagesTurn at h
      dsimp only at h
      split at h
      · cases h
      · next messages hmessages =>
          split at h
          · next message hfind =>
              split at h
              · next ts' hts =>
                  obtain rfl := List.mem_singleton.mp h
                  have hmem := List.mem_of_find?_eq_some hfind
                  have hcarries := List.find?_some hfind
                  have hpage : messages = l.pages.getD k [] := by
                    by_cases hlist : ∃ xs, List.lookup "messages" payload = some (.list xs)
                    · obtain ⟨xs, hxs⟩ := hlist
                      rw [hxs, iterateOrNil_list] at hmessages
                      obtain rfl := Except.ok.inj hmessages
                      exact l.honest k payload xs hanswer (listAt_eq_some.mpr hxs)
                    · obtain ⟨texts, rfl⟩ := iterateOrNil_texts hmessages
                        (fun xs hxs => hlist ⟨xs, hxs⟩)
                      obtain ⟨text, _, rfl⟩ := List.mem_map.mp hmem
                      cases hcarries
                  unfold Listing.entries
                  rw [List.mem_flatMap]
                  refine ⟨message, hpage ▸ hmem, ?_⟩
                  unfold matchingTs
                  rw [if_pos hcarries, hts]
                  exact List.mem_singleton.mpr rfl
              · cases h
          · split at h
            · cases h
            · cases h
            · cases h

theorem Listing.all_eq_nil_iff {Page α : Type} {entriesOf : Page → Option (List Value)}
    (l : Listing E Page entriesOf) (read : Value → List α) :
    l.all read = [] ↔ ∀ k, l.entries read k = [] := by
  rw [← l.flatMap_entries read, List.flatMap_eq_nil_iff]
  constructor
  · intro h k
    by_cases hk : k < l.pages.length
    · exact h k (List.mem_range.mpr hk)
    · exact l.entries_of_length read k (by omega)
  · exact fun h k _ => h k

theorem messageComplete_iff (request : String)
    (l : Listing E (List (String × Value)) messagesPage) :
    MessageComplete repr request l ↔
      Raises (fun k => messagesTurn repr request (l.answer k)) 5 ∨
        l.all (matchingTs repr request) = [] ∨
          ∃ k, Asked (fun k => messagesTurn repr request (l.answer k)) 5 k ∧
            (messagesTurn repr request (l.answer k)).taken ≠ [] := by
  rw [l.all_eq_nil_iff, ← walk_finds_iff]
  unfold MessageComplete findMessage
  constructor
  · intro h r hr hnil
    rw [hr] at h
    exact (l.all_eq_nil_iff _).mp ((h _ rfl).2 (by rw [hnil]; rfl))
  · intro h r hr
    rcases walk_cases (fun k => messagesTurn repr request (l.answer k)) 5 with
      ⟨_, e, hwalk⟩ | ⟨_, hwalk⟩
    · rw [hwalk] at hr
      cases hr
    · have hfound := h _ hwalk
      rw [hwalk] at hr
      obtain rfl := Except.ok.inj hr
      constructor
      · intro ts hts
        obtain ⟨k, _, hk⟩ := List.mem_flatMap.mp (List.mem_of_head? hts)
        rw [← l.flatMap_entries, List.mem_flatMap]
        have hentry : ts ∈ l.entries (matchingTs repr request) k := by
          unfold got at hk
          split at hk
          · exact messagesTurn_taken repr request l k ts hk
          · cases hk
        refine ⟨k, List.mem_range.mpr (by_contra fun hlen => ?_), hentry⟩
        rw [l.entries_of_length _ k (by omega)] at hentry
        cases hentry
      · intro hnone
        exact (l.all_eq_nil_iff _).mpr (hfound (List.head?_eq_none_iff.mp hnone))

/-- **When the paged readers are complete.** Each of them returns the result over the whole remote
list or raises exactly when one of its requests raises, or every page that contributes lies within
the cap, is well-formed and is preceded by pages after which the reader goes on; for
`find_message` it is enough that no message matches or that one such page has a match. -/
theorem paged_reads_complete_iff (tag request : String) (checks : Listing E Value checkRunsPage)
    (files : Listing E Value filesPage)
    (sessions : Listing (Raised DevinError) Value sessionsPage)
    (messages : Listing E (List (String × Value)) messagesPage) :
    (CheckRunsComplete repr checks ↔
      Covered (fun k => checkRunsTurn repr (checks.answer k)) 10 (checks.entries (checkRun repr))) ∧
    (FilesComplete repr files ↔
      Covered (fun k => filesTurn repr (files.answer k)) 30 (files.entries (fileNames repr))) ∧
    (SessionsComplete repr tag sessions ↔
      Covered (fun k => sessionsTurn repr tag (sessions.answer k)) 5
        (sessions.entries (sessionsOf repr tag))) ∧
    (MessageComplete repr request messages ↔
      Raises (fun k => messagesTurn repr request (messages.answer k)) 5 ∨
        messages.all (matchingTs repr request) = [] ∨
          ∃ k, Asked (fun k => messagesTurn repr request (messages.answer k)) 5 k ∧
            (messagesTurn repr request (messages.answer k)).taken ≠ []) :=
  ⟨checkRunsComplete_iff repr checks, filesComplete_iff repr files,
    sessionsComplete_iff repr tag sessions, messageComplete_iff repr request messages⟩

end Complete

/-! ### A session behind the last page that is read -/

/-- A session that carries the tag `triage-1`. -/
def demoSession : Value :=
  .dict [("session_id", .str "devin-7"), ("status", .str "running"),
    ("tags", .list [.str "triage-1"])]

/-- Five pages without the tag, and the session on the sixth. -/
def demoSessions : Listing (Raised DevinError) Value sessionsPage where
  pages := [[], [], [], [], [], [demoSession]]
  answer
    | 0 | 1 | 2 | 3 | 4 =>
        .ok (.dict [("items", .list []), ("has_next_page", .bool true), ("end_cursor", .str "c")])
    | 5 => .ok (.dict [("items", .list [demoSession]), ("has_next_page", .bool false)])
    | _ => .ok .null
  honest := by
    intro k page xs hanswer hentries
    rcases k with _ | _ | _ | _ | _ | _ | k
    all_goals
      obtain rfl := Except.ok.inj hanswer
      first
        | (obtain rfl := Option.some.inj hentries; rfl)
        | cases hentries

/-- The reader concludes that no session carries the tag. -/
theorem session_behind_cap_missed :
    ¬∀ (repr : Value → String) (tag : String)
      (l : Listing (Raised DevinError) Value sessionsPage), SessionsComplete repr tag l := by
  intro h
  have hall := h (fun _ => "") "triage-1" demoSessions [] rfl
  have hlen := congrArg List.length hall
  revert hlen
  decide

end Remediator.Clients
