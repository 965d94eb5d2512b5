import Mathlib.Algebra.Ring.Nat
import Remediator.Clients.Http
import Remediator.Devin.Status

set_option autoImplicit false

/-! # The Devin client

`remediator/devin/live.py`, as far as it reads sessions. Only transport errors and error statuses
become a `DevinError`; what goes wrong while a body is decoded leaves the client as it is.
-/

namespace Remediator.Clients

open Json

/-! ## Snapshots -/

/-- `SessionSnapshot`, without the columns that are only displayed. -/
structure SessionSnapshot where
  sessionId : String
  status : String
  statusDetail : Option String
  tags : List String
  structuredOutput : Option (List (String × Value))
  pullRequests : List String

/-- `parse_pull_requests`. -/
def parsePullRequests : Option Value → List String
  | some (.list items) => items.filterMap (fun item =>
      match item with
      | .dict fields =>
          match List.lookup "pr_url" fields with
          | some (.str url) => if url = "" then none else some url
          | _ => none
      | _ => none)
  | _ => []

/-- `datetime.fromtimestamp(seconds, tz=UTC)`: the years 1 to 9999; `gmtime` has no years beyond
those of a C `int`, and there are no seconds beyond 64 bits. -/
def fromTimestamp (seconds : Int) : Except Exc Unit :=
  if -62135596800 ≤ seconds ∧ seconds ≤ 253402300799 then .ok ()
  else if seconds < -9223372036854775808 ∨ 9223372036854775808 ≤ seconds then .error .overflowError
  else if seconds < -67768040609740800 ∨ 67768036191676800 ≤ seconds then .error .osError
  else .error .valueError

/-- `datetime.fromtimestamp(int(updated), tz=UTC)` if `updated` is a number. -/
def readUpdatedAt : Option Value → Except Exc Unit
  | some (.number (.int n)) => fromTimestamp n
  | some (.number (.finite q)) => fromTimestamp (if 0 ≤ q then q.floor else q.ceil)
  | some (.number .negativeZero) => fromTimestamp 0
  | some (.number (.infinite _)) => .error .overflowError
  | some (.number .nan) => .error .valueError
  | _ => .ok ()

/-- `float(acus)` if `acus` is a number: an integer beyond the largest float overflows. -/
def readAcus : Option Value → Except Exc Unit
  | some (.number (.int n)) =>
      if n.natAbs < 2 ^ 1024 - 2 ^ 970 then .ok () else .error .overflowError
  | _ => .ok ()

/-- `str(payload.get(key, ""))`. -/
def textOr (repr : Value → String) (found : Option Value) : String :=
  match found with
  | some value => value.text repr
  | none => ""

/-- `str(value) if value is not None else None`. -/
def textOrNone (repr : Value → String) (found : Option Value) : Option String :=
  match found with
  | some .null => none
  | some value => some (value.text repr)
  | none => none

/-- `str(found)`, unless the key is missing. -/
def displayed (repr : Value → Except Exc String) : Option Value → Except Exc String
  | some value => value.display repr
  | none => .ok ""

/-- `str(found) if found is not None else None`. -/
def displayedOrNone (repr : Value → Except Exc String) :
    Option Value → Except Exc (Option String)
  | some .null | none => .ok none
  | some value => (value.display repr).map some

/-- `_parse_snapshot`. -/
def parseSnapshot (repr : Value → Except Exc String) : Value → Except Exc SessionSnapshot
  | .dict payload => do
      readUpdatedAt (List.lookup "updated_at" payload)
      match List.lookup "session_id" payload with
      | none => .error .keyError
      | some sessionId =>
          let sessionId ← sessionId.display repr
          let _ ← displayed repr (List.lookup "url" payload)
          let status ← displayed repr (List.lookup "status" payload)
          let statusDetail ← displayedOrNone repr (List.lookup "status_detail" payload)
          let tags ← iterateOrNil (List.lookup "tags" payload)
          let tags ← tags.mapM (·.display repr)
          readAcus (List.lookup "acus_consumed" payload)
          .ok {
            sessionId
            status
            statusDetail
            tags
            structuredOutput := match List.lookup "structured_output" payload with
              | some (.dict output) => some output
              | _ => none
            pullRequests := parsePullRequests (List.lookup "pull_requests" payload) }
  | _ => .error .attributeError

/-! ## Reads -/

/-- `DevinError`, by its subclasses. -/
inductive DevinError
  | transport
  | api (status : Nat)
  | sessionNotFound
  deriving DecidableEq

/-- `RETRYABLE_STATUS_CODES`. -/
def devinRetryable : List Nat := [408, 425, 429, 500, 502, 503, 504]

/-- The body of a response: what `response.json()` and `response.text` make of it. -/
structure Body where
  json : Except Exc Value
  text : Except Exc String

/-- The keys under which an API explains its refusal. -/
def problemKeys : List String := ["detail", "title", "message", "error"]

/-- The first of the keys under which there is a text. -/
def problemText (fields : List (String × Value)) : Option String :=
  problemKeys.findSome? fun key =>
    match List.lookup key fields with
    | some (.str s) => some s
    | _ => none

/-- `text[:500]`. -/
def shorten (text : String) : String := String.ofList (text.toList.take 500)

/-- `_problem_message`: a body that is not JSON is quoted, and any other exception leaves it. -/
def problemMessage (repr : Value → Except Exc String) (body : Body) : Except Exc String :=
  match body.json with
  | .error .valueError => body.text.map shorten
  | .error e => .error e
  | .ok (.dict fields) =>
      match problemText fields with
      | some text => .ok (shorten text)
      | none => (repr (.dict fields)).map shorten
  | .ok value => (value.display repr).map shorten

/-- The loop of `_get_with_retries`: at most `n` more requests, the next being the `k`-th, after
an error. The message of an error is made at once, and only logged. -/
def retryLoop (repr : Value → Except Exc String) (reply : Nat → Reply Body) :
    Nat → Nat → DevinError → Except (Raised DevinError) Value
  | 0, _, last => .error (.client last)
  | n + 1, k, _ =>
      match reply k with
      | .failed _ => retryLoop repr reply n (k + 1) .transport
      | .response status body =>
          if status ∈ devinRetryable then
            match problemMessage repr body with
            | .ok _ => retryLoop repr reply n (k + 1) (.api status)
            | .error e => .error (.python e)
          else if 400 ≤ status then
            match problemMessage repr body with
            | .ok _ => .error (.client (.api status))
            | .error e => .error (.python e)
          else escape body.json

/-- `_get_with_retries`; there is at least one request, so that the error it starts with is never
raised. -/
def getWithRetries (repr : Value → Except Exc String) (maxRetries : Nat)
    (reply : Nat → Reply Body) : Except (Raised DevinError) Value :=
  retryLoop repr reply (maxRetries + 1) 0 .transport

/-- `get_session`. -/
def getSession (repr : Value → Except Exc String) (maxRetries : Nat) (reply : Nat → Reply Body) :
    Except (Raised DevinError) SessionSnapshot :=
  match getWithRetries repr maxRetries reply with
  | .ok payload => escape (parseSnapshot repr payload)
  | .error (.client (.api 404)) => .error (.client .sessionNotFound)
  | .error e => .error e

end Remediator.Clients
