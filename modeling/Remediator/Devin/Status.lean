import Mathlib.Tactic.Common
import Remediator.Models

set_option autoImplicit false

/-! # Session statuses

`remediator/devin/status.py` and `DevinRunner._disposition`: what a reported `status` and
`status_detail` mean for the worker. Anything outside the documented values is `unknown`, so
the worker keeps observing the session.
-/

namespace Remediator.Devin

/-- `Disposition`. -/
inductive Disposition
  | live
  | finished
  | waitingForHuman
  | failed
  | unknown
  deriving DecidableEq

/-- `StatusMapping`; `remoteTerminal` says that the session is stopped remotely, so that no
`DELETE` is needed. -/
structure StatusMapping where
  disposition : Disposition
  remoteTerminal : Bool := false
  deriving DecidableEq

/-- `str.isspace` of one character. -/
def isSpace (c : Char) : Bool :=
  let n := c.toNat
  (9 ≤ n && n ≤ 13) || (28 ≤ n && n ≤ 32) || n == 0x85 || n == 0xA0 || n == 0x1680 ||
    (0x2000 ≤ n && n ≤ 0x200A) || n == 0x2028 || n == 0x2029 || n == 0x202F || n == 0x205F ||
    n == 0x3000

/-- `str.lower` as far as it can produce an ASCII letter: the Kelvin sign is the one other
character whose lower case is one. -/
def lower (c : Char) : Char := if c.toNat == 0x212A then 'k' else c.toLower

/-- `.strip()`. -/
def trim (text : String) : String :=
  String.ofList (((text.toList.dropWhile isSpace).reverse.dropWhile isSpace).reverse)

/-- `.strip().lower()`. -/
def normalize (text : String) : String := String.ofList ((trim text).toList.map lower)

def liveStatuses : List String := ["new", "claimed", "running", "resuming"]

def waitingDetails : List String := ["waiting_for_user", "waiting_for_approval"]

def billingDetails : List String :=
  ["usage_limit_exceeded", "out_of_credits", "out_of_quota", "no_quota_allocation",
    "payment_declined", "org_usage_limit_exceeded", "user_usage_limit_exceeded",
    "total_session_limit_exceeded"]

def resumableSuspensionDetails : List String := ["inactivity", "user_request"]

/-- `classify`. A missing detail and a blank one are the same. -/
def classify (status statusDetail : String) : StatusMapping :=
  let status := normalize status
  let detail := normalize statusDetail
  if status = "exit" then ⟨.finished, true⟩
  else if status = "error" then ⟨.failed, true⟩
  else if status = "suspended" then
    if detail ∈ billingDetails then ⟨.failed, true⟩
    else if detail ∈ resumableSuspensionDetails then ⟨.waitingForHuman, true⟩
    else if detail = "error" then ⟨.failed, true⟩
    else if detail ∈ waitingDetails then ⟨.waitingForHuman, true⟩
    else ⟨.unknown, true⟩
  else if status ∈ liveStatuses then
    if detail = "" ∨ detail = "working" then ⟨.live, false⟩
    else if detail = "finished" then ⟨.finished, false⟩
    else if detail ∈ waitingDetails then ⟨.waitingForHuman, false⟩
    else if detail ∈ billingDetails then ⟨.failed, false⟩
    else if detail = "error" then ⟨.failed, false⟩
    else if detail ∈ resumableSuspensionDetails then ⟨.waitingForHuman, false⟩
    else ⟨.unknown, false⟩
  else ⟨.unknown, false⟩

/-- `SessionSnapshot`, with the URLs of its `pull_requests[]`. -/
structure SessionSnapshot where
  status : String
  statusDetail : String
  structuredOutput : Option Doc
  pullRequests : List String

/-- A session that waits for the user after it has submitted its output has finished. -/
def StatusMapping.withOutput (m : StatusMapping) (output : Bool) : StatusMapping :=
  if m.disposition = .waitingForHuman ∧ output = true then ⟨.finished, m.remoteTerminal⟩ else m

/-- `DevinRunner._disposition`. -/
def disposition (snapshot : SessionSnapshot) : StatusMapping :=
  (classify snapshot.status snapshot.statusDetail).withOutput snapshot.structuredOutput.isSome

end Remediator.Devin
