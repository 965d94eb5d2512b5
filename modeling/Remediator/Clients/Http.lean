import Remediator.Lib.Json

set_option autoImplicit false

/-! # Replies

What a client of a remote service meets when it sends a request, and how its errors are told
apart.
-/

namespace Remediator.Clients

/-- An `httpx.HTTPError`, by the name of its class, or a response. -/
inductive Reply (Body : Type)
  | failed (error : String)
  | response (status : Nat) (body : Body)

/-- A body, decoded: `none` is one that is not JSON. -/
abbrev JsonBody := Option Json.Value

/-- A client raises its own exception, or lets one of Python's escape. -/
inductive Raised (ε : Type)
  | client (e : ε)
  | python (e : Json.Exc)

/-- An exception of Python, as it leaves a client. -/
def escape {ε α : Type} : Except Json.Exc α → Except (Raised ε) α
  | .ok a => .ok a
  | .error e => .error (.python e)

end Remediator.Clients
