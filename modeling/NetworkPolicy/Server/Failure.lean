import NetworkPolicy.Access.Authenticator
import NetworkPolicy.Http.Message
import NetworkPolicy.Server.Cleaner

/-! Requests that fail: the response, and the event that tells why. -/

namespace NetworkPolicy

open Http (Response)

/-- What a failed request is answered with. -/
structure Failure where
  status : Nat
  /-- What was being done. -/
  context : String
  description : String
  deriving DecidableEq, Repr

namespace Failure

def message (f : Failure) : String := s!"{f.context}: {f.description}"

def response (f : Failure) : Response where
  status := f.status
  contentType := some "application/json"
  body := (Json.object [("error", .text f.message)]).render

/-- The failure to let a caller in. -/
def ofAuth (e : AuthError) : Failure where
  status := match e with
    | .credentials _ => 401
    | .unverified | .missingScope _ _ => 403
  context := "authenticator"
  description := e.message

end Failure

/-- The part of a request's handling that may fail. -/
abbrev Pipeline (σ κ α : Type) := Task σ κ Failure α

namespace Service

variable {σ κ ε α : Type} (s : Service σ κ)

/-- Fails, and logs why. -/
def refuse (sessions : List String) (event cause : String) (f : Failure) : Pipeline σ κ α := do
  s.logFailure sessions event cause (.object [("context", .text f.context)])
  throw f

/-- The result of a step; its failure is logged. -/
def require (sessions : List String) (event : String) (cause : ε → String) (f : ε → Failure)
    (step : Effect σ κ (Except ε α)) : Pipeline σ κ α := do
  match ← (step : Pipeline σ κ _) with
  | .ok a => return a
  | .error e => s.refuse sessions event (cause e) (f e)

end Service
end NetworkPolicy
