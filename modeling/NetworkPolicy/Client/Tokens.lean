import NetworkPolicy.Client.Call
import NetworkPolicy.Config.Basic

/-! The service that issues and checks tokens. -/

namespace NetworkPolicy.Client

/-- Where the token service is, and as whom it is called. -/
structure Tokens where
  base : String
  client : String
  secret : String
  deriving DecidableEq, Repr

open Json.Reader in
/-- Reads a token that was issued. -/
def issuedReader : Json.Reader String :=
  record "AccessTokenResponse" [field "access_token" text fun v _ => v] ""

namespace Tokens

/-- The token service at an address, whose last slashes count for nothing. -/
def ofAddress (address client secret : String) : Tokens :=
  ⟨Config.withoutLastSlashes address, client, secret⟩

variable {τ : Type} (send : Transport τ) (t : Tokens)

/-- Sends a form to a path of the service. -/
def post (path : String) (pairs : List (String × String)) : Inquiry τ (List UInt8) :=
  exchange send "uaa" (Call.to "POST" (t.base ++ path).toList (basic t.client t.secret)
    (some (String.ofList (Form.render pairs))))

/-- Whose token this is. -/
def check (token : String) : Inquiry τ Caller := do
  readBody "check_token" Caller.reader (← t.post send "/check_token" [("token", token)])

/-- A token for the server itself. -/
def issue : Inquiry τ String := do
  readBody "oauth token" issuedReader
    (← t.post send "/oauth/token" [("grant_type", "client_credentials")])

end Tokens
end NetworkPolicy.Client
