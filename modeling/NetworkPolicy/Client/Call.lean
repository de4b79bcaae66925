import NetworkPolicy.Access.Collaborators
import NetworkPolicy.Text.Base64
import NetworkPolicy.Url.Basic

/-! Calls to other services over HTTP. -/

namespace NetworkPolicy.Client

/-- A request to another service. -/
structure Call where
  method : String
  url : Url
  /-- The first header that says who calls. -/
  authorization : String
  contentType : Option String := none
  body : String := ""
  deriving DecidableEq, Repr

/-- What a service sends back. -/
structure Answer where
  status : Nat
  body : List UInt8
  deriving DecidableEq, Repr

/-- How calls reach other services: the answer, or why there is none. -/
abbrev Transport (τ : Type) := Call → τ → Except String Answer × τ

/-- The credentials of a user. -/
def basic (user password : String) : String :=
  "Basic " ++ String.ofList (Base64.encode (user ++ ":" ++ password).toUTF8.toList)

/-- The credential of whoever holds a token. -/
def bearer (token : String) : String := "Bearer " ++ token

/-- Headers hold no controls but tabs. -/
def isHeaderText (s : String) : Bool :=
  s.toList.all fun c => c == '\t' || (' ' ≤ c && c != '\x7f')

/-- The longest link that is followed. -/
def maxLink : Nat := 65534

/-- Whether a URL can be asked for: its host is named, in characters that a request line takes. -/
def isReachable (u : Url) : Bool :=
  let host := u.authority.elim [] (·.host.render)
  !host.isEmpty && !host.any ("\"`".toList ++ ['{', '}']).contains &&
    (u.scheme == "http".toList || u.scheme == "https".toList) && u.render.length ≤ maxLink

/-- The text that was percent-encoded, if it is one. -/
def decoded? (cs : List Char) : Option String := do
  let cs ← Text.strict? (Text.ofByteList (Percent.decode (Percent.bytes cs)))
  return String.ofList cs

/-- The user that a URL names, and their password. -/
def userOf? (u : Url) : Option (String × String) := do
  let a ← u.authority
  let user ← decoded? a.user
  let password := a.password.bind decoded?
  if user.isEmpty && password.isNone then none else some (user, password.getD "")

/-- A URL that names no user. -/
def withoutUser (u : Url) : Url :=
  { u with authority := u.authority.map fun a => { a with user := [], password := none } }

/-- The call to a link, unless it or the credential cannot be sent. A user that the link names takes
the place of the one who calls. -/
def Call.to (method : String) (link : List Char) (authorization : String)
    (form : Option String := none) : Except String Call :=
  match Url.parse link with
  | .error f => .error f.message
  | .ok url =>
    if !isReachable url then .error "unusable link"
    else if !isHeaderText authorization then .error "unusable credential"
    else
      let contentType := form.map fun _ => "application/x-www-form-urlencoded"
      match userOf? url with
      | some (user, password) =>
        .ok ⟨method, withoutUser url, basic user password, contentType, form.getD ""⟩
      | none => .ok ⟨method, url, authorization, contentType, form.getD ""⟩

variable {τ : Type}

/-- Makes a call, and gives the body of a successful answer. -/
def exchange (send : Transport τ) (service : String) (call : Except String Call) :
    Inquiry τ (List UInt8) := fun t =>
  match call with
  | .error cause => (.error (.unavailable cause), t)
  | .ok call =>
    match send call t with
    | (.error cause, t) => (.error (.unavailable cause), t)
    | (.ok answer, t) =>
      if Http.isSuccess answer.status then (.ok answer.body, t)
      else (.error (.ofStatus service answer.status), t)

/-- Reads the body of an answer; `what` names it in an error. -/
def readBody {α : Type} (what : String) (r : Json.Reader α) (body : List UInt8) :
    Inquiry τ α :=
  match Json.Reader.ofText r (Text.ofByteList body) with
  | .ok a => pure a
  | .error e => throw (.invalidResponse s!"{what}: {e.message}")

end NetworkPolicy.Client
