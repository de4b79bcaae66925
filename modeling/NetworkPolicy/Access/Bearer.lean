import NetworkPolicy.Text.Blank

/-! Bearer credentials: the word `bearer`, a space and a token. -/

namespace NetworkPolicy

/-- Why a request carries no token. -/
inductive CredentialFault where
  | missing
  | tooLarge
  | malformed
  deriving DecidableEq, Repr

/-- The fault in words. -/
def CredentialFault.message : CredentialFault → String
  | missing => "missing authorization header"
  | tooLarge => "authorization header too large"
  | malformed => "invalid authorization header"

namespace Bearer

/-- The longest header that is looked at, in bytes. -/
def maxBytes : Nat := 8192

/-- The token of a header's text. Blanks around it, and around the token, count for nothing; the
scheme is in letters of either case. -/
def token? (cs : List Char) : Option (List Char) :=
  let cs := Text.trim cs
  let scheme := cs.takeWhile (· != ' ')
  let token := Text.trim (cs.drop (scheme.length + 1))
  if scheme.map Char.toLower = "bearer".toList && !token.isEmpty then some token else none

/-- The token of an `Authorization` header. -/
def parse : Option String → Except CredentialFault String
  | none => .error .missing
  | some header =>
    if maxBytes < header.utf8ByteSize then .error .tooLarge
    else
      match token? header.toList with
      | some token => .ok (String.ofList token)
      | none => .error .malformed

end Bearer
end NetworkPolicy
