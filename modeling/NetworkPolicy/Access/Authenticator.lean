import NetworkPolicy.Access.Bearer
import NetworkPolicy.Access.Collaborators

/-! Which callers a route lets in. -/

namespace NetworkPolicy

/-- Why a caller is not let in. -/
inductive AuthError where
  | credentials (f : CredentialFault)
  /-- The token service does not vouch for the token. -/
  | unverified
  | missingScope (granted allowed : List String)
  deriving DecidableEq, Repr

/-- The error in words. -/
def AuthError.message : AuthError → String
  | credentials f => f.message
  | unverified => "failed to verify token with uaa"
  | missingScope granted allowed =>
    "provided scopes [" ++ " ".intercalate granted ++ "] do not include allowed scopes [" ++
      " ".intercalate allowed ++ "]"

/-- The scopes of which a caller needs one; none if every caller is let in. -/
abbrev AllowedScopes := Option (List String)

namespace AllowedScopes

def admin : AllowedScopes := some [Caller.adminScope]

/-- Callers that may write need a scope only where scopes are checked. -/
def write (checking : Bool) : AllowedScopes :=
  if checking then some [Caller.adminScope, Caller.writeScope] else none

/-- Lets a caller in, or says which scope is missing. -/
def accept (allowed : AllowedScopes) (c : Caller) : Except AuthError Caller :=
  match allowed with
  | none => .ok c
  | some scopes =>
    if scopes.any c.hasScope then .ok c else .error (.missingScope c.scopes scopes)

end AllowedScopes

/-- The caller of a request, by its `Authorization` header. -/
def authenticate {κ : Type} (c : Collaborators κ) (allowed : AllowedScopes)
    (header : Option String) (k : κ) : Except AuthError Caller × κ :=
  match Bearer.parse header with
  | .error f => (.error (.credentials f), k)
  | .ok token =>
    match c.checkToken token k with
    | (.answer (.ok caller), k) => (allowed.accept caller, k)
    | (_, k) => (.error .unverified, k)

end NetworkPolicy
