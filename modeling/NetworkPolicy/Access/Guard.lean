import NetworkPolicy.Access.Collaborators
import NetworkPolicy.Policy.Basic

/-! Who may write which policies, who sees which, and how many there may be. -/

namespace NetworkPolicy

variable {κ : Type}

/-- Whether a caller may write policies: an administrator always, another if every application that
they name exists and lies in a space where the caller is a developer. -/
def mayWrite (c : Collaborators κ) (caller : Caller) (ps : List Policy) : Inquiry κ Bool := do
  let apps := namedApps ps
  if caller.isAdmin || apps.isEmpty then return true
  let token ← Inquiry.ask c.serviceToken
  let spaces ← Inquiry.ask (c.appSpaces token apps)
  if apps.any fun a => (spaces.space? a).isNone then return false
  let own ← Inquiry.ask (c.userSpaces token caller.userId)
  return spaces.all fun e => own.contains e.2

/-- The spaces of applications, looked up in batches. -/
def lookUpSpaces (c : Collaborators κ) (token : String) :
    List (List String) → Spaces → Inquiry κ Spaces
  | [], known => pure known
  | apps :: rest, known => do
    let found ← Inquiry.ask (c.appSpaces token apps)
    lookUpSpaces c token rest (known.putAll found)

/-- Whether an application lies in one of a caller's own spaces. -/
def isOwn (spaces : Spaces) (own : List String) (app : String) : Bool :=
  (spaces.space? app).any own.contains

/-- The policies that a caller sees: an administrator all, another those between applications in
spaces where the caller is a developer. -/
def visible (c : Collaborators κ) (batchSize : Nat) (caller : Caller) (ps : List Policy) :
    Inquiry κ (List Policy) := do
  if caller.isAdmin || ps.isEmpty then return ps
  let token ← Inquiry.ask c.serviceToken
  let spaces ← lookUpSpaces c token (batches batchSize (namedApps ps)) []
  let own ← Inquiry.ask (c.userSpaces token caller.userId)
  return ps.filter fun p => isOwn spaces own p.source.id && isOwn spaces own p.destination.id

/-- Whether so many more policies may be stored. Both numbers are lengths of lists in memory and so
below 2^63: a sum of 64 bits that stops at the greatest number is the plain sum here. -/
def withinQuota (maxPolicies stored more : Nat) : Bool := stored + more ≤ maxPolicies

end NetworkPolicy
