import NetworkPolicy.Client.Listing

/-! The directory of applications, spaces and roles. -/

namespace NetworkPolicy.Client

/-- Where the directory is. -/
structure Directory where
  base : Url
  deriving DecidableEq, Repr

/-- An application as it is listed. -/
structure App where
  guid : String := ""
  space : Option String := none
  deriving DecidableEq, Repr

section Readers

open Json.Reader

/-- Reads the space that a resource belongs to, if it does to one. -/
def spaceReader : Json.Reader (Option String) :=
  let reference := record "Reference" [field "guid" text fun v _ => v] ""
  let toOne := record "ToOne" [optionalField "data" reference fun v _ => v] none
  record "SpaceRelationship" [field "space" toOne fun v _ => v] none

def App.reader : Json.Reader App := record "AppResource" [
  field "guid" text fun v a => { a with guid := v },
  field "relationships" spaceReader fun v a => { a with space := v }] {}

/-- Reads the space of a role. -/
def roleReader : Json.Reader (Option String) :=
  record "RoleResource" [field "relationships" spaceReader fun v _ => v] none

end Readers

namespace Directory

/-- What a URL that cannot be used counts as. -/
def invalidUrl (f : Url.Fault) : ServiceError := .invalidResponse s!"cc url: {f.message}"

def ofText (text : String) : Except ServiceError Directory :=
  match Url.parse text.toList with
  | .ok u => .ok ⟨u⟩
  | .error f => .error (invalidUrl f)

/-- How many resources a page is to have. -/
def perPage : Nat := 5000

/-- The URL of the listing of that name, narrowed down by pairs. -/
def listingUrl (d : Directory) (name : String) (pairs : List (String × String)) :
    Except ServiceError Url :=
  match d.base.resolve ["v3", name] with
  | .ok u => .ok (u.withQuery (pairs ++ [("per_page", toString perPage)]))
  | .error f => .error (invalidUrl f)

/-- The listing of applications. -/
def appsUrl (d : Directory) (apps : List String) : Except ServiceError Url :=
  d.listingUrl "apps" [("guids", ",".intercalate apps)]

/-- The listing of the roles in which a user is a developer. -/
def rolesUrl (d : Directory) (user : String) : Except ServiceError Url :=
  d.listingUrl "roles" [("user_guids", user), ("types", "space_developer")]

variable {τ : Type} (send : Transport τ) (d : Directory) (token : String)

/-- Those applications that are listed; without any, nothing is asked. -/
def apps (guids : List String) : Inquiry τ (List App) := do
  if guids.isEmpty then return []
  fetchAll send token App.reader (← d.appsUrl guids)

/-- The spaces of applications. -/
def appSpaces (guids : List String) : Inquiry τ Spaces := do
  let found ← d.apps send token guids
  return Spaces.putAll [] (found.filterMap fun a => a.space.map (a.guid, ·))

/-- The spaces in which a user is a developer. -/
def userSpaces (user : String) : Inquiry τ (List String) := do
  let roles ← fetchAll send token roleReader (← d.rolesUrl user)
  return (roles.filterMap id).eraseDups

/-- Those applications that exist. -/
def liveApps (guids : List String) : Inquiry τ (List String) := do
  return ((← d.apps send token guids).map (·.guid)).eraseDups

end Directory
end NetworkPolicy.Client
