import NetworkPolicy.Store.Basic

/-! The tables of a store in a database, and the effect of each statement on them. Rows are held by
increasing id. -/

namespace NetworkPolicy.Database

/-- A group, assigned or free. -/
structure GroupRow where
  id : Int
  guid : Option String
  deriving DecidableEq, Repr

/-- Where policies lead to. -/
structure DestinationRow where
  id : Int
  group : Int
  first : Int
  last : Int
  protocol : String
  deriving DecidableEq, Repr

/-- A source group and a destination. -/
structure PolicyRow where
  id : Int
  group : Int
  destination : Int
  deriving DecidableEq, Repr

/-- The tables. Ids of new destinations and policies are never used twice. -/
structure Tables where
  /-- Schema versions; the first counts. -/
  versions : List Int := []
  groups : List GroupRow := []
  destinations : List DestinationRow := []
  policies : List PolicyRow := []
  nextDestination : Int := 1
  nextPolicy : Int := 1
  /-- The table of policies exists. -/
  hasPolicies : Bool := false
  deriving DecidableEq, Repr

/-- A policy row joined with its groups and destination. -/
structure JoinedRow where
  source : GroupRow
  destination : GroupRow
  protocol : String
  first : Int
  last : Int
  deriving DecidableEq, Repr

namespace Tables

/-- The group of an application. -/
def groupOf? (t : Tables) (guid : String) : Option Int :=
  (t.groups.find? (·.guid == some guid)).map (·.id)

/-- The lowest free group. -/
def freeGroup? (t : Tables) : Option Int := (t.groups.find? (·.guid.isNone)).map (·.id)

/-- Assigns a group, or frees it. -/
def setGroup (t : Tables) (id : Int) (guid : Option String) : Tables :=
  { t with groups := t.groups.map fun g => if g.id = id then { g with guid := guid } else g }

/-- The destination with the given contents. -/
def destinationOf? (t : Tables) (group first last : Int) (protocol : String) : Option Int :=
  (t.destinations.find? fun d =>
    d.group == group && d.first == first && d.last == last && d.protocol == protocol).map (·.id)

/-- Adds a destination; also gives its id. -/
def addDestination (t : Tables) (group first last : Int) (protocol : String) : Int × Tables :=
  (t.nextDestination,
    { t with
      destinations := t.destinations ++ [⟨t.nextDestination, group, first, last, protocol⟩]
      nextDestination := t.nextDestination + 1 })

/-- Adds a policy unless there is one for the same group and destination. -/
def addPolicy (t : Tables) (group destination : Int) : Tables :=
  if t.policies.any fun p => p.group == group && p.destination == destination then t
  else
    { t with
      policies := t.policies ++ [⟨t.nextPolicy, group, destination⟩]
      nextPolicy := t.nextPolicy + 1 }

/-- Removes the policy for a group and destination. -/
def removePolicy (t : Tables) (group destination : Int) : Tables :=
  { t with
    policies := t.policies.filter fun p => !(p.group == group && p.destination == destination) }

/-- Removes a destination unless a policy uses it. -/
def removeUnusedDestination (t : Tables) (id : Int) : Tables :=
  if t.policies.any (·.destination == id) then t
  else { t with destinations := t.destinations.filter (·.id != id) }

def destination? (t : Tables) (id : Int) : Option DestinationRow :=
  t.destinations.find? (·.id == id)

def group? (t : Tables) (id : Int) : Option GroupRow := t.groups.find? (·.id == id)

/-- Whether a policy uses the group as source or destination. -/
def references (t : Tables) (id : Int) : Bool :=
  t.policies.any fun p =>
    match t.destination? p.destination with
    | some d => p.group == id || d.group == id
    | none => false

/-- A policy row with its groups and destination, if they exist. -/
def join (t : Tables) (p : PolicyRow) : Option JoinedRow := do
  let source ← t.group? p.group
  let d ← t.destination? p.destination
  let destination ← t.group? d.group
  return ⟨source, destination, d.protocol, d.first, d.last⟩

/-- All policies by id. -/
def joined (t : Tables) : List JoinedRow := t.policies.filterMap t.join

/-- The policies with a source among the first or a destination among the second. -/
def joinedFor (t : Tables) (sources destinations : List String) : List JoinedRow :=
  t.joined.filter fun r =>
    r.source.guid.any sources.contains || r.destination.guid.any destinations.contains

/-- The assigned groups by id. -/
def assigned (t : Tables) : List (Int × String) :=
  t.groups.filterMap fun g => g.guid.map (g.id, ·)

/-- Adds those of the groups with increasing ids that do not exist. -/
def addGroups (t : Tables) (ids : List Int) : Tables :=
  let wanted := ids.map fun id => (⟨id, none⟩ : GroupRow)
  { t with groups :=
      (t.groups.merge wanted fun a b => a.id ≤ b.id).eraseRepsBy fun a b => a.id == b.id }

/-- Adds those of the groups `1` to `size` that do not exist. -/
def provision (t : Tables) (size : Nat) : Tables :=
  t.addGroups ((List.range size).map fun i : Nat => (i : Int) + 1)

/-- Creates the tables that do not exist. -/
def createMissing (t : Tables) : Tables := { t with hasPolicies := true }

/-- Removes the table of policies. -/
def dropPolicies (t : Tables) : Tables := { t with policies := [], hasPolicies := false }

/-- Gives a group another id, also where it is referred to. -/
def renumber (t : Tables) (old new : Int) : Tables :=
  let f (id : Int) : Int := if id = old then new else id
  { t with
    groups := (t.groups.map fun g => { g with id := f g.id }).mergeSort fun a b => a.id ≤ b.id
    destinations := t.destinations.map fun d => { d with group := f d.group }
    policies := t.policies.map fun p => { p with group := f p.group } }

/-- Gives every destination the same ports. -/
def overwritePorts (t : Tables) (first last : Int) : Tables :=
  { t with destinations := t.destinations.map fun d => { d with first := first, last := last } }

end Tables
end NetworkPolicy.Database
