import NetworkPolicy.OrderedMap
import NetworkPolicy.Store.Basic

/-! The store that keeps its policies in memory. -/

namespace NetworkPolicy

/-- Groups `1` to `size`. The assignments are held twice, in two maps that each change by
themselves. -/
@[ext]
structure GroupPool where
  size : Nat
  /-- The application of each assigned group. -/
  byId : OrderedMap Nat String := []
  /-- The group of each application that has one. -/
  byGuid : OrderedMap String Nat := []
  deriving DecidableEq, Repr

namespace GroupPool

/-- The group of an application. -/
def idOf? (p : GroupPool) (guid : String) : Option Nat := p.byGuid.get? guid

/-- The application of a group. -/
def guidOf? (p : GroupPool) (id : Nat) : Option String := p.byId.get? id

/-- The first of so many groups from `id` on that is not assigned. -/
def firstFree? (p : GroupPool) (id : Nat) : Nat → Option Nat
  | 0 => none
  | count + 1 => if (p.guidOf? id).isNone then some id else p.firstFree? (id + 1) count

/-- The lowest group that is not assigned. -/
def lowestFree? (p : GroupPool) : Option Nat := p.firstFree? 1 p.size

/-- The group of an application; a new one gets the lowest free group. -/
def claim (p : GroupPool) (guid : String) : Except StoreError (Nat × GroupPool) :=
  match p.idOf? guid with
  | some id => .ok (id, p)
  | none =>
    match p.lowestFree? with
    | none => .error (.capacity "group pool exhausted")
    | some free =>
      let p := { p with byId := p.byId.insert free guid }
      let p := { p with byGuid := p.byGuid.insert guid free }
      .ok (free, p)

/-- Frees a group, and takes the application that had it out of the other map. -/
def release (p : GroupPool) (id : Nat) : GroupPool :=
  match p.guidOf? id with
  | none => p
  | some guid =>
    let p := { p with byId := p.byId.erase id }
    { p with byGuid := p.byGuid.erase guid }

end GroupPool

/-- A stored policy; its applications are given by their groups. -/
structure MemoryRow where
  source : Nat
  destination : Nat
  protocol : String
  ports : Ports
  deriving DecidableEq, Repr

/-- A store in memory; its rows are in the order of creation. -/
@[ext]
structure MemoryStore where
  tagLength : TagLength
  groups : GroupPool
  rows : List MemoryRow := []
  deriving DecidableEq, Repr

namespace MemoryStore

/-- An empty store. -/
def empty (tagLength : TagLength) (poolSize : Nat) : MemoryStore :=
  ⟨tagLength, { size := poolSize }, []⟩

/-- The application of a group that a row names. -/
def guidOf (s : MemoryStore) (id : Nat) : Except StoreError String :=
  match s.groups.guidOf? id with
  | some guid => .ok guid
  | none => .error (.corrupt s!"policy references free group {id}")

/-- The policy of a row, with its tags. -/
def resolve (s : MemoryStore) (r : MemoryRow) : Except StoreError Policy := do
  let source ← s.guidOf r.source
  let destination ← s.guidOf r.destination
  return ⟨⟨source, s.tagLength.render r.source⟩,
    ⟨destination, s.tagLength.render r.destination, r.protocol, r.ports⟩⟩

/-- Whether a row names the group. -/
def references (s : MemoryStore) (id : Nat) : Bool :=
  s.rows.any fun r => r.source == id || r.destination == id

/-- Adds a policy unless it is stored already. -/
def createOne (s : MemoryStore) (p : Policy) : Except StoreError MemoryStore := do
  let (source, groups) ← s.groups.claim p.source.id
  let (destination, groups) ← groups.claim p.destination.id
  let row : MemoryRow := ⟨source, destination, p.destination.protocol, p.destination.ports⟩
  return { s with
    groups := groups
    rows := if s.rows.contains row then s.rows else s.rows ++ [row] }

/-- Removes a policy's row; also gives the groups of its applications when both have one. -/
def deleteOne (s : MemoryStore) (p : Policy) : MemoryStore × List Nat :=
  match s.groups.idOf? p.source.id, s.groups.idOf? p.destination.id with
  | some source, some destination =>
    let row : MemoryRow := ⟨source, destination, p.destination.protocol, p.destination.ports⟩
    ({ s with rows := s.rows.filter (· != row) }, [source, destination])
  | _, _ => (s, [])

/-- Removes the rows of a batch; also gives the groups that were touched. -/
def deleteRows (s : MemoryStore) : List Policy → MemoryStore × List Nat
  | [] => (s, [])
  | p :: ps =>
    let (s, ids) := s.deleteOne p
    let (s, more) := s.deleteRows ps
    (s, ids ++ more)

/-- Frees those of the groups that no row names. -/
def releaseUnused (s : MemoryStore) (ids : List Nat) : MemoryStore :=
  { s with groups :=
      ids.foldl (fun g id => if s.references id then g else g.release id) s.groups }

/-- Keeps the result of a write unless it failed or its time is up. -/
def commit (s : MemoryStore) (limit : Option TimeLimit) (result : Except StoreError MemoryStore) :
    Except StoreError Unit × MemoryStore :=
  match result, limit with
  | .error e, _ => (.error e, s)
  | .ok t, some l =>
    if l.deadline.expired l.closing then (.error (.timeout l.deadline.millis), s) else (.ok (), t)
  | .ok t, none => (.ok (), t)

def all (s : MemoryStore) : Except StoreError (List Policy) := s.rows.mapM s.resolve

def create (s : MemoryStore) (ps : List Policy) (limit : Option TimeLimit) :
    Except StoreError Unit × MemoryStore :=
  s.commit limit (ps.foldlM createOne s)

def delete (s : MemoryStore) (ps : List Policy) (limit : Option TimeLimit) :
    Except StoreError Unit × MemoryStore :=
  let (t, ids) := s.deleteRows ps
  s.commit limit (.ok (t.releaseUnused ids))

def byGuids (s : MemoryStore) (sources destinations : List String) :
    Except StoreError (List Policy) :=
  let sources := sources.filterMap s.groups.idOf?
  let destinations := destinations.filterMap s.groups.idOf?
  (s.rows.filter fun r => sources.contains r.source || destinations.contains r.destination).mapM
    s.resolve

def tags (s : MemoryStore) : List Tag :=
  s.groups.byId.map fun (id, guid) => ⟨guid, s.tagLength.render id⟩

/-- The calls of a store in memory. -/
def store : PolicyStore MemoryStore where
  all s := (s.all, s)
  create ps limit s := s.create ps limit
  delete ps limit s := s.delete ps limit
  byGuids sources destinations s := (s.byGuids sources destinations, s)
  tags s := (.ok s.tags, s)
  check s := (.ok (), s)

end MemoryStore
end NetworkPolicy
