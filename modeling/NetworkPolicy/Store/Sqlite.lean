import NetworkPolicy.Store.Condition
import NetworkPolicy.Store.Recursion
import NetworkPolicy.Store.Rows
import NetworkPolicy.Store.Session

/-! The store in an SQLite file. -/

namespace NetworkPolicy

open Database

/-- Why an SQLite store failed. -/
inductive SqliteError where
  | io (cause : String)
  | db (cause : String)
  | corrupt (cause : String)
  | versionMismatch (cause : String)
  | invalid (cause : String)
  | capacity (cause : String)
  | timeout (millis : Nat)
  deriving DecidableEq, Repr

namespace SqliteError

/-- The error in words. -/
def message : SqliteError → String
  | io c => s!"sqlite store io error: {c}"
  | db c => s!"sqlite store db error: {c}"
  | corrupt c => s!"sqlite store corruption: {c}"
  | versionMismatch c => s!"sqlite store version mismatch: {c}"
  | invalid c => s!"sqlite store invalid data: {c}"
  | capacity c => s!"sqlite store capacity: {c}"
  | timeout ms => s!"sqlite store deadline exceeded after {ms} ms"

/-- The error as every store reports it. -/
def toStoreError : SqliteError → StoreError
  | io c => .io c
  | db c => .db c
  | corrupt c => .corrupt c
  | versionMismatch c => .corrupt s!"version mismatch: {c}"
  | invalid c => .invalid c
  | capacity c => .capacity c
  | timeout ms => .timeout ms

/-- Every refusal counts as a database error. -/
def ofRefusal (r : Refusal) : SqliteError := .db r.text

end SqliteError

/-- A session with an SQLite file. -/
structure SqliteStore where
  tagLength : TagLength
  server : Server

namespace SqliteStore

/-- A computation on an SQLite file. -/
abbrev Work (α : Type) := Session SqliteError α

/-- Runs a statement: its effect on the tables, or why they do not admit it. -/
def execute {α : Type} (text : String) (effect : Tables → Except String (α × Tables)) :
    Work α :=
  Session.execute .ofRefusal text effect

/-- Runs a statement that the tables always admit. -/
def change (text : String) (effect : Tables → Tables) : Work Unit :=
  execute text fun t => .ok ((), effect t)

/-- Runs a statement that only reads. -/
def query {α : Type} (text : String) (read : Tables → α) : Work α :=
  Session.query .ofRefusal text fun t => .ok (read t)

/-- The text of an error when the table of policies is missing. -/
def withPolicies {α : Type} (t : Tables) (a : α) : Except String α :=
  if t.hasPolicies then .ok a else .error "no such table: policies"

/-- Runs a computation in a transaction. A failure, also of the commit, gives the transaction up. -/
def transaction {α : Type} (mode : String) (work : Work α) : Work α :=
  Session.orRollback do
    Session.start .ofRefusal mode "cannot start a transaction within a transaction"
    let a ← work
    Session.commit .ofRefusal
    return a

/-- The group of an application. -/
def lookup (guid : String) : Work (Option Int) :=
  query "SELECT id FROM groups WHERE guid = ?1" (·.groupOf? guid)

/-- The group of an application; a new one gets the lowest free group. -/
def claim (guid : String) : Work Int := do
  match ← lookup guid with
  | some id => return id
  | none =>
    match ← query "SELECT id FROM groups WHERE guid IS NULL ORDER BY id LIMIT 1" (·.freeGroup?) with
    | some id =>
      change "UPDATE groups SET guid = ?1 WHERE id = ?2" (·.setGroup id (some guid))
      return id
    | none => throw (.capacity "no free rows in groups table")

/-- The destination of a policy in a group. -/
def destinationOf (group : Int) (p : Policy) : Work (Option Int) :=
  let d := p.destination
  query ("SELECT id FROM destinations WHERE group_id = ?1 AND port_start = ?2 AND port_end = ?3 " ++
    "AND protocol = ?4") (·.destinationOf? group d.ports.first.toNat d.ports.last.toNat d.protocol)

/-- The destination of a policy in a group, added if there is none. -/
def addDestination (group : Int) (p : Policy) : Work Int := do
  let d := p.destination
  match ← destinationOf group p with
  | some id => return id
  | none =>
    execute ("INSERT INTO destinations (group_id, port_start, port_end, protocol) " ++
        "VALUES (?1, ?2, ?3, ?4)")
      fun t => .ok (t.addDestination group d.ports.first.toNat d.ports.last.toNat d.protocol)

/-- Adds a policy unless it is stored already. -/
def createOne (p : Policy) : Work Unit := do
  let source ← claim p.source.id
  let group ← claim p.destination.id
  let destination ← addDestination group p
  execute "INSERT OR IGNORE INTO policies (group_id, destination_id) VALUES (?1, ?2)"
    fun t => withPolicies t ((), t.addPolicy source destination)

/-- Removes a policy, and its destination if no other policy uses it; gives its groups if all its
parts are stored. -/
def deleteOne (p : Policy) : Work (List Int) := do
  match ← lookup p.source.id with
  | none => return []
  | some source =>
    match ← lookup p.destination.id with
    | none => return []
    | some group =>
      match ← destinationOf group p with
      | none => return []
      | some destination =>
        execute "DELETE FROM policies WHERE group_id = ?1 AND destination_id = ?2"
          fun t => withPolicies t ((), t.removePolicy source destination)
        execute ("DELETE FROM destinations WHERE id = ?1 AND NOT EXISTS " ++
            "(SELECT 1 FROM policies WHERE destination_id = ?1)")
          fun t => withPolicies t ((), t.removeUnusedDestination destination)
        return [source, group]

/-- Frees a group that no policy uses. -/
def releaseUnused (id : Int) : Work Unit := do
  let used ← Session.query .ofRefusal
    ("SELECT COUNT(*) FROM policies p JOIN destinations d ON p.destination_id = d.id " ++
      "WHERE p.group_id = ?1 OR d.group_id = ?1")
    fun t => withPolicies t (t.references id)
  if used then return ()
  change "UPDATE groups SET guid = NULL WHERE id = ?1" (·.setGroup id none)

/-- Fails when the time is up. -/
def checkTime (limit : Option TimeLimit) : Work Unit :=
  match limit with
  | some l => if l.deadline.expired l.closing then throw (.timeout l.deadline.millis) else pure ()
  | none => pure ()

def create (ps : List Policy) (limit : Option TimeLimit) : Work Unit :=
  transaction "BEGIN IMMEDIATE" do
    ps.forM createOne
    checkTime limit

def delete (ps : List Policy) (limit : Option TimeLimit) : Work Unit :=
  transaction "BEGIN IMMEDIATE" do
    let touched ← ps.mapM deleteOne
    (increasing touched.flatten).forM releaseUnused
    checkTime limit

/-- A cell that should hold text and holds nothing. -/
def nullCell (index : Nat) : SqliteError :=
  .db s!"Invalid column type Null at index: {index}, name: guid"

/-- The policy of a joined row. -/
def readRow (l : TagLength) (r : JoinedRow) : Except SqliteError Policy :=
  match r.source.guid, r.destination.guid with
  | none, _ => .error (nullCell 1)
  | _, none => .error (nullCell 3)
  | some source, some destination =>
    (storedPolicy l source destination r).mapError fun d => .corrupt d.message

/-- Reads the policies that a query gives. -/
def readPolicies (l : TagLength) (condition : String)
    (rows : Tables → Except String (List JoinedRow)) : Work (List Policy) :=
  transaction "BEGIN DEFERRED" do
    let rows ← Session.query .ofRefusal (policyColumns ++ condition ++ " ORDER BY p.id")
      fun t => withPolicies t () >>= fun _ => rows t
    liftExcept (rows.mapM (readRow l))
where
  liftExcept {α : Type} (r : Except SqliteError α) : Work α :=
    match r with
    | .ok a => return a
    | .error e => throw e

/-- As many parameters as asked for, numbered from `first`; NULL stands for none at all, and equals no
application. -/
def placeholders (first count : Nat) : List Operand :=
  if count = 0 then [.null] else (List.range' first count).map .parameter

/-- The condition for so many sources and so many destinations, bound one after the other. -/
def endsCondition (sources destinations : Nat) : EndsCondition :=
  ⟨placeholders 1 sources, placeholders (sources + 1) destinations⟩

/-- Reads the tags of the assigned groups. -/
def readTags (l : TagLength) : Work (List Tag) :=
  transaction "BEGIN DEFERRED" do
    let groups ← query "SELECT id, guid FROM groups WHERE guid IS NOT NULL ORDER BY id" (·.assigned)
    match groups.mapM (storedTag l) with
    | .ok tags => return tags
    | .error d => throw (.corrupt d.message)

/-- The statements that create missing tables. -/
def schemaText : String :=
  "CREATE TABLE IF NOT EXISTS groups (
                    id INTEGER PRIMARY KEY,
                    guid TEXT UNIQUE
                );
                CREATE TABLE IF NOT EXISTS destinations (
                    id INTEGER PRIMARY KEY AUTOINCREMENT,
                    group_id INTEGER NOT NULL REFERENCES groups(id),
                    port_start INTEGER NOT NULL,
                    port_end INTEGER NOT NULL,
                    protocol TEXT NOT NULL,
                    UNIQUE (group_id, port_start, port_end, protocol)
                );
                CREATE TABLE IF NOT EXISTS policies (
                    id INTEGER PRIMARY KEY AUTOINCREMENT,
                    group_id INTEGER NOT NULL REFERENCES groups(id),
                    destination_id INTEGER NOT NULL REFERENCES destinations(id),
                    UNIQUE (group_id, destination_id)
                );
                CREATE INDEX IF NOT EXISTS idx_groups_guid ON groups (guid);
                CREATE INDEX IF NOT EXISTS idx_policies_destination ON policies (destination_id);"

/-- The query `seq(n) AS (SELECT 1 UNION ALL SELECT n + 1 FROM seq WHERE n < ?1)` for a bound. -/
def seq (bound : Int) : RecursiveQuery Int where
  seed := 1
  step n := if n < bound then some (n + 1) else none
  rank n := (bound - n).toNat
  rank_lt := fun h => by
    simp only [Option.ite_none_right_eq_some, Option.some.injEq] at h
    omega

/-- Creates the tables of an empty file, refuses those of another version, and adds the groups
that do not exist. -/
def prepare (poolSize : Nat) : Work Unit :=
  transaction "BEGIN IMMEDIATE" do
    change "CREATE TABLE IF NOT EXISTS store_meta (version INTEGER NOT NULL);" id
    match ← query "SELECT version FROM store_meta LIMIT 1" (·.versions.head?) with
    | none =>
      change "INSERT INTO store_meta (version) VALUES (?1)"
        fun t => { t with versions := [schemaVersion] }
      change schemaText (·.createMissing)
    | some v =>
      if v ≠ schemaVersion then
        throw (.versionMismatch s!"unsupported schema version: {v}")
    if maxGroup < poolSize then throw (.invalid "group pool size too large")
    change ("WITH RECURSIVE seq(n) AS (SELECT 1 UNION ALL SELECT n + 1 FROM seq WHERE n < ?1) " ++
      "INSERT OR IGNORE INTO groups (id) SELECT n FROM seq") (·.addGroups (seq poolSize).rows)

/-- The outcome of a computation and the store after it. -/
def perform {α : Type} (s : SqliteStore) (work : Work α) :
    Except StoreError α × SqliteStore :=
  let (r, server) := Session.run work s.server
  (r.mapError (·.toStoreError), { s with server := server })

/-- Opens the store whose file a server holds. -/
def openOn (tagLength : TagLength) (poolSize : Nat) (server : Server) :
    Except SqliteError Unit × SqliteStore :=
  let (r, server) := Session.run (prepare poolSize) { server with working := none }
  (r, ⟨tagLength, server⟩)

/-- The calls of a store in an SQLite file. -/
def store : PolicyStore SqliteStore where
  all s := s.perform (readPolicies s.tagLength "" (.ok ·.joined))
  create ps limit s := s.perform (create ps limit)
  delete ps limit s := s.perform (delete ps limit)
  byGuids sources destinations s :=
    let condition := endsCondition sources.length destinations.length
    s.perform (readPolicies s.tagLength (" WHERE " ++ condition.text)
      (·.joinedWhere condition (sources ++ destinations)))
  tags s := s.perform (readTags s.tagLength)
  check s := s.perform (query "SELECT 1" fun _ => ())

end SqliteStore
end NetworkPolicy
