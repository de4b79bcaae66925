import NetworkPolicy.Store.Tables

/-! What stored rows mean, and what they must hold to mean it. -/

namespace NetworkPolicy.Database

/-- What a stored number must be to be shown. -/
inductive Damage where
  | negativeGroup (id : Int)
  | portOutOfRange (port : Int)
  deriving DecidableEq, Repr

/-- The damage in words. -/
def Damage.message : Damage → String
  | negativeGroup id => s!"negative group id {id}"
  | portOutOfRange port => s!"port out of range: {port}"

/-- A stored group id. -/
def storedGroup (id : Int) : Except Damage Nat :=
  if id < 0 then .error (.negativeGroup id) else .ok id.toNat

/-- A stored port. -/
def storedPort (port : Int) : Except Damage UInt16 :=
  if 0 ≤ port ∧ port < 65536 then .ok port.toNat.toUInt16 else .error (.portOutOfRange port)

/-- The policy of a joined row whose applications are known. -/
def storedPolicy (l : TagLength) (source destination : String) (r : JoinedRow) :
    Except Damage Policy := do
  let sourceGroup ← storedGroup r.source.id
  let destinationGroup ← storedGroup r.destination.id
  let first ← storedPort r.first
  let last ← storedPort r.last
  return ⟨⟨source, l.render sourceGroup⟩,
    ⟨destination, l.render destinationGroup, r.protocol, ⟨first, last⟩⟩⟩

/-- The tag of an assigned group. -/
def storedTag (l : TagLength) (group : Int × String) : Except Damage Tag := do
  return ⟨group.2, l.render (← storedGroup group.1)⟩

/-- Numbers in increasing order, each once. -/
def increasing (ids : List Int) : List Int :=
  (ids.mergeSort fun a b => a ≤ b).eraseRepsBy fun a b => a == b

/-- What a policy is read from. -/
def policyColumns : String :=
  "SELECT sg.id, sg.guid, dg.id, dg.guid, d.protocol, d.port_start, d.port_end FROM policies p " ++
  "JOIN groups sg ON p.group_id = sg.id JOIN destinations d ON p.destination_id = d.id " ++
  "JOIN groups dg ON d.group_id = dg.id"

/-- The schema version of this program. -/
def schemaVersion : Int := 1

/-- Group ids must fit 64 bits with a sign. -/
def maxGroup : Nat := Nat.pow 2 63 - 1

end NetworkPolicy.Database
