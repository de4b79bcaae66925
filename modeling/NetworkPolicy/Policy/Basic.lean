/-! Policies: which application may open connections to which other one. -/

namespace NetworkPolicy

/-- A port range with both ends. -/
structure Ports where
  first : UInt16
  last : UInt16
  deriving DecidableEq, Repr

namespace Ports

/-- The range of one port. -/
def single (p : UInt16) : Ports := ⟨p, p⟩

/-- Whether the range is one port. -/
def isSingle (p : Ports) : Bool := p.first == p.last

end Ports

/-- The application that opens the connection. -/
structure Source where
  id : String
  /-- Empty until a store assigns one. -/
  tag : String := ""
  deriving DecidableEq, Repr

/-- The application that accepts the connection, and where. -/
structure Destination where
  id : String
  /-- Empty until a store assigns one. -/
  tag : String := ""
  protocol : String
  ports : Ports
  deriving DecidableEq, Repr

/-- A permitted kind of connection. -/
structure Policy where
  source : Source
  destination : Destination
  deriving DecidableEq, Repr

namespace Policy

/-- What tells stored policies apart: all but the tags. -/
structure Key where
  source : String
  destination : String
  protocol : String
  ports : Ports
  deriving DecidableEq, Repr

def key (p : Policy) : Key :=
  ⟨p.source.id, p.destination.id, p.destination.protocol, p.destination.ports⟩

/-- The policy with both tags cleared. -/
def withoutTags (p : Policy) : Policy :=
  ⟨{ p.source with tag := "" }, { p.destination with tag := "" }⟩

/-- Source, destination, protocol, first and last port decide in this order. -/
def Key.compare (a b : Key) : Ordering :=
  (Ord.compare a.source b.source).then <|
  (Ord.compare a.destination b.destination).then <|
  (Ord.compare a.protocol b.protocol).then <|
  (Ord.compare a.ports.first b.ports.first).then <|
  Ord.compare a.ports.last b.ports.last

/-- The identifiers of both ends. -/
def ends (p : Policy) : List String := [p.source.id, p.destination.id]

end Policy

/-- Puts a text into an increasing list that does not yet hold it. -/
def insertSorted (s : String) : List String → List String
  | [] => [s]
  | t :: ts => if s < t then s :: t :: ts else if s = t then t :: ts else t :: insertSorted s ts

/-- The distinct texts in increasing order. -/
def sortedDistinct (ss : List String) : List String := ss.foldr insertSorted []

/-- The distinct identifiers that a batch names, in increasing order. -/
def namedApps (ps : List Policy) : List String := sortedDistinct (ps.flatMap Policy.ends)

end NetworkPolicy
