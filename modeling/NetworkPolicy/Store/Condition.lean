import NetworkPolicy.Store.Tables

/-! Conditions on the ends of policies, as a database reads them: members of lists are numbered
parameters or NULL, and what is compared with NULL is neither true nor false. -/

namespace NetworkPolicy.Database

/-- A text, or NULL. -/
abbrev Cell := Option String

/-- Whether something is so; none where that hangs on NULL. -/
abbrev Truth := Option Bool

/-- True if either is, false if both are. -/
def Truth.either : Truth → Truth → Truth
  | some true, _ => some true
  | _, some true => some true
  | some false, some false => some false
  | _, _ => none

def Cell.equals (a b : Cell) : Truth := do return (← a) == (← b)

/-- Whether a cell equals one of the others. -/
def Cell.isIn (a : Cell) (bs : List Cell) : Truth :=
  bs.foldr (fun b => Truth.either (a.equals b)) (some false)

/-- A member of a list in a statement. -/
inductive Operand where
  | null
  /-- A parameter; the first is number 1. -/
  | parameter (number : Nat)
  deriving DecidableEq, Repr

namespace Operand

def text : Operand → String
  | null => "NULL"
  | parameter n => s!"?{n}"

def number : Operand → Nat
  | null => 0
  | parameter n => n

/-- The value of a member where the parameters have the given values in turn. -/
def value (bound : List String) : Operand → Cell
  | null => none
  | parameter 0 => none
  | parameter (n + 1) => bound[n]?

end Operand

/-- That the source is in one list or the destination in another. -/
structure EndsCondition where
  sources : List Operand
  destinations : List Operand
  deriving DecidableEq, Repr

namespace EndsCondition

def text (c : EndsCondition) : String :=
  "sg.guid IN (" ++ ", ".intercalate (c.sources.map Operand.text) ++ ") OR dg.guid IN (" ++
    ", ".intercalate (c.destinations.map Operand.text) ++ ")"

/-- How many values the condition takes: the highest number counts. -/
def parameters (c : EndsCondition) : Nat :=
  ((c.sources ++ c.destinations).map Operand.number).foldl max 0

/-- Why other than `needed` values are refused; one too many is not counted further. -/
def refusal (given needed : Nat) : String :=
  s!"Wrong number of parameters passed to query. Got {min given (needed + 1)}, needed {needed}"

end EndsCondition

/-- The policies for which the condition is true. -/
def Tables.joinedWhere (t : Tables) (c : EndsCondition) (bound : List String) :
    Except String (List JoinedRow) :=
  let sources := c.sources.map (·.value bound)
  let destinations := c.destinations.map (·.value bound)
  if bound.length = c.parameters then
    .ok <| t.joined.filter fun r =>
      Truth.either (Cell.isIn r.source.guid sources) (Cell.isIn r.destination.guid destinations) ==
        some true
  else .error (EndsCondition.refusal bound.length c.parameters)

end NetworkPolicy.Database
