import NetworkPolicy.Number.Shortest
import NetworkPolicy.Text.Quoted

/-! Well-formed data that does not have the wanted shape. -/

namespace NetworkPolicy.Reading

/-- What was found in the place of something else. -/
inductive Found where
  | null
  | bool (b : Bool)
  | integer (n : Int)
  /-- An integer of a width that most readers do not take. -/
  | wideInteger (n : Int) (width : String)
  | float (x : Float)
  | text (s : String)
  | sequence
  | map
  deriving DecidableEq, Repr

/-- Why data does not have the wanted shape. -/
inductive Mismatch where
  | wrongType (found : Found) (want : String)
  | wrongValue (found : Found) (want : String)
  | missingField (name : String)
  | duplicateField (name : String)
  /-- A record written as a sequence lacks the element at `count`. -/
  | tooShort (count : Nat) (want : String)
  | unknownVariant (given : String) (variants : List String)
  deriving DecidableEq, Repr

/-- A found value in words; each format writes its own floats. -/
def Found.describe (float : Float → String) : Found → String
  | null => "null"
  | bool b => s!"boolean `{b}`"
  | integer n => s!"integer `{n}`"
  | wideInteger n width => s!"integer `{n}` as {width}"
  | .float x => s!"floating point `{float x}`"
  | text s => s!"string {Text.quoted s}"
  | sequence => "sequence"
  | map => "map"

/-- The names that would have been right. -/
def alternatives (names : List String) : String :=
  match names.map fun n => s!"`{n}`" with
  | [a] => s!"expected {a}"
  | [a, b] => s!"expected {a} or {b}"
  | all => "expected one of " ++ ", ".intercalate all

/-- A mismatch in words. -/
def Mismatch.message (float : Float → String) : Mismatch → String
  | wrongType found want => s!"invalid type: {found.describe float}, expected {want}"
  | wrongValue found want => s!"invalid value: {found.describe float}, expected {want}"
  | missingField name => s!"missing field `{name}`"
  | duplicateField name => s!"duplicate field `{name}`"
  | tooShort count want => s!"invalid length {count}, expected {want}"
  | unknownVariant given variants => s!"unknown variant `{given}`, {alternatives variants}"

/-- When a record must have a field. -/
inductive Need where
  | always
  /-- When its fields come without names. -/
  | unnamed
  | never
  deriving DecidableEq, Repr

/-- A field of a record of type `α` in data of type `δ`: reading it sets it in the record. -/
structure Field (ε δ α : Type) where
  name : String
  need : Need
  read : δ → α → Except ε α

/-- The first field of those needed that was not seen, with its position. -/
def firstMissing {ε δ α : Type} (needs : List Need) (fields : List (Field ε δ α))
    (seen : List String) : Option (Nat × String) :=
  fields.zipIdx.findSome? fun (f, i) =>
    if needs.contains f.need && !seen.contains f.name then some (i, f.name) else none

/-- How a record is called where one was wanted with all its fields. -/
def fullName (name : String) (count : Nat) : String :=
  s!"struct {name} with {count} " ++ if count == 1 then "element" else "elements"

end NetworkPolicy.Reading
