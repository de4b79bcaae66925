import NetworkPolicy.Reading.Mismatch
import NetworkPolicy.Toml.Document

/-! Typed values read from TOML. The keys of a table are visited in their order as texts. -/

namespace NetworkPolicy.Toml

open Reading (Found Mismatch)

/-- Why a document was not read. -/
inductive ReadError where
  /-- The text is no TOML, or a value has no form that any type could take. -/
  | fault
  | mismatch (m : Mismatch)
  deriving DecidableEq, Repr

/-- A float in an error message: all digits are written, without an exponent. -/
def floatText (x : Float) : String := String.ofList (Number.positional x)

/-- Reads a value of type `α`. -/
abbrev Reader (α : Type) := Toml → Except ReadError α

namespace Reader

/-- Whether an integer fits 64 bits, with a sign or without one. -/
def isWord (n : Int) : Bool := -(Nat.pow 2 63 : Int) ≤ n && n < Nat.pow 2 64

/-- An integer, called by the narrowest of the widths that hold it. -/
def foundInteger (n : Int) : Found :=
  if isWord n then .integer n
  else .wideInteger n (if n < Nat.pow 2 127 then "i128" else "u128")

/-- What a value is, none for a number that no type holds. -/
def found? : Toml → Option Found
  | .text s => some (.text s)
  | .integer n => some (foundInteger n)
  | .float x => some (.float x)
  | .unrepresentable => none
  | .bool b => some (.bool b)
  | .array _ _ => some .sequence
  | .datetime | .table _ _ => some .map

/-- Reports a value of another type. -/
def wrong {α : Type} (t : Toml) (want : String) : Except ReadError α :=
  match found? t with
  | some found => .error (.mismatch (.wrongType found want))
  | none => .error .fault

/-- Reads a text, which the error calls `want`. -/
def text (want : String := "a string") : Reader String
  | .text s => .ok s
  | t => wrong t want

/-- Reads a truth value. -/
def bool : Reader Bool
  | .bool b => .ok b
  | t => wrong t "a boolean"

/-- Reads a natural number of so many bits, which the error calls `want`. -/
def natural (bits : Nat) (want : String) : Reader Nat
  | t@(.integer n) =>
    if 0 ≤ n ∧ n < Nat.pow 2 bits then .ok n.toNat
    else if isWord n then .error (.mismatch (.wrongValue (.integer n) want))
    else wrong t want
  | t => wrong t want

/-- Reads a port. -/
def port : Reader UInt16 := fun t => (natural 16 "u16" t).map Nat.toUInt16

/-- Reads what is there; nothing is written by leaving the key out. -/
def present {α : Type} (r : Reader α) : Reader (Option α) := fun t => (r t).map some

/-- One of some named values. -/
def named {α : Type} (options : List (String × α)) (name : String) : Except ReadError α :=
  match options.find? (·.1 == name) with
  | some (_, a) => .ok a
  | none => .error (.mismatch (.unknownVariant name (options.map (·.1))))

/-- Reads one of some named values: its name, or a table of its name with nothing in it. -/
def choice {α : Type} (options : List (String × α)) : Reader α
  | .text s => named options s
  | .table [(name, content)] _ => do
    let a ← named options name
    match content with
    | .array [] _ | .table [] _ => return a
    | _ => throw .fault
  | _ => .error .fault

mutual

/-- Whether some type could take every part of a value. -/
def isReadable : Toml → Bool
  | .unrepresentable => false
  | .array es _ => allReadable es
  | .table es _ => entriesReadable es
  | _ => true

def allReadable : List Toml → Bool
  | [] => true
  | t :: ts => isReadable t && allReadable ts

def entriesReadable : List (String × Toml) → Bool
  | [] => true
  | (_, t) :: es => isReadable t && entriesReadable es

end

/-- A field of a record read from TOML; the record has a value for it beforehand. -/
abbrev Field (α : Type) := Reading.Field ReadError Toml α

/-- A field that sets `α` from a value of type `β`. -/
def field {α β : Type} (name : String) (r : Reader β) (set : β → α → α) : Field α :=
  ⟨name, .never, fun t a => (r t).map (set · a)⟩

/-- Takes in the value of a key; unknown keys are passed over. -/
def member {α : Type} (fields : List (Field α)) (a : α) (e : String × Toml) :
    Except ReadError α :=
  match fields.find? (·.name == e.1) with
  | some f => f.read e.2 a
  | none => if isReadable e.2 then .ok a else .error .fault

/-- Reads a record: a table, or an array of its fields in their order. What is absent keeps its
value in `blank`; a date counts as a table without any of the fields. -/
def record {α : Type} (name : String) (fields : List (Field α)) (blank : α) : Reader α
  | .table es _ => (es.mergeSort fun a b => a.1 ≤ b.1).foldlM (member fields) blank
  | .array ts _ => (fields.zip ts).foldlM (fun a (f, t) => f.read t a) blank
  | .datetime => .ok blank
  | t => wrong t s!"struct {name}"

/-- Reads a whole document. -/
def ofText {α : Type} (r : Reader α) (cs : List Char) : Except ReadError α :=
  match Document.parse? cs with
  | some es => r (.table es .header)
  | none => .error .fault

end Reader
end NetworkPolicy.Toml
