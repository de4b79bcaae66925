import NetworkPolicy.Json.Document
import NetworkPolicy.Reading.Mismatch

/-! Typed values read from the tree of a JSON text. The first fault or mismatch in the order of the
text is reported. -/

namespace NetworkPolicy.Json

open Reading (Found Mismatch Field)

/-- Why a text was not read. -/
inductive ReadError where
  | fault (f : Fault)
  | mismatch (m : Mismatch)
  deriving DecidableEq, Repr

/-- A float in an error message. -/
def floatText (x : Float) : String :=
  match Number.mixed? x with
  | some cs => String.ofList cs
  | none => "null"

/-- The error in words. -/
def ReadError.message : ReadError → String
  | fault f => f.message
  | mismatch m => m.message floatText

/-- Reads a value of type `α`. -/
abbrev Reader (α : Type) := Document → Except ReadError α

namespace Reader

/-- The text of a string as written. -/
def literal : Literal → Except ReadError String
  | .text s => .ok s
  | .faulty f => .error (.fault f)

/-- Reports a value of another type; its own fault comes first. -/
def wrong {α : Type} (d : Document) (want : String) : Except ReadError α :=
  let report (found : Found) : Except ReadError α := .error (.mismatch (.wrongType found want))
  match d with
  | .null => report .null
  | .bool b => report (.bool b)
  | .number n =>
    match n.value with
    | .ok (.natural k) => report (.integer k)
    | .ok (.negative k) => report (.integer k)
    | .ok (.float x) => report (.float x)
    | .error f => .error (.fault f)
  | .string s => do report (.text (← literal s))
  | .list _ _ => report .sequence
  | .object _ _ => report .map
  | .flawed f => .error (.fault f.read)

/-- Reads a string. -/
def text : Reader String
  | .string s => literal s
  | d => wrong d "a string"

/-- Reads a natural number of so many bits, which the error calls `want`. -/
def natural (bits : Nat) (want : String) : Reader Nat
  | d@(.number n) =>
    match n.value with
    | .ok (.natural k) =>
      if k < Nat.pow 2 bits then .ok k else .error (.mismatch (.wrongValue (.integer k) want))
    | .ok (.negative k) => .error (.mismatch (.wrongValue (.integer k) want))
    | _ => wrong d want
  | d => wrong d want

/-- Reads a port. -/
def port : Reader UInt16 := fun d => (natural 16 "u16" d).map Nat.toUInt16

/-- Reads `null` as nothing. -/
def optional {α : Type} (r : Reader α) : Reader (Option α)
  | .null => .ok none
  | d => (r d).map some

/-- The error of an end that is not the closing one. -/
def ended (flaw : Option Flaw) : Except ReadError Unit :=
  match flaw with
  | some f => .error (.fault f.read)
  | none => .ok ()

/-- Reads the elements of a list. -/
def list {α : Type} (r : Reader α) : Reader (List α)
  | .list es ending => do
    let values ← es.mapM r
    ended ending.flaw?
    return values
  | d => wrong d "a sequence"

/-- Passes over a value. -/
def ignored (d : Document) : Except ReadError Unit := d.skip.mapError .fault

/-- A field of a record read from JSON. -/
abbrev Field (α : Type) := Reading.Field ReadError Document α

/-- A field that sets `α` from a value of type `β`. -/
def field {α β : Type} (name : String) (r : Reader β) (set : β → α → α)
    (required : Bool := true) : Field α :=
  ⟨name, if required then .always else .never, fun d a => (r d).map (set · a)⟩

/-- A field that is not set where an object leaves it out or holds `null`. -/
def optionalField {α β : Type} (name : String) (r : Reader β) (set : Option β → α → α) : Field α :=
  ⟨name, .unnamed, fun d a => (optional r d).map (set · a)⟩

/-- Reads members in their order; unknown ones are passed over. -/
def members {α : Type} (fields : List (Field α)) :
    List (Literal × Document) → List String → α → Except ReadError (List String × α)
  | [], seen, a => .ok (seen, a)
  | (key, d) :: rest, seen, a => do
    let name ← literal key
    match fields.find? (·.name == name) with
    | none =>
      ignored d
      members fields rest seen a
    | some f =>
      if seen.contains name then .error (.mismatch (.duplicateField name))
      else members fields rest (name :: seen) (← f.read d a)

/-- Reads elements as the fields in their order. -/
def elements {α : Type} : List (Field α) → List Document → α →
    Except ReadError (List (Field α) × List Document × α)
  | f :: fs, d :: ds, a => do elements fs ds (← f.read d a)
  | fs, ds, a => .ok (fs, ds, a)

/-- Reads a record: an object of its fields in any order, or a list of them in their order. Fields
that may be absent keep their value in `blank`. -/
def record {α : Type} (name : String) (fields : List (Field α)) (blank : α) : Reader α
  | .object ms ending => do
    let (seen, a) ← members fields ms [] blank
    ended ending.flaw?
    match Reading.firstMissing [.always] fields seen with
    | some (_, missing) => .error (.mismatch (.missingField missing))
    | none => .ok a
  | .list es ending => do
    let (unread, surplus, a) ← elements fields es blank
    if unread.isEmpty then
      match surplus, ending with
      | [], .closed => .ok a
      | [], .cutShort => .error (.fault .listCutShort)
      | [], .trailingComma => .error (.fault .trailingComma)
      | _, _ => .error (.fault .trailingText)
    else
      ended ending.flaw?
      let seen := (fields.take (fields.length - unread.length)).map (·.name)
      match Reading.firstMissing [.always, .unnamed] fields seen with
      | some (i, _) =>
        .error (.mismatch (.tooShort i (Reading.fullName name fields.length)))
      | none => .ok a
  | d => wrong d s!"struct {name}"

/-- Reads a whole text. -/
def ofText {α : Type} (r : Reader α) (text : List Text.Symbol) : Except ReadError α := do
  let (d, surplus) := Document.ofText text
  let a ← r d
  if surplus then .error (.fault .trailingText) else .ok a

end Reader
end NetworkPolicy.Json
