import NetworkPolicy.Json.Read
import NetworkPolicy.OrderedMap

/-! JSON values, their compact text, and reading them back. -/

namespace NetworkPolicy

/-- A JSON value. Members are written in the order they are held. -/
inductive Json where
  | null
  | bool (b : Bool)
  | number (n : Json.Number)
  | text (s : String)
  | list (elements : List Json)
  | object (members : List (String × Json))
  deriving Repr

namespace Json

/-- A natural number as a value. -/
def natural (n : Nat) : Json := .number (.natural n)

/-- A value or nothing. -/
def optional {α : Type} (f : α → Json) : Option α → Json
  | some a => f a
  | none => .null

/-- An object with its members sorted by key; the last of equal keys counts. -/
def sorted (members : List (String × Json)) : Json := .object (OrderedMap.ofEntries members)

/-- A float as a value; what is not finite is null. -/
def ofFloat (x : Float) : Json := if x.isFinite then .number (.float x) else .null

mutual

/-- The value with the members of every object sorted by key. -/
def canonical : Json → Json
  | .list es => .list (canonicalElements es)
  | .object ms => .sorted (canonicalMembers ms)
  | v => v

def canonicalElements : List Json → List Json
  | [] => []
  | v :: vs => canonical v :: canonicalElements vs

def canonicalMembers : List (String × Json) → List (String × Json)
  | [] => []
  | (k, v) :: ms => (k, canonical v) :: canonicalMembers ms

end

/-- A character inside quotation marks. -/
def quotedChar (c : Char) : List Char :=
  match c with
  | '"' => ['\\', '"']
  | '\\' => ['\\', '\\']
  | '\x08' => ['\\', 'b']
  | '\x0c' => ['\\', 'f']
  | '\n' => ['\\', 'n']
  | '\r' => ['\\', 'r']
  | '\t' => ['\\', 't']
  | c =>
    if c < ' ' then
      ['\\', 'u', '0', '0', Nat.digitChar (c.toNat / 16), Nat.digitChar (c.toNat % 16)]
    else [c]

/-- A text in quotation marks. -/
def quote (s : String) : List Char := '"' :: s.toList.flatMap quotedChar ++ ['"']

/-- A number as written; what is not finite has no number. -/
def Number.render : Number → List Char
  | .natural n => Nat.toDigits 10 n
  | .negative n => '-' :: Nat.toDigits 10 n.natAbs
  | .float x => (NetworkPolicy.Number.mixed? x).getD ['n', 'u', 'l', 'l']

/-- Parts with commas between them. -/
def commas : List (List Char) → List Char
  | [] => []
  | [p] => p
  | p :: q :: ps => p ++ ',' :: commas (q :: ps)

mutual

/-- The characters of a value's compact text. -/
def chars : Json → List Char
  | .null => ['n', 'u', 'l', 'l']
  | .bool true => ['t', 'r', 'u', 'e']
  | .bool false => ['f', 'a', 'l', 's', 'e']
  | .number n => n.render
  | .text s => quote s
  | .list es => '[' :: commas (elementChars es) ++ [']']
  | .object ms => '{' :: commas (memberChars ms) ++ ['}']

def elementChars : List Json → List (List Char)
  | [] => []
  | v :: vs => chars v :: elementChars vs

def memberChars : List (String × Json) → List (List Char)
  | [] => []
  | (k, v) :: ms => (quote k ++ ':' :: chars v) :: memberChars ms

end

/-- A value's compact text. -/
def render (v : Json) : String := String.ofList v.chars

namespace Reader

mutual

/-- Reads any value. -/
def value : Reader Json
  | .null => .ok .null
  | .bool b => .ok (.bool b)
  | .number n => (n.value.mapError ReadError.fault).map Json.number
  | .string s => (literal s).map Json.text
  | .list es ending => do
    let vs ← values es
    ended ending.flaw?
    return .list vs
  | .object ms ending => do
    let vs ← namedValues ms
    ended ending.flaw?
    return .object vs
  | .flawed f => .error (.fault f.read)

def values : List Document → Except ReadError (List Json)
  | [] => .ok []
  | d :: ds => do return (← value d) :: (← values ds)

def namedValues : List (Literal × Document) → Except ReadError (List (String × Json))
  | [] => .ok []
  | (k, d) :: ms => do return (← literal k, ← value d) :: (← namedValues ms)

end

end Reader

/-- The value of a text. -/
def parse (s : String) : Except ReadError Json := Reader.ofText Reader.value (Text.ofChars s.toList)

end Json
end NetworkPolicy
