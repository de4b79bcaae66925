/-! TOML values, and how statements build the table of a document. -/

namespace NetworkPolicy

/-- How a table came about, which decides what may be added to it. -/
inductive Toml.Origin where
  /-- Named by a header. -/
  | header
  /-- Only passed through by the path of a header. -/
  | path
  /-- Passed through by the dotted key of an entry. -/
  | dotted
  /-- Written in braces: complete. -/
  | inline
  deriving DecidableEq, Repr

inductive Toml where
  | text (s : String)
  | integer (n : Int)
  | float (x : Float)
  /-- A number that no reader can hold. -/
  | unrepresentable
  | bool (b : Bool)
  | datetime
  /-- An array; one of tables grows by headers. -/
  | array (elements : List Toml) (ofTables : Bool)
  | table (entries : List (String × Toml)) (origin : Toml.Origin)
  deriving Repr

namespace Toml

/-- Entries of a table. -/
abbrev Entries := List (String × Toml)

def find? (es : Entries) (key : String) : Option Toml := (es.find? (·.1 == key)).map (·.2)

/-- Puts an entry in the place of the one with its key, or at the end. -/
def put (es : Entries) (key : String) (v : Toml) : Entries :=
  if es.any (·.1 == key) then es.map fun e => if e.1 == key then (key, v) else e
  else es ++ [(key, v)]

/-- Adds an entry under a dotted key; no key is given twice, and only tables that dotted keys or
paths made are passed through. -/
def assign? (es : Entries) : List String → Toml → Option Entries
  | [], _ => none
  | [key], v => if (find? es key).isSome then none else some (es ++ [(key, v)])
  | key :: path, v =>
    match find? es key with
    | none => do return es ++ [(key, .table (← assign? [] path v) .dotted)]
    | some (.table inner origin) =>
      if origin = .dotted ∨ origin = .path then do
        return put es key (.table (← assign? inner path v) origin)
      else none
    | some _ => none

/-- Changes the last of some tables. -/
def changeLast? (f : Entries → Option Entries) : List Toml → Option (List Toml)
  | [] => none
  | [.table es o] => do return [.table (← f es) o]
  | [_] => none
  | t :: ts => do return t :: (← changeLast? f ts)

/-- Changes the table that a header's path leads to, through the last table of each array. -/
def within? (f : Entries → Option Entries) : List String → Entries → Option Entries
  | [], es => f es
  | key :: path, es =>
    match find? es key with
    | none => do return es ++ [(key, .table (← within? f path []) .path)]
    | some (.table inner origin) =>
      if origin = .inline then none
      else do return put es key (.table (← within? f path inner) origin)
    | some (.array ts true) => do
      return put es key (.array (← changeLast? (within? f path) ts) true)
    | some _ => none

/-- Starts the table of a header; a table is named by one header at most. -/
def openTable? (key : String) (es : Entries) : Option Entries :=
  match find? es key with
  | none => some (es ++ [(key, .table [] .header)])
  | some (.table inner .path) => some (put es key (.table inner .header))
  | some _ => none

/-- Adds a table to the array of a header. -/
def openElement? (key : String) (es : Entries) : Option Entries :=
  match find? es key with
  | none => some (es ++ [(key, .array [.table [] .header] true)])
  | some (.array ts true) => some (put es key (.array (ts ++ [.table [] .header]) true))
  | some _ => none

/-- A line of a document. -/
inductive Statement where
  | header (path : List String)
  | element (path : List String)
  | entry (path : List String) (v : Toml)
  deriving Repr

/-- The table of a header without its last key, and that key. -/
def splitLast : List String → List String × String
  | [] => ([], "")
  | [k] => ([], k)
  | k :: ks => let (init, last) := splitLast ks; (k :: init, last)

/-- Carries out a statement; the path is that of the last header. -/
def perform? (state : List String × Entries) : Statement → Option (List String × Entries)
  | .header path => do
    let (outer, key) := splitLast path
    return (path, ← within? (openTable? key) outer state.2)
  | .element path => do
    let (outer, key) := splitLast path
    return (path, ← within? (openElement? key) outer state.2)
  | .entry path v => do
    return (state.1, ← within? (assign? · path v) state.1 state.2)

/-- The table that statements build. -/
def ofStatements? (ss : List Statement) : Option Entries := (ss.foldlM perform? ([], [])).map (·.2)

end Toml
end NetworkPolicy
