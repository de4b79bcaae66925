import NetworkPolicy.Toml.Scalar
import NetworkPolicy.Toml.Token

/-! TOML documents: the statements that tokens spell, and the table they build. -/

namespace NetworkPolicy.Toml

namespace Document

/-- How far a dotted key is read, its parts last first. -/
structure OpenKey where
  parts : List String := []
  /-- A part has just been read. -/
  complete : Bool := false
  deriving DecidableEq, Repr

/-- An array or inline table under way, its parts last first. -/
inductive Frame where
  | array (elements : List Toml)
  | inline (entries : List (List String × Toml))
  /-- The value of `key` is under way. -/
  | entry (entries : List (List String × Toml)) (key : List String)
  deriving Repr

/-- What may come next. -/
inductive Awaiting where
  | line
  | lineEnd
  /-- The path of a header, or of an array's element. -/
  | header (element : Bool) (key : OpenKey)
  /-- The second closing bracket of an element's header. -/
  | elementEnd
  /-- The key of an entry. -/
  | key (key : OpenKey)
  | value
  | scalar (cs : List Char)
  /-- After a date and one space. -/
  | time (date : List Char)
  /-- After an opening bracket or a comma. -/
  | elementOrEnd
  /-- After an opening brace or a comma. -/
  | entryOrEnd
  | separator
  deriving DecidableEq, Repr

/-- How deep arrays and inline tables may be nested. -/
def maxDepth : Nat := 80

/-- A document under way: its statements, last first, and the key whose value is under way. -/
structure Builder where
  statements : List Statement := []
  frames : List Frame := []
  key : List String := []
  awaiting : Awaiting := .line
  deriving Repr

namespace OpenKey

/-- A bare key has only these characters. -/
def isBare (cs : List Char) : Bool := cs.all fun c => c.isAlphanum || c == '_' || c == '-'

/-- Takes in a token of a dotted key. -/
def step? (k : OpenKey) : Token → Option OpenKey
  | .blank _ => some k
  | .atom cs =>
    if isBare cs && !k.complete then some ⟨String.ofList cs :: k.parts, true⟩ else none
  | .text s false => if !k.complete then some ⟨s :: k.parts, true⟩ else none
  | .dot => if k.complete then some { k with complete := false } else none
  | _ => none

def path (k : OpenKey) : List String := k.parts.reverse

end OpenKey

namespace Builder

/-- Takes in a finished value. -/
def put (b : Builder) (v : Toml) : Builder :=
  match b.frames with
  | [] => { b with statements := .entry b.key v :: b.statements, awaiting := .lineEnd }
  | .array es :: fs => { b with frames := .array (v :: es) :: fs, awaiting := .separator }
  | .entry es k :: fs => { b with frames := .inline ((k, v) :: es) :: fs, awaiting := .separator }
  | .inline es :: fs => { b with frames := .inline es :: fs, awaiting := .separator }

/-- Opens an array or inline table. -/
def push? (b : Builder) (f : Frame) (awaiting : Awaiting) : Option Builder :=
  if b.frames.length < maxDepth then
    some { b with frames := f :: b.frames, awaiting := awaiting }
  else none

/-- Closes the innermost array or inline table. -/
def close? (b : Builder) (t : Token) : Option Builder :=
  match b.frames, t with
  | .array es :: fs, .closeList => some ({ b with frames := fs }.put (.array es.reverse false))
  | .inline es :: fs, .closeTable => do
    let entries ← es.reverse.foldlM (fun entries (k, v) => assign? entries k v) []
    return { b with frames := fs }.put (.table entries .inline)
  | _, _ => none

/-- The key of an entry is complete. -/
def beginValue (b : Builder) (k : OpenKey) : Builder :=
  match b.frames with
  | .inline es :: fs => { b with frames := .entry es k.path :: fs, awaiting := .value }
  | _ => { b with key := k.path, awaiting := .value }

/-- Reads a token of a value's start. -/
def value? (b : Builder) : Token → Option Builder
  | .blank _ => some b
  | .text s _ => some (b.put (.text s))
  | .atom cs => some { b with awaiting := .scalar cs }
  | .openList => b.push? (.array []) .elementOrEnd
  | .openTable => b.push? (.inline []) .entryOrEnd
  | _ => none

/-- Reads a token after a value. -/
def after? (b : Builder) (t : Token) : Option Builder :=
  match b.awaiting, t with
  | _, .blank _ => some b
  | .lineEnd, .newline => some { b with awaiting := .line }
  | .separator, .newline => some b
  | .separator, .comma =>
    match b.frames with
    | .array _ :: _ => some { b with awaiting := .elementOrEnd }
    | _ => some { b with awaiting := .entryOrEnd }
  | .separator, t => b.close? t
  | _, _ => none

/-- Ends an unquoted value and reads the token after it. -/
def endScalar? (b : Builder) (cs : List Char) (t : Token) : Option Builder := do
  (b.put (← scalar? cs)).after? t

/-- Reads one token; none where it may not stand. -/
def step? (b : Builder) (t : Token) : Option Builder :=
  match b.awaiting with
  | .line =>
    match t with
    | .newline | .blank _ => some b
    | .openList => some { b with awaiting := .header false {} }
    | t => (OpenKey.step? {} t).map fun k => { b with awaiting := .key k }
  | .header element k =>
    match t with
    | .openList =>
      if !element && k = {} then some { b with awaiting := .header true {} } else none
    | .closeList =>
      if !k.complete then none
      else if element then
        some { b with statements := .element k.path :: b.statements, awaiting := .elementEnd }
      else some { b with statements := .header k.path :: b.statements, awaiting := .lineEnd }
    | t => (k.step? t).map fun k => { b with awaiting := .header element k }
  | .elementEnd => if t = .closeList then some { b with awaiting := .lineEnd } else none
  | .key k =>
    if t = .equals then if k.complete then some (b.beginValue k) else none
    else (k.step? t).map fun k => { b with awaiting := .key k }
  | .value => b.value? t
  | .scalar cs =>
    match t with
    | .atom more => some { b with awaiting := .scalar (cs ++ more) }
    | .dot => some { b with awaiting := .scalar (cs ++ ['.']) }
    | .blank true =>
      if Scalar.isDate cs then some { b with awaiting := .time cs } else b.endScalar? cs t
    | t => b.endScalar? cs t
  | .time date =>
    match t with
    | .atom (c :: more) =>
      if c.isDigit then some { b with awaiting := .scalar (date ++ ' ' :: c :: more) } else none
    | t => b.endScalar? date t
  | .elementOrEnd =>
    match t with
    | .newline => some b
    | .closeList => b.close? t
    | t => b.value? t
  | .entryOrEnd =>
    match t with
    | .newline | .blank _ => some b
    | .closeTable => b.close? t
    | t => (OpenKey.step? {} t).map fun k => { b with awaiting := .key k }
  | .lineEnd | .separator => b.after? t

end Builder

/-- The table of a document, none if its text has a flaw. -/
def parse? (cs : List Char) : Option Entries := do
  let tokens ← Token.scan? cs
  let b ← (tokens ++ [Token.newline]).foldlM Builder.step? {}
  if b.awaiting = .line then ofStatements? b.statements.reverse else none

end Document
end NetworkPolicy.Toml
