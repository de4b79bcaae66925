import NetworkPolicy.Json.Token

/-! The tree of a JSON text, up to its first flaw. -/

namespace NetworkPolicy.Json

/-- How a list ends. -/
inductive ListEnd where
  | closed
  /-- The text ends after the opening bracket or an element. -/
  | cutShort
  /-- The text ends after a comma. -/
  | cutAfterComma
  | trailingComma
  /-- An element is followed by neither a comma nor the closing bracket. -/
  | noSeparator
  deriving DecidableEq, Repr

/-- How an object ends. -/
inductive ObjectEnd where
  | closed
  /-- The text ends after the opening brace or a member. -/
  | cutShort
  /-- The text ends after a comma. -/
  | cutAfterComma
  | trailingComma
  /-- A member is followed by neither a comma nor the closing brace. -/
  | noSeparator
  /-- Something that is no string stands in the place of a key. -/
  | noKey
  | brokenKey (f : Flaw)
  deriving DecidableEq, Repr

/-- The flaw of an end, if it is one. -/
def ListEnd.flaw? : ListEnd → Option Flaw
  | closed => none
  | cutShort => some ⟨.listCutShort, .listCutShort⟩
  | cutAfterComma => some ⟨.valueCutShort, .valueCutShort⟩
  | trailingComma => some ⟨.trailingComma, .noValue⟩
  | noSeparator => some ⟨.noListSeparator, .noListSeparator⟩

@[inherit_doc ListEnd.flaw?]
def ObjectEnd.flaw? : ObjectEnd → Option Flaw
  | closed => none
  | cutShort => some ⟨.objectCutShort, .objectCutShort⟩
  | cutAfterComma => some ⟨.valueCutShort, .objectCutShort⟩
  | trailingComma => some ⟨.trailingComma, .keyNotString⟩
  | noSeparator => some ⟨.noObjectSeparator, .noObjectSeparator⟩
  | noKey => some ⟨.keyNotString, .keyNotString⟩
  | brokenKey f => some f

/-- A value as written. Members keep their order and may repeat a key. -/
inductive Document where
  | null
  | bool (b : Bool)
  | number (n : Numeral)
  | string (s : Literal)
  | list (elements : List Document) (ending : ListEnd)
  | object (members : List (Literal × Document)) (ending : ObjectEnd)
  | flawed (f : Flaw)
  deriving Repr

namespace Document

/-- A list or object under way, its parts last first. -/
inductive Frame where
  | list (elements : List Document)
  | object (members : List (Literal × Document))
  /-- The value of `key` is under way. -/
  | member (members : List (Literal × Document)) (key : Literal)
  deriving Repr

/-- What may come next. -/
inductive Awaiting where
  | value
  | elementOrEnd
  | keyOrEnd
  | key
  | colon
  | separator
  deriving DecidableEq, Repr

/-- A tree under way; `frames` are the open lists and objects, innermost first. -/
structure Builder where
  frames : List Frame := []
  awaiting : Awaiting := .value
  /-- The finished tree. -/
  root : Option Document := none
  /-- Something follows the finished tree. -/
  surplus : Bool := false
  /-- The tree has a flaw: nothing more is read. -/
  stopped : Bool := false
  deriving Repr

namespace Builder

/-- Adds a finished value to the innermost frame. -/
def put (b : Builder) (d : Document) : Builder :=
  match b.frames with
  | [] => { b with root := some d, awaiting := .separator }
  | .list es :: fs => { b with frames := .list (d :: es) :: fs, awaiting := .separator }
  | .member ms k :: fs => { b with frames := .object ((k, d) :: ms) :: fs, awaiting := .separator }
  | .object ms :: fs => { b with frames := .object ms :: fs, awaiting := .separator }

/-- The value around a finished one; frames outside a flaw count as closed. -/
def wrap (d : Document) : List Frame → Document
  | [] => d
  | .list es :: fs => wrap (.list (d :: es).reverse .closed) fs
  | .member ms k :: fs => wrap (.object ((k, d) :: ms).reverse .closed) fs
  | .object ms :: fs => wrap (.object ms.reverse .closed) fs

/-- Ends the tree at a flaw in the place of a value. -/
def stop (b : Builder) (d : Document) : Builder :=
  { b with root := some (wrap d b.frames), frames := [], stopped := true }

/-- Ends the innermost list with `ending`. -/
def endList (b : Builder) (ending : ListEnd) : Builder :=
  match b.frames with
  | .list es :: fs =>
    let d := .list es.reverse ending
    if ending = .closed then { b with frames := fs }.put d else { b with frames := fs }.stop d
  | _ => b

/-- Ends the innermost object with `ending`. -/
def endObject (b : Builder) (ending : ObjectEnd) : Builder :=
  match b.frames with
  | .object ms :: fs =>
    let d := .object ms.reverse ending
    if ending = .closed then { b with frames := fs }.put d else { b with frames := fs }.stop d
  | _ => b

/-- Reads a token where a value must start. -/
def startValue (b : Builder) : Token → Builder
  | .null => b.put .null
  | .bool v => b.put (.bool v)
  | .number n => b.put (.number n)
  | .string s => b.put (.string s)
  | .openList => { b with frames := .list [] :: b.frames, awaiting := .elementOrEnd }
  | .openObject => { b with frames := .object [] :: b.frames, awaiting := .keyOrEnd }
  | .brokenString f | .brokenValue f => b.stop (.flawed f)
  | .closeList | .closeObject | .comma | .colon | .stray => b.stop (.flawed ⟨.noValue, .noValue⟩)

/-- Reads a token where a key must start. -/
def startKey (b : Builder) (t : Token) : Builder :=
  match b.frames, t with
  | .object ms :: fs, .string s => { b with frames := .member ms s :: fs, awaiting := .colon }
  | _, .brokenString f => b.endObject (.brokenKey f)
  | _, _ => b.endObject .noKey

/-- Reads a token after a finished value. -/
def separate (b : Builder) (t : Token) : Builder :=
  match b.frames, t with
  | [], _ => { b with surplus := true, stopped := true }
  | .list _ :: _, .comma => { b with awaiting := .value }
  | .list _ :: _, .closeList => b.endList .closed
  | .list _ :: _, _ => b.endList .noSeparator
  | _, .comma => { b with awaiting := .key }
  | _, .closeObject => b.endObject .closed
  | _, _ => b.endObject .noSeparator

/-- Reads one token. -/
def step (b : Builder) (t : Token) : Builder :=
  if b.stopped then b
  else match b.awaiting with
  | .value =>
    match b.frames, t with
    | .list _ :: _, .closeList => b.endList .trailingComma
    | _, _ => b.startValue t
  | .elementOrEnd => if t = .closeList then b.endList .closed else b.startValue t
  | .keyOrEnd => if t = .closeObject then b.endObject .closed else b.startKey t
  | .key => if t = .closeObject then b.endObject .trailingComma else b.startKey t
  | .colon =>
    if t = .colon then { b with awaiting := .value } else b.stop (.flawed ⟨.noColon, .noColon⟩)
  | .separator => b.separate t

/-- The tree when the text ends here, and whether something follows it. -/
def finish (b : Builder) : Document × Bool :=
  let b := if b.stopped then b else match b.awaiting, b.frames with
    | .value, .list _ :: _ => b.endList .cutAfterComma
    | .value, _ => b.stop (.flawed ⟨.valueCutShort, .valueCutShort⟩)
    | .colon, _ => b.stop (.flawed ⟨.objectCutShort, .objectCutShort⟩)
    | .key, _ => b.endObject .cutAfterComma
    | .elementOrEnd, _ => b.endList .cutShort
    | .keyOrEnd, _ => b.endObject .cutShort
    | .separator, [] => b
    | .separator, .list _ :: _ => b.endList .cutShort
    | .separator, _ => b.endObject .cutShort
  (b.root.getD (.flawed ⟨.valueCutShort, .valueCutShort⟩), b.surplus)

end Builder

/-- The tree of a token sequence, and whether something follows it. -/
def ofTokens (ts : List Token) : Document × Bool := (ts.foldl Builder.step {}).finish

/-- The tree of a text, and whether something follows it. -/
def ofText (text : List Text.Symbol) : Document × Bool := ofTokens (Token.scan text)

mutual

/-- Passes over a value: only the flaws of its form count. -/
def skip : Document → Except Fault Unit
  | .null | .bool _ | .number _ | .string _ => .ok ()
  | .list es ending => do
    skipElements es
    match ending.flaw? with
    | some f => .error f.skip
    | none => .ok ()
  | .object ms ending => do
    skipMembers ms
    match ending.flaw? with
    | some f => .error f.skip
    | none => .ok ()
  | .flawed f => .error f.skip

def skipElements : List Document → Except Fault Unit
  | [] => .ok ()
  | d :: ds => do skip d; skipElements ds

def skipMembers : List (Literal × Document) → Except Fault Unit
  | [] => .ok ()
  | (_, d) :: ms => do skip d; skipMembers ms

end

end Document
end NetworkPolicy.Json
