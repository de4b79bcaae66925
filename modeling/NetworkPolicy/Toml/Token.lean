import NetworkPolicy.Number.Digits

/-! The tokens of a TOML text. Comments leave none. -/

namespace NetworkPolicy.Toml

inductive Token where
  | newline
  /-- Blanks between tokens; a single space may join a date and a time. -/
  | blank (single : Bool)
  | dot | equals | comma | openList | closeList | openTable | closeTable
  /-- A quoted text; one on several lines is no key. -/
  | text (s : String) (multiline : Bool)
  /-- Characters that are no quoted text and no mark. -/
  | atom (cs : List Char)
  deriving DecidableEq, Repr

namespace Token

/-- Where in an escape a text stands. -/
inductive Escape where
  | none
  | backslash
  /-- So many hexadecimal digits are still to come. -/
  | hex (left value : Nat)
  /-- After a backslash at the end of a line, or before it: blanks are dropped. -/
  | fold (lineEnded : Bool)
  /-- After a carriage return, which only a line feed may follow. -/
  | lineEnd
  deriving DecidableEq, Repr

/-- A quoted text under way. -/
structure OpenText where
  /-- In double quotes: escapes count. -/
  escapes : Bool
  multiline : Bool := false
  /-- Characters so far, last first. -/
  chars : List Char := []
  /-- Quotes seen last, which may close the text. -/
  quotes : Nat := 0
  escape : Escape := .none
  /-- Nothing was taken in yet: a line end right after the opening quotes is dropped. -/
  fresh : Bool := true
  deriving DecidableEq, Repr

/-- What the next character belongs to. -/
inductive Mode where
  | between
  | comment
  /-- After a carriage return. -/
  | lineEnd
  | blanks (single : Bool)
  | atom (cs : List Char)
  /-- After one opening quote. -/
  | opened (escapes : Bool)
  /-- After two opening quotes. -/
  | openedTwice (escapes : Bool)
  | text (t : OpenText)
  deriving DecidableEq, Repr

/-- Control characters other than the tab are no part of a text or comment. -/
def isControl (c : Char) : Bool := (c < ' ' && c != '\t') || c == '\x7f'

def isMark (c : Char) : Bool :=
  c == '.' || c == '=' || c == ',' || c == '[' || c == ']' || c == '{' || c == '}' ||
    c == '"' || c == '\'' || c == '#' || c == ' ' || c == '\t' || c == '\n' || c == '\r'

/-- The character that a one-letter escape stands for. -/
def escaped? : Char → Option Char
  | 'b' => some '\x08'
  | 't' => some '\t'
  | 'n' => some '\n'
  | 'f' => some '\x0c'
  | 'r' => some '\r'
  | 'e' => some '\x1b'
  | '"' => some '"'
  | '\\' => some '\\'
  | _ => none

/-- The number of hexadecimal digits that an escape asks for. -/
def hexLength? : Char → Option Nat
  | 'x' => some 2
  | 'u' => some 4
  | 'U' => some 8
  | _ => none

namespace OpenText

def quoteChar (t : OpenText) : Char := if t.escapes then '"' else '\''

/-- The token of a closed text, of whose last quotes the first `inside` belong to it. -/
def close (t : OpenText) (inside : Nat) : Token :=
  .text (String.ofList (List.replicate inside t.quoteChar ++ t.chars).reverse) t.multiline

/-- Takes in a character that is no quote that might close the text. -/
def push (t : OpenText) (c : Char) : OpenText :=
  { t with
    chars := c :: List.replicate t.quotes t.quoteChar ++ t.chars
    quotes := 0
    escape := .none
    fresh := false }

/-- Takes in a line end. -/
def pushLine (t : OpenText) : OpenText :=
  if t.fresh && t.quotes == 0 then { t with escape := .none, fresh := false } else t.push '\n'

/-- Takes in a character; none if it may not stand there. -/
def step? (t : OpenText) (c : Char) : Option OpenText :=
  match t.escape with
  | .hex left value => do
    let value := value * 16 + (← Number.hexDigit? c)
    if left ≤ 1 then
      if value.isValidChar then some (t.push (Char.ofNat value)) else none
    else some { t with escape := .hex (left - 1) value }
  | .backslash =>
    match escaped? c, hexLength? c with
    | some e, _ => some (t.push e)
    | none, some n => some { t with escape := .hex n 0 }
    | none, none =>
      if t.multiline && (c == ' ' || c == '\t' || c == '\r') then
        some { t with escape := .fold false }
      else if t.multiline && c == '\n' then some { t with escape := .fold true }
      else none
  | .fold ended =>
    if c == ' ' || c == '\t' || c == '\r' then some t
    else if c == '\n' then some { t with escape := .fold true }
    else if !ended then none
    else if c == '\\' then some { t with escape := .backslash }
    else if isControl c then none
    else some (t.push c)
  | .lineEnd => if c == '\n' then some t.pushLine else none
  | .none =>
    if t.escapes && c == '\\' then
      some { t with
        chars := List.replicate t.quotes t.quoteChar ++ t.chars
        quotes := 0
        escape := .backslash
        fresh := false }
    else if t.multiline && c == '\n' then some t.pushLine
    else if t.multiline && c == '\r' then some { t with escape := .lineEnd }
    else if isControl c then none
    else some (t.push c)

end OpenText

/-- Reads a character that stands between tokens. -/
def start (c : Char) : Option (List Token × Mode) :=
  match c with
  | ' ' => some ([], .blanks true)
  | '\t' => some ([], .blanks false)
  | '\n' => some ([.newline], .between)
  | '\r' => some ([], .lineEnd)
  | '#' => some ([], .comment)
  | '.' => some ([.dot], .between)
  | '=' => some ([.equals], .between)
  | ',' => some ([.comma], .between)
  | '[' => some ([.openList], .between)
  | ']' => some ([.closeList], .between)
  | '{' => some ([.openTable], .between)
  | '}' => some ([.closeTable], .between)
  | '"' => some ([], .opened true)
  | '\'' => some ([], .opened false)
  | c => if isControl c then none else some ([], .atom [c])

/-- Reads a character in a quoted text. -/
def inText (t : OpenText) (c : Char) : Option (List Token × Mode) :=
  let plain : Option (List Token × Mode) := (t.step? c).map fun t => ([], .text t)
  if c == t.quoteChar && (t.escape = .none || t.escape = .fold true) then
    let t := { t with escape := .none }
    if !t.multiline then some ([t.close 0], .between)
    else if t.quotes = 4 then some ([t.close 2], .between)
    else some ([], .text { t with quotes := t.quotes + 1 })
  else if t.multiline && 3 ≤ t.quotes then
    (start c).map fun (ts, m) => (t.close (t.quotes - 3) :: ts, m)
  else plain

/-- Reads one character: the tokens that it completes, and the mode after it. -/
def step (m : Mode) (c : Char) : Option (List Token × Mode) :=
  match m with
  | .between => start c
  | .comment =>
    if c == '\n' then some ([.newline], .between)
    else if c == '\r' then some ([], .lineEnd)
    else if isControl c then none
    else some ([], .comment)
  | .lineEnd => if c == '\n' then some ([.newline], .between) else none
  | .blanks single =>
    if c == ' ' || c == '\t' then some ([], .blanks false)
    else (start c).map fun (ts, m) => (.blank single :: ts, m)
  | .atom cs =>
    if isMark c then (start c).map fun (ts, m) => (.atom cs.reverse :: ts, m)
    else if isControl c then none
    else some ([], .atom (c :: cs))
  | .opened escapes =>
    let t : OpenText := { escapes := escapes }
    if c == t.quoteChar then some ([], .openedTwice escapes) else inText t c
  | .openedTwice escapes =>
    let t : OpenText := { escapes := escapes, multiline := true }
    if c == t.quoteChar then some ([], .text { t with quotes := 0, escape := .none })
    else (start c).map fun (ts, m) => (.text "" false :: ts, m)
  | .text t => inText t c

/-- The token that the end of the text completes. -/
def finish : Mode → Option (List Token)
  | .between | .comment => some []
  | .lineEnd => none
  | .blanks single => some [.blank single]
  | .atom cs => some [.atom cs.reverse]
  | .opened _ => none
  | .openedTwice _ => some [.text "" false]
  | .text t => if t.multiline && 3 ≤ t.quotes then some [t.close (t.quotes - 3)] else none

/-- The tokens of a text from a mode on, none if it has a flaw. -/
def scanFrom : Mode → List Char → List Token → Option (List Token)
  | m, [], done => (finish m).map fun ts => (ts.reverse ++ done).reverse
  | m, c :: cs, done =>
    match step m c with
    | some (ts, m) => scanFrom m cs (ts.reverse ++ done)
    | none => none

/-- The tokens of a text, none if it has a flaw. A byte order mark in front is dropped. -/
def scan? (cs : List Char) : Option (List Token) :=
  let cs := if cs.head? = some '\uFEFF' then cs.tail else cs
  scanFrom .between cs []

end Token
end NetworkPolicy.Toml
