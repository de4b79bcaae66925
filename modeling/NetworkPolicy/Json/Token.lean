import NetworkPolicy.Json.Numeral
import NetworkPolicy.Number.Digits
import NetworkPolicy.Text.Symbol

/-! The tokens of a JSON text, read one symbol at a time. -/

namespace NetworkPolicy.Json

open Text (Symbol)

/-- A string as written: its text, or the fault that a reader of it meets. -/
inductive Literal where
  | text (s : String)
  | faulty (f : Fault)
  deriving DecidableEq, Repr

inductive Token where
  | openList | closeList | openObject | closeObject | comma | colon
  | null
  | bool (b : Bool)
  | number (n : Numeral)
  | string (s : Literal)
  /-- A string that does not come to its end. -/
  | brokenString (f : Flaw)
  /-- A number or word that does not come to its end. -/
  | brokenValue (f : Flaw)
  /-- A symbol that starts no token. -/
  | stray
  deriving DecidableEq, Repr

namespace Token

/-- Where in an escape a string stands. -/
inductive Escape where
  | none
  | backslash
  /-- After `\u`: how many bytes were taken, and their value while all are hexadecimal. -/
  | hex (taken : Nat) (value : Option Nat)
  deriving DecidableEq, Repr

/-- A string under way. -/
structure OpenString where
  /-- Characters so far, last first. -/
  chars : List Char := []
  /-- The first fault that only a reader of the string meets. -/
  fault : Option Fault := .none
  hasStray : Bool := false
  /-- A leading surrogate that waits for its other half. -/
  surrogate : Option Nat := .none
  escape : Escape := .none
  deriving DecidableEq, Repr

namespace OpenString

/-- Records a fault unless one came before. -/
def blame (o : OpenString) (f : Fault) : OpenString := { o with fault := o.fault.or (some f) }

/-- A waiting surrogate stays half if something else follows. -/
def settle (o : OpenString) : OpenString :=
  if o.surrogate.isSome then { o.blame .halfSurrogate with surrogate := .none } else o

def push (o : OpenString) (c : Char) : OpenString :=
  { o with chars := c :: o.chars, escape := .none }

/-- The flaw of a string that breaks off with `f`. -/
def broken (o : OpenString) (f : Fault) : Token := .brokenString ⟨o.fault.getD f, f⟩

/-- The finished string. -/
def close (o : OpenString) : Token :=
  let o := o.settle
  .string <| match o.fault, o.hasStray with
    | some f, _ => .faulty f
    | .none, true => .faulty .notUnicode
    | .none, false => .text (String.ofList o.chars.reverse)

/-- Takes in the unit of a finished `\u` escape. -/
def pushUnit (o : OpenString) (u : Nat) : OpenString :=
  let o := { o with escape := .none }
  let low := 0xDC00 ≤ u && u ≤ 0xDFFF
  match o.surrogate with
  | some high =>
    if low then
      { o with
        chars := Char.ofNat (0x10000 + (high - 0xD800) * 0x400 + (u - 0xDC00)) :: o.chars
        surrogate := .none }
    else { o.blame .loneSurrogate with surrogate := .none }
  | .none =>
    if low then o.blame .loneSurrogate
    else if 0xD800 ≤ u && u ≤ 0xDBFF then { o with surrogate := some u }
    else o.push (Char.ofNat u)

end OpenString

/-- The character that a one-letter escape stands for. -/
def escaped? : Char → Option Char
  | '"' => some '"'
  | '\\' => some '\\'
  | '/' => some '/'
  | 'b' => some '\x08'
  | 'f' => some '\x0c'
  | 'n' => some '\n'
  | 'r' => some '\r'
  | 't' => some '\t'
  | _ => none

/-- The part of a number that was written last. -/
inductive Stage where
  | sign | zero | whole | point | fraction | mark | markSign | exponent
  deriving DecidableEq, Repr

/-- A number may end after this part. -/
def Stage.complete : Stage → Bool
  | .zero | .whole | .fraction | .exponent => true
  | _ => false

/-- A number under way, its digits last first. -/
structure OpenNumber where
  numeral : Numeral
  stage : Stage
  deriving DecidableEq, Repr

namespace OpenNumber

/-- The number with one more character; none if the character is no part of it. -/
def extend? (o : OpenNumber) (c : Char) : Option OpenNumber :=
  let n := o.numeral
  let pointOrMark : Option OpenNumber :=
    if c == '.' && o.stage != .fraction then some ⟨{ n with integral := false }, .point⟩
    else if c == 'e' || c == 'E' then some ⟨{ n with integral := false }, .mark⟩
    else none
  match o.stage, Number.digit? c with
  | .sign, some 0 => some ⟨{ n with whole := [0] }, .zero⟩
  | .sign, some d | .whole, some d => some ⟨{ n with whole := d :: n.whole }, .whole⟩
  | .point, some d | .fraction, some d => some ⟨{ n with fraction := d :: n.fraction }, .fraction⟩
  | .mark, some d | .markSign, some d | .exponent, some d =>
    some ⟨{ n with exponent := d :: n.exponent }, .exponent⟩
  | .zero, none | .whole, none | .fraction, none => pointOrMark
  | .mark, none =>
    if c == '+' then some ⟨n, .markSign⟩
    else if c == '-' then some ⟨{ n with exponentNegative := true }, .markSign⟩
    else none
  | _, _ => none

/-- The number as written, its digits in order. -/
def close (o : OpenNumber) : Token :=
  .number { o.numeral with
    whole := o.numeral.whole.reverse
    fraction := o.numeral.fraction.reverse
    exponent := o.numeral.exponent.reverse }

end OpenNumber

/-- What the next symbol belongs to. -/
inductive Mode where
  | between
  | string (o : OpenString)
  | number (o : OpenNumber)
  | word (rest : List Char) (token : Token)
  /-- After a flaw nothing is read. -/
  | stopped
  deriving DecidableEq, Repr

/-- A text under way: its tokens so far, last first. -/
structure Lexer where
  tokens : List Token := []
  mode : Mode := .between
  deriving DecidableEq, Repr

namespace Lexer

def emit (l : Lexer) (t : Token) : Lexer := ⟨t :: l.tokens, .between⟩

def stop (l : Lexer) (t : Token) : Lexer := ⟨t :: l.tokens, .stopped⟩

/-- Only these four characters are white space. -/
def isSpace (c : Char) : Bool := c == ' ' || c == '\t' || c == '\n' || c == '\r'

/-- Reads a character that stands between tokens. -/
def start (l : Lexer) (c : Char) : Lexer :=
  if isSpace c then l
  else match c with
  | '[' => l.emit .openList
  | ']' => l.emit .closeList
  | '{' => l.emit .openObject
  | '}' => l.emit .closeObject
  | ',' => l.emit .comma
  | ':' => l.emit .colon
  | '"' => ⟨l.tokens, .string {}⟩
  | '-' => ⟨l.tokens, .number ⟨{ negative := true }, .sign⟩⟩
  | 't' => ⟨l.tokens, .word ['r', 'u', 'e'] (.bool true)⟩
  | 'f' => ⟨l.tokens, .word ['a', 'l', 's', 'e'] (.bool false)⟩
  | 'n' => ⟨l.tokens, .word ['u', 'l', 'l'] .null⟩
  | _ =>
    match OpenNumber.extend? ⟨{}, .sign⟩ c with
    | some o => ⟨l.tokens, .number o⟩
    | none => l.stop .stray

/-- Reads a symbol inside a string. -/
def inString (l : Lexer) (o : OpenString) (s : Symbol) : Lexer :=
  let go (o : OpenString) : Lexer := ⟨l.tokens, .string o⟩
  match o.escape, s with
  | .none, .stray _ => go { o.settle with hasStray := true }
  | .none, .char '"' => l.emit o.close
  | .none, .char '\\' => go { o with escape := .backslash }
  | .none, .char c =>
    if c < ' ' then l.stop (o.settle.broken .rawControl) else go (o.settle.push c)
  | .backslash, .char 'u' => go { o with escape := .hex 0 (some 0) }
  | .backslash, .char c =>
    match escaped? c with
    | some e => go (o.settle.push e)
    | none => l.stop (o.settle.broken .badEscape)
  | .backslash, .stray _ => l.stop (o.settle.broken .badEscape)
  | .hex taken value, s =>
    let value := do return (← value) * 16 + (← Number.hexDigit? (← s.char?))
    let taken := taken + s.width
    if taken < 4 then go { o with escape := .hex taken value }
    else match value with
      | some u => go (o.pushUnit u)
      | none => l.stop (o.broken .badEscape)

/-- Reads one symbol. -/
def step (l : Lexer) (s : Symbol) : Lexer :=
  match l.mode with
  | .stopped => l
  | .string o => l.inString o s
  | .between =>
    match s with
    | .char c => l.start c
    | .stray _ => l.stop .stray
  | .number o =>
    match s.char?.bind o.extend? with
    | some o => ⟨l.tokens, .number o⟩
    | none =>
      if o.stage.complete && !(o.stage == .zero && ((s.char?.bind Number.digit?).isSome)) then
        match s with
        | .char c => (l.emit o.close).start c
        | .stray _ => (l.emit o.close).stop .stray
      else l.stop (.brokenValue ⟨.badNumber, .badNumber⟩)
  | .word (c :: rest) t =>
    if s = .char c then
      if rest.isEmpty then l.emit t else ⟨l.tokens, .word rest t⟩
    else l.stop (.brokenValue ⟨.noWord, .noWord⟩)
  | .word [] t => l.emit t

/-- The tokens when the text ends here. -/
def finish (l : Lexer) : List Token :=
  List.reverse <| match l.mode with
    | .between | .stopped => l.tokens
    | .string o => o.broken .stringCutShort :: l.tokens
    | .number o =>
      (if o.stage.complete then o.close else .brokenValue ⟨.valueCutShort, .badNumber⟩) :: l.tokens
    | .word _ _ => .brokenValue ⟨.valueCutShort, .valueCutShort⟩ :: l.tokens

end Lexer

/-- The tokens of a text. -/
def scan (text : List Symbol) : List Token := (text.foldl Lexer.step {}).finish

end Token
end NetworkPolicy.Json
