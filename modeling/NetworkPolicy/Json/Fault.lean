/-! Why a text is no JSON. -/

namespace NetworkPolicy.Json

/-- The ways in which a text fails to be JSON. -/
inductive Fault where
  | valueCutShort
  | stringCutShort
  | listCutShort
  | objectCutShort
  | noValue
  | noWord
  | noColon
  | noListSeparator
  | noObjectSeparator
  | keyNotString
  | trailingComma
  | trailingText
  | badNumber
  | badEscape
  | rawControl
  | halfSurrogate
  | loneSurrogate
  | notUnicode
  | tooLarge
  deriving DecidableEq, Repr

/-- What a reader is told. -/
def Fault.message : Fault → String
  | valueCutShort => "EOF while parsing a value"
  | stringCutShort => "EOF while parsing a string"
  | listCutShort => "EOF while parsing a list"
  | objectCutShort => "EOF while parsing an object"
  | noValue => "expected value"
  | noWord => "expected ident"
  | noColon => "expected `:`"
  | noListSeparator => "expected `,` or `]`"
  | noObjectSeparator => "expected `,` or `\x7d`"
  | keyNotString => "key must be a string"
  | trailingComma => "trailing comma"
  | trailingText => "trailing characters"
  | badNumber => "invalid number"
  | badEscape => "invalid escape"
  | rawControl => "control character (\\u0000-\\u001F) found while parsing a string"
  | halfSurrogate => "unexpected end of hex escape"
  | loneSurrogate => "lone leading surrogate in hex escape"
  | notUnicode => "invalid unicode code point"
  | tooLarge => "number out of range"

/-- What is wrong at one place: the fault that a reader of the value meets, and the one met by who
only passes over it. -/
structure Flaw where
  read : Fault
  skip : Fault := read
  deriving DecidableEq, Repr

end NetworkPolicy.Json
