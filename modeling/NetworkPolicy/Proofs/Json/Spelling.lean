import NetworkPolicy.Json.Document

/-! How JSON is written: the spellings of numbers, strings and whole values, with white space between
tokens. A value may be written in many ways; which characters a text consists of, and which digits a
number, is told by its spelling. -/
namespace NetworkPolicy.Json

open Text (Symbol ofChars)

/-! ### Numbers -/

namespace Numeral

/-- Digits in base ten as characters. -/
def digitChars (ds : List Nat) : List Char := ds.map Nat.digitChar

/-- The digits before the point, behind a sign or none: no zero stands before others. -/
inductive WholeSpelt : Bool → List Nat → List Char → Prop where
  | zero : WholeSpelt false [0] ['0']
  | digits {d : Nat} {ds : List Nat} : 0 < d → (∀ e ∈ d :: ds, e < 10) →
      WholeSpelt false (d :: ds) (digitChars (d :: ds))
  | minus {ds : List Nat} {cs : List Char} : WholeSpelt false ds cs →
      WholeSpelt true ds ('-' :: cs)

inductive FractionSpelt : List Nat → List Char → Prop where
  | none : FractionSpelt [] []
  | point {ds : List Nat} : ds ≠ [] → (∀ d ∈ ds, d < 10) → FractionSpelt ds ('.' :: digitChars ds)

inductive ExponentSpelt : Bool → List Nat → List Char → Prop where
  | none : ExponentSpelt false [] []
  | mark {negative : Bool} {mark : Char} {sign : List Char} {ds : List Nat} :
      mark ∈ ['e', 'E'] → (negative, sign) ∈ [(false, []), (false, ['+']), (true, ['-'])] →
      ds ≠ [] → (∀ d ∈ ds, d < 10) → ExponentSpelt negative ds (mark :: sign ++ digitChars ds)

/-- The characters write the number. -/
inductive Spelt : Numeral → List Char → Prop where
  | mk {negative exponentNegative : Bool} {whole fraction exponent : List Nat}
      {cs ds es : List Char} : WholeSpelt negative whole cs → FractionSpelt fraction ds →
      ExponentSpelt exponentNegative exponent es →
      Spelt ⟨negative, whole, fraction, exponentNegative, exponent,
        fraction.isEmpty && exponent.isEmpty⟩ (cs ++ ds ++ es)

end Numeral

/-! ### Strings -/

/-- A hexadecimal digit of either case. -/
def HexSpelt (d : Nat) (c : Char) : Prop :=
  d < 16 ∧ (c = Nat.digitChar d ∨ c = (Nat.digitChar d).toUpper)

/-- Four hexadecimal digits write the unit behind a backslash. -/
inductive UnitSpelt : Nat → List Char → Prop where
  | mk {d₁ d₂ d₃ d₄ : Nat} {c₁ c₂ c₃ c₄ : Char} : HexSpelt d₁ c₁ → HexSpelt d₂ c₂ → HexSpelt d₃ c₃ →
      HexSpelt d₄ c₄ →
      UnitSpelt (((d₁ * 16 + d₂) * 16 + d₃) * 16 + d₄) ['\\', 'u', c₁, c₂, c₃, c₄]

/-- The letters that stand for characters behind a backslash. -/
def escapes : List (Char × Char) :=
  [('"', '"'), ('\\', '\\'), ('/', '/'), ('b', '\x08'), ('f', '\x0c'), ('n', '\n'), ('r', '\r'),
    ('t', '\t')]

/-- The ways to write a character in a string. -/
inductive CharSpelt : Char → List Char → Prop where
  | plain {c : Char} : c ≠ '"' → c ≠ '\\' → ' ' ≤ c → CharSpelt c [c]
  | letter {e c : Char} : (e, c) ∈ escapes → CharSpelt c ['\\', e]
  | unit {u : Nat} {cs : List Char} : UnitSpelt u cs → u < 0xD800 ∨ 0xDFFF < u →
      CharSpelt (Char.ofNat u) cs
  /-- Two surrogates stand for a character beyond the first plane. -/
  | pair {high low : Nat} {cs ds : List Char} : UnitSpelt high cs → UnitSpelt low ds →
      0xD800 ≤ high → high ≤ 0xDBFF → 0xDC00 ≤ low → low ≤ 0xDFFF →
      CharSpelt (Char.ofNat (0x10000 + (high - 0xD800) * 0x400 + (low - 0xDC00))) (cs ++ ds)

/-- The characters one after the other. -/
inductive CharsSpelt : List Char → List Char → Prop where
  | nil : CharsSpelt [] []
  | cons {c : Char} {cs ds es : List Char} : CharSpelt c ds → CharsSpelt cs es →
      CharsSpelt (c :: cs) (ds ++ es)

/-! ### Tokens -/

namespace Token

/-- The ways to write a token. -/
inductive Spelt : Token → List Symbol → Prop where
  | openList : Spelt .openList (ofChars ['['])
  | closeList : Spelt .closeList (ofChars [']'])
  | openObject : Spelt .openObject (ofChars ['{'])
  | closeObject : Spelt .closeObject (ofChars ['}'])
  | comma : Spelt .comma (ofChars [','])
  | colon : Spelt .colon (ofChars [':'])
  | null : Spelt .null (ofChars ['n', 'u', 'l', 'l'])
  | trueWord : Spelt (.bool true) (ofChars ['t', 'r', 'u', 'e'])
  | falseWord : Spelt (.bool false) (ofChars ['f', 'a', 'l', 's', 'e'])
  | number {n : Numeral} {cs : List Char} : n.Spelt cs → Spelt (.number n) (ofChars cs)
  | text {s : String} {cs : List Char} : CharsSpelt s.toList cs →
      Spelt (.string (.text s)) (ofChars ('"' :: cs ++ ['"']))
  /-- A string in quotes that stands for no text, whichever its fault is. -/
  | faulty {f : Fault} {ss : List Symbol} :
      ss.foldl Lexer.step {} = ⟨[.string (.faulty f)], .between⟩ → Spelt (.string (.faulty f)) ss

/-- What follows would be taken for part of a number. -/
def GoesOn (ss : List Symbol) : Prop :=
  ∃ c rest, ss = .char c :: rest ∧ (c ∈ ['.', 'e', 'E'] ∨ ∃ d < 10, c = Nat.digitChar d)

/-- The token is a number. -/
def IsNumber (t : Token) : Prop := ∃ n, t = .number n

/-- The tokens one after the other with white space between, before and after them. -/
inductive Spells : List Token → List Symbol → Prop where
  | nil : Spells [] []
  | space {c : Char} {ts : List Token} {ss : List Symbol} : c ∈ [' ', '\t', '\n', '\r'] →
      Spells ts ss → Spells ts (.char c :: ss)
  | token {t : Token} {ts : List Token} {ss rest : List Symbol} : t.Spelt ss → Spells ts rest →
      (t.IsNumber → ¬ GoesOn rest) → Spells (t :: ts) (ss ++ rest)

/-- The token comes to its end. -/
def Whole : Token → Prop
  | .brokenString _ | .brokenValue _ | .stray => False
  | _ => True

end Token

/-! ### Values -/

namespace Document

mutual

/-- The tokens that write a value. -/
def lexemes : Document → List Token
  | .null => [.null]
  | .bool b => [.bool b]
  | .number n => [.number n]
  | .string s => [.string s]
  | .list es _ => .openList :: [Token.comma].intercalate (elementLexemes es) ++ [.closeList]
  | .object ms _ => .openObject :: [Token.comma].intercalate (memberLexemes ms) ++ [.closeObject]
  | .flawed _ => []

def elementLexemes : List Document → List (List Token)
  | [] => []
  | d :: ds => lexemes d :: elementLexemes ds

def memberLexemes : List (Literal × Document) → List (List Token)
  | [] => []
  | (k, d) :: ms => (.string k :: .colon :: lexemes d) :: memberLexemes ms

end

mutual

/-- A value without flaws: all lists and objects in it are closed. -/
def Whole : Document → Prop
  | .list es ending => WholeElements es ∧ ending = .closed
  | .object ms ending => WholeMembers ms ∧ ending = .closed
  | .flawed _ => False
  | _ => True

def WholeElements : List Document → Prop
  | [] => True
  | d :: ds => Whole d ∧ WholeElements ds

def WholeMembers : List (Literal × Document) → Prop
  | [] => True
  | (_, d) :: ms => Whole d ∧ WholeMembers ms

end

/-- The text writes the value. -/
def Spelt (d : Document) (ss : List Symbol) : Prop := d.Whole ∧ Token.Spells d.lexemes ss

end Document
end NetworkPolicy.Json
