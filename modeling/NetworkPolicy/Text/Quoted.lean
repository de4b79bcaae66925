import NetworkPolicy.Text.Unseen

/-! Text in quotation marks, as error messages show it. -/

namespace NetworkPolicy.Text

/-- A character inside quotation marks; one that shows nothing is written as its code point. -/
def quotedChar (c : Char) : List Char :=
  match c with
  | '\x00' => ['\\', '0']
  | '\t' => ['\\', 't']
  | '\r' => ['\\', 'r']
  | '\n' => ['\\', 'n']
  | '"' => ['\\', '"']
  | '\\' => ['\\', '\\']
  | c =>
    if c < ' ' || ('~' < c && isUnseen c) then
      ['\\', 'u', '{'] ++ Nat.toDigits 16 c.toNat ++ ['}']
    else [c]

/-- A text in quotation marks. -/
def quoted (s : String) : String := String.ofList ('"' :: s.toList.flatMap quotedChar ++ ['"'])

end NetworkPolicy.Text
