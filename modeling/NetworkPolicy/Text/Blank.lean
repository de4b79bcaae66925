/-! White space as Unicode defines it, and text without it at its ends. -/

namespace NetworkPolicy.Text

/-- The characters with the property White_Space. -/
def isBlank (c : Char) : Bool :=
  let n := c.toNat
  (0x09 ≤ n && n ≤ 0x0D) || n == 0x20 || n == 0x85 || n == 0xA0 || n == 0x1680 ||
    (0x2000 ≤ n && n ≤ 0x200A) || n == 0x2028 || n == 0x2029 || n == 0x202F || n == 0x205F ||
    n == 0x3000

/-- The text without leading blanks. -/
def trimLeft (cs : List Char) : List Char := cs.dropWhile isBlank

/-- The text without trailing blanks. -/
def trimRight (cs : List Char) : List Char := (cs.reverse.dropWhile isBlank).reverse

/-- The text without blanks at its ends. -/
def trim (cs : List Char) : List Char := trimRight (trimLeft cs)

/-- A text of blanks only says nothing. -/
def isBlankText (s : String) : Bool := s.toList.all isBlank

end NetworkPolicy.Text
