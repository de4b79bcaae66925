/-! Tags: the hexadecimal marks that stand for applications in network packets. -/

namespace NetworkPolicy

/-- Width of a tag. -/
inductive TagLength where
  | oneByte
  | twoBytes
  deriving DecidableEq, Repr

namespace TagLength

def bytes : TagLength → Nat
  | oneByte => 1
  | twoBytes => 2

/-- The tag length of a number of bytes. -/
def ofBytes? : Nat → Option TagLength
  | 1 => some oneByte
  | 2 => some twoBytes
  | _ => none

/-- Why a number of bytes is no tag length. -/
def refusal (bytes : Nat) : String := s!"tag length must be between 1 and 2 bytes, got {bytes}"

/-- How many tags of this width can be assigned; the tag of zeros is kept free. -/
def poolSize (l : TagLength) : Nat := Nat.pow 2 (8 * l.bytes) - 1

/-- The tag of a group: its id in capital hexadecimal digits, filled up with zeros to the width and
never cut. -/
def render (l : TagLength) (id : Nat) : String :=
  let digits := (Nat.toDigits 16 id).map Char.toUpper
  String.ofList (List.replicate (2 * l.bytes - digits.length) '0' ++ digits)

end TagLength

/-- The tag assigned to an application. -/
structure Tag where
  id : String
  tag : String
  deriving DecidableEq, Repr

end NetworkPolicy
