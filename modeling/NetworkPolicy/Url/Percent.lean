import NetworkPolicy.Number.Digits

/-! Percent-encoding: bytes written as `%` and two hexadecimal digits. -/

namespace NetworkPolicy.Percent

/-- A digit below sixteen, as a capital letter from ten on. -/
def digitChar (n : Nat) : Char := (Nat.digitChar n).toUpper

def encodeByte (b : UInt8) : List Char :=
  ['%', digitChar (b.toNat / 16), digitChar (b.toNat % 16)]

/-- A character as it is, or else its UTF-8 bytes encoded. -/
def encodeChar (keep : Char → Bool) (c : Char) : List Char :=
  if keep c then [c] else (String.utf8EncodeChar c).flatMap encodeByte

def encode (keep : Char → Bool) (cs : List Char) : List Char := cs.flatMap (encodeChar keep)

/-- The number that a byte gives as a hexadecimal digit. -/
def hexValue? (b : UInt8) : Option Nat := Number.hexDigit? (Char.ofNat b.toNat)

/-- The bytes that were encoded; a `%` without two digits stands for itself. -/
def decode : List UInt8 → List UInt8
  | 0x25 :: h :: l :: rest =>
    match hexValue? h, hexValue? l with
    | some x, some y => (x * 16 + y).toUInt8 :: decode rest
    | _, _ => 0x25 :: decode (h :: l :: rest)
  | b :: rest => b :: decode rest
  | [] => []

/-- The UTF-8 bytes of characters. -/
def bytes (cs : List Char) : List UInt8 := cs.flatMap String.utf8EncodeChar

end NetworkPolicy.Percent
