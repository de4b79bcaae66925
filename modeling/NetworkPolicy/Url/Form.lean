import NetworkPolicy.Text.Symbol
import NetworkPolicy.Url.Percent

/-! Form encoding: pairs of names and values in one line of characters. -/

namespace NetworkPolicy.Form

/-- The characters that are written as they are. -/
def isPlain (c : Char) : Bool := c.isAlphanum || c == '*' || c == '-' || c == '.' || c == '_'

/-- A character of a name or value; a space is written as a plus. -/
def encodeChar (c : Char) : List Char :=
  if c = ' ' then ['+'] else Percent.encodeChar isPlain c

def encode (s : String) : List Char := s.toList.flatMap encodeChar

/-- Pairs with their names and values encoded. -/
def render (pairs : List (String × String)) : List Char :=
  ['&'].intercalate (pairs.map fun (k, v) => encode k ++ '=' :: encode v)

/-- A plus stands for a space. -/
def space (b : UInt8) : UInt8 := if b = 0x2B then 0x20 else b

/-- A name or value; bytes that are no UTF-8 are replaced. -/
def decode (bs : List UInt8) : String :=
  String.ofList (Text.lossy (Text.ofByteList (Percent.decode (bs.map space))))

/-- The name before the first equals sign and the value after it. -/
def pair (bs : List UInt8) : String × String :=
  (decode (bs.takeWhile (· != 0x3D)), decode (bs.dropWhile (· != 0x3D)).tail)

/-- The pairs between ampersands, empty ones left out. -/
def parse (bs : List UInt8) : List (String × String) :=
  ((bs.splitOn 0x26).filter (!·.isEmpty)).map pair

end NetworkPolicy.Form
