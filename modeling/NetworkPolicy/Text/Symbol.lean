/-! Received text: characters, and the byte runs between them that are no UTF-8. -/

namespace NetworkPolicy.Text

/-- One unit of received text. -/
inductive Symbol where
  | char (c : Char)
  /-- A longest run of bytes that could still become a character and does not. -/
  | stray (bytes : List UInt8)
  deriving DecidableEq, Repr

namespace Symbol

/-- Number of bytes the unit was received in. -/
def width : Symbol → Nat
  | char c => c.utf8Size
  | stray bytes => bytes.length

/-- The character, if the unit is one. -/
def char? : Symbol → Option Char
  | char c => some c
  | stray _ => none

/-- An unfinished character: its bytes so far (last first), the bits they give, how many bytes
it lacks and the range its next byte must lie in. -/
structure Unfinished where
  bytes : List UInt8
  bits : Nat
  lacking : Nat
  low : UInt8 := 0x80
  high : UInt8 := 0xBF
  deriving DecidableEq, Repr

/-- Reads a byte that stands at the start of a unit. -/
def start (b : UInt8) : Symbol ⊕ Unfinished :=
  if b < 0x80 then .inl (.char (Char.ofNat b.toNat))
  else if b < 0xC2 then .inl (.stray [b])
  else if b < 0xE0 then .inr ⟨[b], b.toNat - 0xC0, 1, 0x80, 0xBF⟩
  else if b == 0xE0 then .inr ⟨[b], 0, 2, 0xA0, 0xBF⟩
  else if b == 0xED then .inr ⟨[b], 13, 2, 0x80, 0x9F⟩
  else if b < 0xF0 then .inr ⟨[b], b.toNat - 0xE0, 2, 0x80, 0xBF⟩
  else if b == 0xF0 then .inr ⟨[b], 0, 3, 0x90, 0xBF⟩
  else if b < 0xF4 then .inr ⟨[b], b.toNat - 0xF0, 3, 0x80, 0xBF⟩
  else if b == 0xF4 then .inr ⟨[b], 4, 3, 0x80, 0x8F⟩
  else .inl (.stray [b])

/-- Splits bytes into units, `pending` being the character under way. -/
def split : Option Unfinished → List UInt8 → List Symbol
  | none, [] => []
  | some p, [] => [.stray p.bytes.reverse]
  | none, b :: rest =>
    match start b with
    | .inl s => s :: split none rest
    | .inr p => split (some p) rest
  | some p, b :: rest =>
    if p.low ≤ b && b ≤ p.high then
      let bits := p.bits * 64 + (b.toNat - 0x80)
      if p.lacking ≤ 1 then .char (Char.ofNat bits) :: split none rest
      else split (some ⟨b :: p.bytes, bits, p.lacking - 1, 0x80, 0xBF⟩) rest
    else
      .stray p.bytes.reverse ::
        match start b with
        | .inl s => s :: split none rest
        | .inr q => split (some q) rest

end Symbol

/-- The units of a text. -/
def ofChars (cs : List Char) : List Symbol := cs.map .char

/-- The units of a text held as bytes; well-formed UTF-8 has characters only. -/
def ofBytes (b : ByteArray) : List Symbol :=
  match b.utf8Decode? with
  | some cs => ofChars cs.toList
  | none => Symbol.split none b.toList

/-- The units of a text held as a list of bytes. -/
def ofByteList (bs : List UInt8) : List Symbol := ofBytes ⟨bs.toArray⟩

/-- The text, if every unit is a character. -/
def strict? (ss : List Symbol) : Option (List Char) := ss.mapM Symbol.char?

/-- The text with U+FFFD in the place of every run that is no character. -/
def lossy (ss : List Symbol) : List Char := ss.map fun s => s.char?.getD '\uFFFD'

theorem ofBytes_utf8Encode (cs : List Char) : ofBytes cs.utf8Encode = ofChars cs := by
  simp [ofBytes]

end NetworkPolicy.Text
