import NetworkPolicy.Access.Collaborators
import NetworkPolicy.Files
import NetworkPolicy.Text.Base64
import NetworkPolicy.Text.Symbol

/-! Files of certificates that a client trusts. -/

namespace NetworkPolicy.Certificate

/-! ### Elements of binary data -/

/-- An element: its tag and its content. -/
structure Element where
  tag : UInt8
  content : List UInt8
  deriving DecidableEq, Repr

/-- The length at the front, in as few bytes as it takes, and the bytes after it. -/
def length? : List UInt8 → Option (Nat × List UInt8)
  | [] => none
  | b :: rest =>
    if b < 0x80 then some (b.toNat, rest)
    else
      let count := b.toNat - 0x80
      let n := (rest.take count).foldl (fun n b => n * 256 + b.toNat) 0
      if rest.length < count || 4 < count || n < 0x80 || n < Nat.pow 256 (count - 1) then none
      else some (n, rest.drop count)

/-- The elements that bytes are made of; `limit` of them at most. -/
def elements? : Nat → List UInt8 → Option (List Element)
  | _, [] => some []
  | 0, _ :: _ => none
  | limit + 1, tag :: rest => do
    let (n, rest) ← length? rest
    if rest.length < n || tag &&& 0x1F = 0x1F then none
    else return ⟨tag, rest.take n⟩ :: (← elements? limit (rest.drop n))

/-- The elements within bytes. -/
def parts? (bytes : List UInt8) : Option (List Element) := elements? bytes.length bytes

/-- Whether bytes are a certificate: a body, an algorithm and a signature. The body is an optional
version, a serial number, an algorithm, the issuer, the validity, the subject, its key, and more. -/
def isWellFormed (bytes : List UInt8) : Bool :=
  match parts? bytes with
  | some [⟨0x30, whole⟩] =>
    match parts? whole with
    | some [⟨0x30, body⟩, ⟨0x30, _⟩, ⟨0x03, _⟩] =>
      match parts? body with
      | some fields =>
        ((fields.dropWhile (·.tag == 0xA0)).take 6).map (·.tag) ==
          [0x02, 0x30, 0x30, 0x30, 0x30, 0x30]
      | none => false
    | _ => false
  | _ => false

/-! ### Blocks of text -/

/-- A line without blanks at its end. -/
def trimmed (line : List Char) : List Char :=
  (line.reverse.dropWhile fun c => c == ' ' || c == '\r' || c == '\t').reverse

/-- The label of the block that a line begins. -/
def label? (line : List Char) : Option (List Char) :=
  let opening := "-----BEGIN ".toList
  let line := trimmed line
  let dashes := (line.reverse.takeWhile (· == '-')).length
  if dashes = 5 then some ((line.drop opening.length).take (line.length - 5 - opening.length))
  else none

/-- A block: its label and the characters in it. -/
structure Block where
  label : List Char
  text : List Char
  deriving DecidableEq, Repr

/-- The blocks of lines, of which the one under way may be open; none if one does not end. -/
def blocks? : Option Block → List (List Char) → Option (List Block)
  | none, [] => some []
  | some _, [] => none
  | block, line :: rest =>
    if "-----BEGIN ".toList.isPrefixOf line then
      match label? line with
      | some l => blocks? (some ⟨l, []⟩) rest
      | none => none
    else
      match block with
      | none => blocks? none rest
      | some b =>
        if ("-----END ".toList ++ b.label ++ "-----".toList).isPrefixOf line then do
          return b :: (← blocks? none rest)
        else blocks? (some { b with text := b.text ++ trimmed line }) rest

/-- Whether each certificate block of a text holds a certificate. -/
def areReadable (cs : List Char) : Bool :=
  match blocks? none (cs.splitOn '\n') with
  | none => false
  | some bs => (bs.filter (·.label == "CERTIFICATE".toList)).all fun b =>
    ((Base64.decode? b.text).map isWellFormed).getD false

/-- Reads the file of the certificates to trust. It counts for nothing where the other side is not
checked at all. -/
def trust (f : Files) (path : Option String) (skip : Bool) : Except ServiceError Unit :=
  match path with
  | none => .ok ()
  | some path =>
    if skip then .ok ()
    else
      match f.read path with
      | .error e => .error (.unavailable s!"read ca cert: {e.message}")
      | .ok bytes =>
        if areReadable (Text.lossy (Text.ofByteList bytes)) then .ok ()
        else .error (.unavailable "builder error")

end NetworkPolicy.Certificate
