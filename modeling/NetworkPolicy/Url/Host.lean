import NetworkPolicy.Network.Address
import NetworkPolicy.Text.Symbol
import NetworkPolicy.Url.Percent
import NetworkPolicy.Url.Punycode

/-! Hosts of URLs: domain names and addresses. -/

namespace NetworkPolicy.Url

/-- Why a text is no URL, or leads to none. -/
inductive Fault where
  | emptyHost
  | badDomain
  | badPort
  | badFour
  | badSix
  | badHostCharacter
  | relative
  | relativeToOpaque
  deriving DecidableEq, Repr

/-- The fault in words. -/
def Fault.message : Fault → String
  | emptyHost => "empty host"
  | badDomain => "invalid international domain name"
  | badPort => "invalid port number"
  | badFour => "invalid IPv4 address"
  | badSix => "invalid IPv6 address"
  | badHostCharacter => "invalid domain character"
  | relative => "relative URL without a base"
  | relativeToOpaque => "relative URL with a cannot-be-a-base base"

/-- A host. Domain names are held in lower case, with their characters decoded. -/
inductive Host where
  | domain (name : List Char)
  | address (a : Address)
  /-- The host of a scheme that no rules are known of. -/
  | opaqueName (name : List Char)
  deriving DecidableEq, Repr

namespace Host

/-- A character as it counts in a domain name: capital letters as small ones, wide forms as plain
ones; none if it counts for nothing. This is only a part of the mapping of UTS 46, with the capitals
of ASCII, of Latin-1 and of basic Greek and Cyrillic: a capital such as U+0100 stays as it is. -/
def fold (c : Char) : List Char :=
  let n := c.toNat
  if n < 128 then [c.toLower]
  else if n == 0xAD || n == 0x200B || n == 0x2060 || n == 0x2064 || n == 0xFEFF ||
    (0x180B ≤ n && n ≤ 0x180D) || (0xFE00 ≤ n && n ≤ 0xFE0F) then []
  else if n == 0x3002 || n == 0xFF61 then ['.']
  else if 0xFF01 ≤ n && n ≤ 0xFF5E then [(Char.ofNat (n - 0xFEE0)).toLower]
  else if n == 0xA0 || n == 0x3000 || (0x2000 ≤ n && n ≤ 0x200A) then [' ']
  else if (0xC0 ≤ n && n ≤ 0xDE && n != 0xD7) || (0x391 ≤ n && n ≤ 0x3A9) ||
    (0x410 ≤ n && n ≤ 0x42F) then [Char.ofNat (n + 32)]
  else if 0x400 ≤ n && n ≤ 0x40F then [Char.ofNat (n + 80)]
  else [c]

/-- Characters that no domain name holds. -/
def isForbidden (c : Char) : Bool :=
  let n := c.toNat
  c ≤ ' ' || "%#/:<>?@[\\]^|".toList.contains c || (0x7F ≤ n && n ≤ 0x9F) ||
    (0x200C ≤ n && n ≤ 0x200F) || (0x2028 ≤ n && n ≤ 0x202E) || (0x2066 ≤ n && n ≤ 0x206F) ||
    (0xE000 ≤ n && n ≤ 0xF8FF) || (0xFFF0 ≤ n && n ≤ 0xFFFF) || 0xE0000 ≤ n

/-- A label with its characters decoded. -/
def label? (cs : List Char) : Option (List Char) :=
  match cs with
  | 'x' :: 'n' :: '-' :: '-' :: code => do
    let decoded ← Punycode.decode? code
    if decoded.all (·.toNat < 128) || decoded.any isForbidden then none else some decoded
  | _ => if cs.any isForbidden then none else some cs

/-- A number of an address: decimal, or octal after `0`, or hexadecimal after `0x`. -/
def number? (cs : List Char) : Option Nat :=
  let digits (base : Nat) (isDigit : Char → Bool) (ds : List Char) : Option Nat :=
    if ds.all isDigit then some (Number.ofDigits base ds) else none
  match cs with
  | [] => none
  | '0' :: 'x' :: ds | '0' :: 'X' :: ds =>
    digits 16 (fun c => (Number.hexDigit? c).isSome) ds
  | '0' :: d :: ds => digits 8 (fun c => '0' ≤ c && c ≤ '7') (d :: ds)
  | ds => digits 10 Char.isDigit ds

/-- The parts between dots, without an empty last one. -/
def parts (cs : List Char) : List (List Char) :=
  let ps := cs.splitOn '.'
  if ps.getLast? = some [] then ps.dropLast else ps

/-- Whether a name is to be read as an address: its last part is a number. -/
def endsInNumber (cs : List Char) : Bool :=
  match (parts cs).getLast? with
  | some p => (!p.isEmpty && p.all Char.isDigit) || (number? p).isSome
  | none => false

/-- The octets of a number below `2 ^ 32`. -/
def octetsOf (n : Nat) : List Nat := [n / 0x1000000 % 256, n / 0x10000 % 256, n / 0x100 % 256, n % 256]

/-- The address that up to four numbers give; the last one fills what the others leave. -/
def four? (cs : List Char) : Option Address := do
  let numbers ← (parts cs).mapM number?
  if 4 < numbers.length then none
  else
    let front := numbers.dropLast
    let last ← numbers.getLast?
    if front.any (255 < ·) || Nat.pow 256 (4 - front.length) ≤ last then none
    else
      let value := front.zipIdx.foldl (fun v (n, i) => v + n * Nat.pow 256 (3 - i)) last
      some (.four (octetsOf value))

/-- An address in brackets. -/
def bracketed (cs : List Char) : Except Fault Host :=
  if cs.getLast? = some ']' then
    match Address.sixGroups? cs.tail.dropLast with
    | some gs => .ok (.address (.six gs))
    | none => .error .badSix
  else .error .badSix

/-- The host that a text names under a scheme with known rules. -/
def parse (cs : List Char) : Except Fault Host :=
  if cs.head? = some '[' then bracketed cs
  else
    let decoded := Text.ofByteList (Percent.decode (Percent.bytes cs))
    match Text.strict? decoded with
    | none => .error .badDomain
    | some cs =>
      match ((cs.flatMap fold).splitOn '.').mapM label? with
      | none => .error .badDomain
      | some labels =>
        let name := ['.'].intercalate labels
        if name.isEmpty then .error .emptyHost
        else if endsInNumber name then
          match four? name with
          | some a => .ok (.address a)
          | none => .error .badFour
        else .ok (.domain name)

/-- The host that a text names under any other scheme. -/
def parseOpaque (cs : List Char) : Except Fault Host :=
  if cs.head? = some '[' then bracketed cs
  else if cs.any fun c => c == '\x00' || c == ' ' || "#/:<>?@[\\]^|".toList.contains c then
    .error .badHostCharacter
  else .ok (.opaqueName (Percent.encode (fun c => ' ' ≤ c && c ≤ '~') cs))

/-- Groups with their hexadecimal digits, the longest run of zeros as a gap. -/
def renderGroups (gs : List Nat) : List Char :=
  let runs := (List.range 8).map fun i => (i, ((gs.drop i).takeWhile (· == 0)).length)
  let longest := runs.foldl (fun best r => if best.2 < r.2 then r else best) (0, 0)
  let write (gs : List Nat) : List Char := [':'].intercalate (gs.map (Nat.toDigits 16 ·))
  if 1 < longest.2 then
    write (gs.take longest.1) ++ [':', ':'] ++ write (gs.drop (longest.1 + longest.2))
  else write gs

/-- The host as written in a URL. -/
def render : Host → List Char
  | domain name => name
  | opaqueName name => name
  | address (.four os) => ['.'].intercalate (os.map (Nat.toDigits 10 ·))
  | address (.six gs) => '[' :: renderGroups gs ++ [']']

end Host
end NetworkPolicy.Url
