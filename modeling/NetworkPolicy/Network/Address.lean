import NetworkPolicy.Number.Digits

/-! Internet addresses as written. -/

namespace NetworkPolicy

/-- An Internet address: four octets, or eight groups of sixteen bits. -/
inductive Address where
  | four (octets : List Nat)
  | six (groups : List Nat)
  deriving DecidableEq, Repr

namespace Address

/-- A number up to 255 in decimal digits, without a leading zero. -/
def octet? (cs : List Char) : Option Nat :=
  if cs = ['0'] then some 0
  else if cs.isEmpty || 3 < cs.length || !cs.all Char.isDigit || cs.head? == some '0' then none
  else if Number.ofDigits 10 cs ≤ 255 then some (Number.ofDigits 10 cs) else none

/-- The octets of an address of four. -/
def octets? (cs : List Char) : Option (List Nat) :=
  let parts := cs.splitOn '.'
  if parts.length = 4 then parts.mapM octet? else none

/-- One to four hexadecimal digits. -/
def group? (cs : List Char) : Option Nat :=
  if !cs.isEmpty && cs.length ≤ 4 && cs.all fun c => (Number.hexDigit? c).isSome then
    some (Number.ofDigits 16 cs)
  else none

/-- Groups of which the last two may be written as octets. -/
def groups? : List (List Char) → Option (List Nat)
  | [] => some []
  | [p] =>
    match octets? p with
    | some [a, b, c, d] => some [a * 256 + b, c * 256 + d]
    | _ => (group? p).map ([·])
  | p :: ps => do return (← group? p) :: (← groups? ps)

/-- The parts between colons; of no characters there are none. -/
def pieces (cs : List Char) : List (List Char) := if cs.isEmpty then [] else cs.splitOn ':'

/-- The texts before and after the first double colon. -/
def splitGap? : List Char → Option (List Char × List Char)
  | ':' :: ':' :: rest => some ([], rest)
  | c :: rest => (splitGap? rest).map fun (front, back) => (c :: front, back)
  | [] => none

/-- The groups of an address of eight; one gap stands for one or more groups of zero. -/
def sixGroups? (cs : List Char) : Option (List Nat) :=
  match splitGap? cs with
  | none => do
    let gs ← groups? (pieces cs)
    if gs.length = 8 then some gs else none
  | some (front, back) => do
    let front ← (pieces front).mapM group?
    let back ← groups? (pieces back)
    if front.length + back.length < 8 then
      some (front ++ List.replicate (8 - front.length - back.length) 0 ++ back)
    else none

/-- The address that a text gives, if it is one. -/
def ofChars? (cs : List Char) : Option Address :=
  ((octets? cs).map four).or ((sixGroups? cs).map six)

end Address
end NetworkPolicy
