import NetworkPolicy.Number.Digits
import NetworkPolicy.Toml.Value

/-! Unquoted TOML values: booleans, numbers, dates and times. -/

namespace NetworkPolicy.Toml

namespace Scalar

/-- Digits of a base, single underscores only between them; gives them without underscores. -/
def digits? (isDigit : Char → Bool) (cs : List Char) : Option (List Char) :=
  let groups := cs.splitOn '_'
  if groups.all fun g => !g.isEmpty && g.all isDigit then some groups.flatten else none

/-- A sign and the rest. -/
def sign (cs : List Char) : Bool × List Char :=
  match cs with
  | '+' :: rest => (false, rest)
  | '-' :: rest => (true, rest)
  | _ => (false, cs)

def isHex (c : Char) : Bool := (Number.hexDigit? c).isSome

/-- Decimal digits without a leading zero. -/
def decimal? (cs : List Char) : Option (List Char) := do
  let ds ← digits? Char.isDigit cs
  if ds.length != 1 && ds.head? == some '0' then none else some ds

/-- Integers beyond 128 bits are held by no reader. -/
def integer (negative : Bool) (n : Nat) : Toml :=
  if negative then if n ≤ Nat.pow 2 127 then .integer (-(n : Int)) else .unrepresentable
  else if n < Nat.pow 2 128 then .integer n else .unrepresentable

/-- An integer. -/
def integer? (cs : List Char) : Option Toml :=
  match cs with
  | '0' :: 'x' :: rest => (digits? isHex rest).map fun ds => integer false (Number.ofDigits 16 ds)
  | '0' :: 'o' :: rest =>
    (digits? (fun c => '0' ≤ c && c ≤ '7') rest).map fun ds => integer false (Number.ofDigits 8 ds)
  | '0' :: 'b' :: rest =>
    (digits? (fun c => '0' ≤ c && c ≤ '1') rest).map fun ds => integer false (Number.ofDigits 2 ds)
  | _ =>
    let (negative, rest) := sign cs
    (decimal? rest).map fun ds => integer negative (Number.ofDigits 10 ds)

/-- The exponent after its mark, or zero. -/
def exponent? : List Char → Option Int
  | [] => some 0
  | _ :: e =>
    let (down, e) := sign e
    (digits? Char.isDigit e).map fun ds =>
      let n : Int := Number.ofDigits 10 ds
      if down then -n else n

/-- The digits of a fraction after its point, or none. -/
def fraction? : List Char → Option (List Char)
  | [] => some []
  | _ :: ds => digits? Char.isDigit ds

/-- The float nearest to `significand * 10 ^ exponent`. -/
def nearest (significand : Nat) (exponent : Int) : Float :=
  let e := max (-100000) (min 100000 exponent)
  if significand = 0 then 0.0
  else if e < 0 then Float.ofScientific significand true (-e).toNat
  else if 400 < e then 1.0 / 0.0
  else Float.ofScientific significand false e.toNat

/-- A float; one too large for its width is held by no reader. -/
def float? (cs : List Char) : Option Toml := do
  let (negative, rest) := sign cs
  let signed (x : Float) : Toml := .float (if negative then -x else x)
  if rest = ['i', 'n', 'f'] then return signed (1.0 / 0.0)
  if rest = ['n', 'a', 'n'] then return signed (0.0 / 0.0)
  let (mantissa, mark) := rest.span fun c => c != 'e' && c != 'E'
  let (whole, point) := mantissa.span (· != '.')
  if point.isEmpty && mark.isEmpty then failure
  let whole ← decimal? whole
  let fraction ← fraction? point
  let exponent ← exponent? mark
  let x := nearest (Number.ofDigits 10 (whole ++ fraction)) (exponent - fraction.length)
  return if x.isInf then .unrepresentable else signed x

/-- A number of `n` decimal digits within bounds, and the rest. -/
def field? (n low high : Nat) (cs : List Char) : Option (Nat × List Char) :=
  let ds := cs.take n
  let v := Number.ofDigits 10 ds
  if ds.length = n ∧ ds.all Char.isDigit ∧ low ≤ v ∧ v ≤ high then some (v, cs.drop n) else none

def mark? (c : Char) : List Char → Option (List Char)
  | d :: rest => if c = d then some rest else none
  | [] => none

/-- The length of a month. -/
def daysIn (year month : Nat) : Nat :=
  let leap := year % 4 == 0 && (year % 100 != 0 || year % 400 == 0)
  if month == 2 then if leap then 29 else 28
  else if month == 4 || month == 6 || month == 9 || month == 11 then 30
  else 31

/-- The rest after a date. -/
def date? (cs : List Char) : Option (List Char) := do
  let (year, cs) ← field? 4 0 9999 cs
  let (month, cs) ← field? 2 1 12 (← mark? '-' cs)
  let (_, cs) ← field? 2 1 (daysIn year month) (← mark? '-' cs)
  return cs

/-- The rest after a time; seconds may be left out. -/
def time? (cs : List Char) : Option (List Char) := do
  let (_, cs) ← field? 2 0 23 cs
  let (_, cs) ← field? 2 0 59 (← mark? ':' cs)
  match cs with
  | ':' :: rest =>
    let (_, cs) ← field? 2 0 60 rest
    match cs with
    | '.' :: fraction =>
      let (ds, cs) := fraction.span Char.isDigit
      if ds.isEmpty then none else some cs
    | _ => some cs
  | _ => some cs

/-- Whether a zone, or nothing, remains. -/
def isZone (cs : List Char) : Bool :=
  match cs with
  | [] | ['Z'] | ['z'] => true
  | c :: rest =>
    (c == '+' || c == '-') &&
      (do
        let (_, cs) ← field? 2 0 23 rest
        let (_, cs) ← field? 2 0 59 (← mark? ':' cs)
        return cs.isEmpty : Option Bool) == some true

/-- A date, a time, or both. -/
def datetime? (cs : List Char) : Option Toml :=
  match date? cs, time? cs with
  | some [], _ => some .datetime
  | some (c :: rest), _ =>
    if c == 'T' || c == 't' || c == ' ' then
      match time? rest with
      | some zone => if isZone zone then some .datetime else none
      | none => none
    else none
  | none, some [] => some .datetime
  | none, _ => none

/-- Whether the characters are a date, which a time may follow. -/
def isDate (cs : List Char) : Bool := date? cs == some []

end Scalar

/-- The value of an unquoted text. -/
def scalar? (cs : List Char) : Option Toml :=
  if cs = ['t', 'r', 'u', 'e'] then some (.bool true)
  else if cs = ['f', 'a', 'l', 's', 'e'] then some (.bool false)
  else (Scalar.integer? cs).or <| (Scalar.float? cs).or (Scalar.datetime? cs)

end NetworkPolicy.Toml
