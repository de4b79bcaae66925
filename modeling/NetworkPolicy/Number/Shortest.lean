/-! The shortest decimal that reads back as a given binary64 value. -/

namespace NetworkPolicy.Number

/-- A decimal `coefficient * 10 ^ exponent`. -/
structure Decimal where
  coefficient : Nat
  exponent : Int
  deriving DecidableEq, Repr

/-- The positive rational `num / den`. -/
structure Ratio where
  num : Nat
  den : Nat

/-- `m * 2 ^ q * 10 ^ (-e)` as a ratio. -/
def scaled (m : Nat) (q e : Int) : Ratio where
  num := m * Nat.pow 2 q.toNat * Nat.pow 10 (-e).toNat
  den := Nat.pow 2 (-q).toNat * Nat.pow 10 e.toNat

/-- The reals that round to one binary64 value, in quarters of its last place: `low` and `high`
bound them, and belong to them when `closed`. -/
structure Neighbourhood where
  low : Nat
  value : Nat
  high : Nat
  place : Int
  closed : Bool
  deriving DecidableEq, Repr

/-- The neighbourhood of the finite value with the given fraction and exponent fields. -/
def neighbourhood (fraction exponent : Nat) : Neighbourhood :=
  if exponent == 0 then
    ⟨4 * fraction - 2, 4 * fraction, 4 * fraction + 2, -1076, fraction % 2 == 0⟩
  else
    let m := Nat.pow 2 52 + fraction
    let below := if fraction == 0 && 1 < exponent then 1 else 2
    ⟨4 * m - below, 4 * m, 4 * m + 2, (exponent : Int) - 1077, m % 2 == 0⟩

/-- Whether `d * 10 ^ e` rounds to the value. -/
def Neighbourhood.contains (n : Neighbourhood) (d : Nat) (e : Int) : Bool :=
  let low := scaled n.low n.place e
  let high := scaled n.high n.place e
  if n.closed then low.num ≤ d * low.den && d * high.den ≤ high.num
  else low.num < d * low.den && d * high.den < high.num

/-- The best multiple of `10 ^ e` that rounds to the value: of two the nearer, of two equally
near the even one. -/
def Neighbourhood.onGrid? (n : Neighbourhood) (e : Int) : Option Nat :=
  let v := scaled n.value n.place e
  let d := v.num / v.den
  let rest := 2 * (v.num % v.den)
  match d != 0 && n.contains d e, n.contains (d + 1) e with
  | true, true => some (if rest < v.den || (rest == v.den && d % 2 == 0) then d else d + 1)
  | true, false => some d
  | false, true => some (d + 1)
  | false, false => none

/-- The exponent `k` with `10 ^ (k - 1) ≤ value < 10 ^ k`, searched from a `guess` at most two
below it. -/
def magnitude (n : Neighbourhood) (guess : Int) : Int :=
  let fits (k : Int) : Bool := let v := scaled n.value n.place k; v.num < v.den
  if fits guess then guess else if fits (guess + 1) then guess + 1
  else if fits (guess + 2) then guess + 2 else guess + 3

/-- Drops trailing zeros; `room` bounds their number. -/
def stripZeros : Nat → Nat → Int → Decimal
  | 0, d, e => ⟨d, e⟩
  | room + 1, d, e => if d % 10 == 0 then stripZeros room (d / 10) (e + 1) else ⟨d, e⟩

/-- The shortest decimal in a neighbourhood: the first grid of 1 to 17 digits with a hit. -/
def Neighbourhood.shortest (n : Neighbourhood) : Decimal :=
  let log2 := (n.value.log2 : Int) + n.place
  let top := magnitude n (log2 * 30103 / 100000)
  let grids : List Int := (List.range 17).map fun i : Nat => top - (i : Int) - 1
  match grids.findSome? fun e => (n.onGrid? e).map (·, e) with
  | some (d, e) => stripZeros 17 d e
  | none => ⟨n.value, n.place⟩

/-- A binary64 value by kind. -/
inductive Reading where
  | nan
  | infinite (negative : Bool)
  | finite (negative : Bool) (decimal : Decimal)
  deriving DecidableEq, Repr

/-- The value's kind and, if it is finite, its shortest decimal. -/
def shortest (x : Float) : Reading :=
  let bits := x.toBits.toNat
  let negative := bits / Nat.pow 2 63 == 1
  let exponent := bits / Nat.pow 2 52 % Nat.pow 2 11
  let fraction := bits % Nat.pow 2 52
  if exponent == 2047 then if fraction == 0 then .infinite negative else .nan
  else if exponent == 0 && fraction == 0 then .finite negative ⟨0, 0⟩
  else .finite negative (neighbourhood fraction exponent).shortest

/-- Positional notation with at least one digit on each side of the point. -/
def Decimal.positional (d : Decimal) : List Char :=
  let ds := Nat.toDigits 10 d.coefficient
  if 0 ≤ d.exponent then ds ++ List.replicate d.exponent.toNat '0' ++ ['.', '0']
  else
    let places := (-d.exponent).toNat
    if places < ds.length then
      ds.take (ds.length - places) ++ ['.'] ++ ds.drop (ds.length - places)
    else ['0', '.'] ++ List.replicate (places - ds.length) '0' ++ ds

/-- Scientific notation with a signed exponent; one digit stands before the point. -/
def Decimal.scientific (d : Decimal) : List Char :=
  let ds := Nat.toDigits 10 d.coefficient
  let e := d.exponent + ds.length - 1
  let head := ds.take 1 ++ (if 1 < ds.length then '.' :: ds.drop 1 else [])
  head ++ 'e' :: (if e < 0 then '-' else '+') :: Nat.toDigits 10 e.natAbs

/-- Positional for magnitudes from `10 ^ (-5)` below `10 ^ 16`, scientific otherwise. -/
def Decimal.mixed (d : Decimal) : List Char :=
  let top := d.exponent + (Nat.toDigits 10 d.coefficient).length
  if d.coefficient == 0 || (-5 < top && top ≤ 16) then d.positional else d.scientific

/-- Digits with a minus sign where it is due. -/
def signed (negative : Bool) (cs : List Char) : List Char :=
  if negative then '-' :: cs else cs

/-- A value in mixed notation; none for what is not finite. -/
def mixed? (x : Float) : Option (List Char) :=
  match shortest x with
  | .finite negative d => some (signed negative d.mixed)
  | _ => none

/-- A value in positional notation. -/
def positional (x : Float) : List Char :=
  match shortest x with
  | .nan => "NaN".toList
  | .infinite negative => signed negative "inf".toList
  | .finite negative d => signed negative d.positional

end NetworkPolicy.Number
