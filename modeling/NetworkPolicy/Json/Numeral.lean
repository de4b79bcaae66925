import NetworkPolicy.Json.Fault

/-! Written numbers and their values: integers of 64 bits are exact, all others binary64. -/

namespace NetworkPolicy.Json

/-- A number as read. -/
inductive Number where
  | natural (n : Nat)
  | negative (n : Int)
  | float (x : Float)
  deriving DecidableEq, Repr

/-- A number as written: its digits before the point, after it, and in the exponent. -/
structure Numeral where
  negative : Bool := false
  whole : List Nat := []
  fraction : List Nat := []
  exponentNegative : Bool := false
  exponent : List Nat := []
  /-- Neither a point nor an exponent is written. -/
  integral : Bool := true
  deriving DecidableEq, Repr

namespace Numeral

/-- Digits that fit 64 bits, and the digits after them. -/
def absorb : Nat → List Nat → Nat × List Nat
  | n, [] => (n, [])
  | n, d :: ds => if n * 10 + d < Nat.pow 2 64 then absorb (n * 10 + d) ds else (n, d :: ds)

/-- A positive power of ten that binary64 can hold. -/
def powerOfTen (e : Nat) : Float := Float.ofScientific 1 false e

/-- Divides by ten `e` times, in steps that stay within binary64. -/
def shrink (x : Float) (e : Nat) : Float :=
  if h : 308 < e then
    if x == 0 then x else shrink (x / powerOfTen 308) (e - 308)
  else x / powerOfTen e
termination_by e
decreasing_by omega

/-- `significand * 10 ^ e` by one rounded operation where that is possible. -/
def scale (significand : Nat) (e : Int) : Except Fault Float :=
  let x := significand.toUInt64.toFloat
  if e < 0 then .ok (shrink x (-e).toNat)
  else if 308 < e then if x == 0 then .ok x else .error .tooLarge
  else
    let y := x * powerOfTen e.toNat
    if y.isInf then .error .tooLarge else .ok y

/-- The written exponent; none when it does not fit 32 bits. -/
def exponent? (n : Numeral) : Option Int :=
  let e : Nat := n.exponent.foldl (fun e d => e * 10 + d) 0
  if e < Nat.pow 2 31 then some (if n.exponentNegative then -(e : Int) else e) else none

/-- The value when it is no integer of 64 bits. Digits that no longer fit 64 bits only scale. -/
def float (n : Numeral) : Except Fault Float := do
  let (high, dropped) := absorb 0 n.whole
  let (significand, unread) := absorb high n.fraction
  let placed : Int := n.fraction.length - unread.length
  let x ← match n.exponent? with
    | some e => scale significand ((dropped.length : Int) - placed + e)
    | none => if significand != 0 && !n.exponentNegative then .error .tooLarge else .ok 0
  return if n.negative then -x else x

/-- The value of a written number. -/
def value (n : Numeral) : Except Fault Number :=
  match n.integral, absorb 0 n.whole with
  | true, (k, []) =>
    if !n.negative then .ok (.natural k)
    else if 0 < k && k ≤ Nat.pow 2 63 then .ok (.negative (-(k : Int)))
    else .ok (.float (-k.toUInt64.toFloat))
  | _, _ => n.float.map .float

end Numeral
end NetworkPolicy.Json
