/-! Punycode: letters, digits and hyphens that stand for any characters. -/

namespace NetworkPolicy.Punycode

/-- Reading state: the characters so far, and the number under way. -/
structure Reading where
  chars : List Char
  code : Nat := 128
  bias : Nat := 72
  /-- Where the last character was put in, counted over all code points before it. -/
  start : Nat := 0
  value : Nat := 0
  weight : Nat := 1
  /-- Base times the place of the next digit. -/
  place : Nat := 36
  fresh : Bool := true
  deriving Repr

/-- The value of a digit. -/
def digit? (c : Char) : Option Nat :=
  if 'a' ≤ c ∧ c ≤ 'z' then some (c.toNat - 97)
  else if '0' ≤ c ∧ c ≤ '9' then some (c.toNat - 22)
  else none

/-- How often a distance is divided before the threshold of the bias is met. -/
def divisions (delta : Nat) : Nat × Nat :=
  if 455 < delta then
    let (k, d) := divisions (delta / 35)
    (k + 36, d)
  else (0, delta)
  termination_by delta

/-- The bias after a distance, given the number of characters with the new one. -/
def adapt (delta count : Nat) (first : Bool) : Nat :=
  let delta := if first then delta / 700 else delta / 2
  let (k, delta) := divisions (delta + delta / count)
  k + 36 * delta / (delta + 38)

/-- Takes in a digit. -/
def step? (r : Reading) (c : Char) : Option Reading := do
  let d ← digit? c
  let value := r.value + d * r.weight
  let threshold := max 1 (min 26 (r.place - r.bias))
  if Nat.pow 2 32 ≤ value then none
  else if threshold ≤ d then
    some { r with
      value := value
      weight := r.weight * (36 - threshold)
      place := r.place + 36
      fresh := false }
  else
    let count := r.chars.length + 1
    let code := r.code + value / count
    let index := value % count
    if !code.isValidChar then none
    else some {
      chars := r.chars.take index ++ Char.ofNat code :: r.chars.drop index
      code := code
      bias := adapt (value - r.start) count (r.start = 0)
      start := index + 1
      value := index + 1 }

/-- The characters that a text stands for. -/
def decode? (cs : List Char) : Option (List Char) := do
  let tail := cs.reverse.takeWhile (· != '-')
  let plain := (cs.take (cs.length - tail.length)).dropLast
  let r ← tail.reverse.foldlM step? { chars := plain }
  if r.fresh then some r.chars else none

end NetworkPolicy.Punycode
