import Parley.Binary64.Decimal

/-! # Shortest decimals

A finite number is shown by the fewest digits that read back as the same number,
of these the nearest to it, and at equal distance the larger. The digits are
written out in full: there is no exponent, and no point without digits after it.
-/

namespace Parley

/-- The decimal exponent `k` with `10 ^ (k - 1) ≤ num / den < 10 ^ k`, for positive arguments. -/
def decimalExponent (num den : Nat) : Int :=
  if den ≤ num then (Nat.toDigits 10 (num / den)).length
  else
    let inverse := (den + num - 1) / num
    1 - ((Nat.toDigits 10 (inverse - 1)).length : Int)

/-- The absolute value of a finite number, and the interval of reals that round to it. All three
are numerators over `den`. -/
structure RoundingInterval where
  low : Nat
  value : Nat
  high : Nat
  den : Nat
  closed : Bool

namespace RoundingInterval

/-- The interval of a finite pattern. Below a power of two the neighbour is twice as near. -/
def ofMagnitude (magnitude : Nat) : RoundingInterval :=
  let (m, e) := Binary64.significand magnitude
  let below := if m = Nat.pow 2 52 then 1 else 2
  let (unit, den) := scaled 1 2 (e - 2)
  { low := (4 * m - below) * unit
    value := 4 * m * unit
    high := (4 * m + 2) * unit
    den := den
    closed := m % 2 = 0 }

/-- The decimal `digits * 10 ^ e` rounds to the number. -/
def admits (r : RoundingInterval) (digits : Nat) (e : Int) : Bool :=
  let (num, den) := scaled digits 10 e
  let point := num * r.den
  if r.closed then r.low * den ≤ point && point ≤ r.high * den
  else r.low * den < point && point < r.high * den

/-- The better of the two neighbours of the value among the multiples of `10 ^ e`, if one of
them rounds to the number. -/
def onGrid? (r : RoundingInterval) (e : Int) : Option Nat :=
  let (num, den) := scaled 1 10 (-e)
  let top := r.value * num
  let bottom := r.den * den
  let lower := top / bottom
  let upward := bottom ≤ 2 * (top % bottom)
  match r.admits lower e, r.admits (lower + 1) e with
  | true, true => some (if upward then lower + 1 else lower)
  | true, false => some lower
  | false, true => some (lower + 1)
  | false, false => none

/-- The first grid with a decimal that rounds to the number, from `count` digits on. -/
def search (r : RoundingInterval) (k : Int) : (fuel count : Nat) → Nat × Int
  | 0, count => (0, k - count)
  | fuel + 1, count =>
    match r.onGrid? (k - count) with
    | some digits => (digits, k - count)
    | none => r.search k fuel (count + 1)

/-- The fewest digits, and the exponent of the last one. Seventeen digits always suffice. -/
def shortest (r : RoundingInterval) : Nat × Int :=
  r.search (decimalExponent r.value r.den) 17 1

end RoundingInterval

namespace Binary64

def positional (digits : Nat) (e : Int) : Text :=
  if 0 ≤ e then Nat.toDigits 10 (digits * Nat.pow 10 e.toNat)
  else
    let places := (-e).toNat
    let numeral := Nat.toDigits 10 digits
    let padded := List.replicate (places + 1 - numeral.length) '0' ++ numeral
    let whole := padded.take (padded.length - places)
    let fraction := padded.drop (padded.length - places)
    let fraction := (fraction.reverse.dropWhile (· = '0')).reverse
    if fraction.isEmpty then whole else whole ++ '.' :: fraction

def renderMagnitude (magnitude : Nat) : Text :=
  if magnitude = 0 then "0"
  else
    let (digits, e) := (RoundingInterval.ofMagnitude magnitude).shortest
    positional digits e

def render (x : Binary64) : Text :=
  if x.isNaN then "NaN"
  else
    let sign : Text := if x.isNegative then "-" else ""
    if x.isInfinite then sign ++ "inf" else sign ++ renderMagnitude x.magnitude

end Binary64

end Parley
