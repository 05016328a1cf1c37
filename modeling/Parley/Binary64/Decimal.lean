import Parley.Binary64.Basic
import Parley.Text.Basic

/-! # Reading decimals

A decimal is read to the nearest double-precision number, an exact half going to
the even pattern, and a decimal beyond the largest finite number to infinity. The
arithmetic is exact: a decimal is a quotient of natural numbers until it is
rounded once.
-/

namespace Parley

/-- The quotient of two natural numbers to the nearest, a half to the even one. -/
def roundDiv (num den : Nat) : Nat :=
  let quotient := num / den
  let rest := num % den
  if den < 2 * rest then quotient + 1
  else if 2 * rest = den && quotient % 2 = 1 then quotient + 1
  else quotient

/-- A numerator and denominator for `m * b ^ e`. -/
def scaled (m b : Nat) (e : Int) : Nat × Nat :=
  if 0 ≤ e then (m * Nat.pow b e.toNat, 1) else (m, Nat.pow b (-e).toNat)

/-- The exponent `l` with `2 ^ l ≤ num / den < 2 ^ (l + 1)`, for positive `num` and `den`. -/
def binaryExponent (num den : Nat) : Int :=
  let l : Int := (Nat.log2 num : Int) - Nat.log2 den
  let (low, one) := scaled den 2 l
  if low ≤ num * one then l else l - 1

namespace Binary64

/-- The pattern nearest to the positive quotient `num / den`. -/
def magnitudeOfQuotient (num den : Nat) : Nat :=
  let e := max (-1074) (binaryExponent num den - 52)
  let (top, bottom) := scaled 1 2 (-e)
  let significand := roundDiv (num * top) (den * bottom)
  min infinityMagnitude (significand + (e + 1074).toNat * Nat.pow 2 52)

/-- The pattern nearest to `m * 10 ^ e`. Exponents far out of range are settled unread. -/
def magnitudeOfDecimal (m : Nat) (e : Int) : Nat :=
  let size : Int := (Nat.toDigits 10 m).length + e
  if m = 0 || size < -400 then 0
  else if 400 < size then infinityMagnitude
  else
    let (num, den) := scaled m 10 e
    magnitudeOfQuotient num den

end Binary64

structure DecimalNumeral where
  whole : Text
  fraction : Text
  exponent : Int

namespace DecimalNumeral

def exponentOf? (text : Text) : Option Int :=
  let (negative, digits) : Bool × Text :=
    match text with
    | '-' :: rest => (true, rest)
    | '+' :: rest => (false, rest)
    | rest => (false, rest)
  if digits.isEmpty || !digits.all Char.isDigit then none
  else
    let value : Int := Nat.ofDigitChars 10 digits 0
    some (if negative then -value else value)

/-- Digits with an optional point and an optional exponent; one digit is needed. -/
def read? (text : Text) : Option DecimalNumeral :=
  let whole := text.takeWhile Char.isDigit
  let rest := text.dropWhile Char.isDigit
  let (fraction, rest) : Text × Text :=
    match rest with
    | '.' :: rest => (rest.takeWhile Char.isDigit, rest.dropWhile Char.isDigit)
    | rest => ([], rest)
  if whole.isEmpty && fraction.isEmpty then none
  else
    match rest with
    | [] => some ⟨whole, fraction, 0⟩
    | c :: rest =>
      if c = 'e' || c = 'E' then (exponentOf? rest).map (⟨whole, fraction, ·⟩) else none

def magnitude (d : DecimalNumeral) : Nat :=
  Binary64.magnitudeOfDecimal (Nat.ofDigitChars 10 (d.whole ++ d.fraction) 0)
    (d.exponent - d.fraction.length)

end DecimalNumeral

namespace Binary64

/-- The words for the patterns that no decimal denotes, in any case. -/
def magnitudeOfWord? (text : Text) : Option Nat :=
  if text.equalsFolded "inf" || text.equalsFolded "infinity" then some infinityMagnitude
  else if text.equalsFolded "nan" then some (infinityMagnitude + Nat.pow 2 51)
  else none

def magnitudeOf? (text : Text) : Option Nat :=
  match DecimalNumeral.read? text with
  | some d => some d.magnitude
  | none => magnitudeOfWord? text

def ofText? (text : Text) : Option Binary64 :=
  match text with
  | '-' :: rest => (magnitudeOf? rest).map (ofMagnitude true)
  | '+' :: rest => (magnitudeOf? rest).map (ofMagnitude false)
  | rest => (magnitudeOf? rest).map (ofMagnitude false)

end Binary64

end Parley
