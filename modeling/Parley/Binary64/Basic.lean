/-! # Double-precision numbers

A real number of the language is kept as the bit pattern of its double-precision
value: a sign, eleven bits of exponent and fifty-two bits of fraction. Two numbers
are the same when their patterns are, so zero has two signs and a number that is
not a number is equal to itself.
-/

namespace Parley

/-- A double-precision number, given by its bit pattern. -/
structure Binary64 where
  bits : UInt64
deriving DecidableEq

namespace Binary64

/-- The pattern of infinity, and the bound of the finite patterns. -/
def infinityMagnitude : Nat := 2047 * Nat.pow 2 52

/-- A number from its sign and the pattern of its absolute value. -/
def ofMagnitude (negative : Bool) (magnitude : Nat) : Binary64 :=
  ⟨UInt64.ofNat (magnitude + if negative then Nat.pow 2 63 else 0)⟩

def isNegative (x : Binary64) : Bool :=
  Nat.pow 2 63 ≤ x.bits.toNat

/-- The pattern without its sign. -/
def magnitude (x : Binary64) : Nat :=
  x.bits.toNat % Nat.pow 2 63

def isNaN (x : Binary64) : Bool :=
  infinityMagnitude < x.magnitude

def isInfinite (x : Binary64) : Bool :=
  x.magnitude == infinityMagnitude

/-- The significand `m` and the exponent `e` of a finite absolute value `m * 2 ^ e`. -/
def significand (magnitude : Nat) : Nat × Int :=
  let exponent : Nat := magnitude / Nat.pow 2 52
  let fraction : Nat := magnitude % Nat.pow 2 52
  if exponent = 0 then (fraction, -1074)
  else (fraction + Nat.pow 2 52, (exponent : Int) - 1075)

end Binary64

end Parley
