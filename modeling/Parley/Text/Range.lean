/-! # Ranges of characters

A property of characters is given by the ranges of code points that have it, each
range by its first and its last member.
-/

namespace Parley

/-- Ranges of code points, each with both its ends. -/
abbrev CharRanges := List (Nat × Nat)

def CharRanges.contains (ranges : CharRanges) (c : Char) : Bool :=
  ranges.any fun (first, last) => first ≤ c.toNat && c.toNat ≤ last

end Parley
