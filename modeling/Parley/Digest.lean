/-! # Digests

A digest condenses a list of numbers to 256 bits. A number enters the state by a
product, whose upper half then falls onto its lower half, so that digests do not
follow the sums and differences of the numbers. The count of the numbers enters
last. The digests of items without an order are added, which no order changes.
-/

namespace Parley

/-- The digest of a list of numbers, or a sum of such digests. -/
abbrev Digest := BitVec 256

namespace Digest

def start : Digest :=
  .ofNat 256 0xB7E151628AED2A6ABF7158809CF4F3C762E7160F38B4DA56A784D9045190CFEF

/-- The factor of each product. It is odd, so a product loses nothing of the state. -/
def factor : Digest :=
  .ofNat 256 0x243F6A8885A308D313198A2E03707344A4093822299F31D0082EFA98EC4E6C89

def absorb (state : Digest) (n : Nat) : Digest :=
  let product := (state ^^^ .ofNat 256 n) * factor
  product ^^^ (product >>> 128)

def ofList (numbers : List Nat) : Digest :=
  absorb (numbers.foldl absorb start) numbers.length

end Digest

end Parley
