import Parley.Collection
import Parley.Object.Shape
import Parley.Reading
import Parley.Surface.Enclosed

/-! # Containers

A set is written between braces and a sequence between brackets, with commas
between the items. The items are read as objects in the order in which they stand.
-/

namespace Parley.Grammar

open Reading

def set : Rule := fun _ text => do
  let inner ← ofOption (braced? text)
  let found ← items readObject inner
  return .set (Collection.ofList found)

def sequence : Rule := fun _ text => do
  let inner ← ofOption (bracketed? text)
  let found ← items readObject inner
  return .sequence found

end Parley.Grammar
