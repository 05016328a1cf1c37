import Parley.Text.Basic

/-! # Collections

A collection without an order is a list in which no item equals another; inserting
an item that is present changes nothing. Sequences and collections are shown by
their items, separated by commas, between brackets or braces.
-/

namespace Parley

variable {α : Type}

namespace Collection

/-- The collection with an item, which comes last if it is new. -/
def insert [BEq α] (items : List α) (item : α) : List α :=
  if items.any (· == item) then items else items ++ [item]

def ofList [BEq α] (items : List α) : List α :=
  items.foldl insert []

def render (renderItem : α → Text) (items : List α) : Text :=
  .concat ["\x7b", .join ", " (items.map renderItem), "\x7d"]

end Collection

/-- The items between brackets. -/
def Sequence.render (renderItem : α → Text) (items : List α) : Text :=
  .concat ["[", .join ", " (items.map renderItem), "]"]

end Parley
