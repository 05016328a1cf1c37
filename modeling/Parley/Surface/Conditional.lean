import Parley.Text.Basic

/-! # Conditionals

The shape `if <condition> then <consequent> else <alternative>`. The text is cut
at the last ` else ` and, before that, at the last ` then `. Either branch may be
missing, and then the blank that would stand before it may be missing too.
-/

namespace Parley

structure ConditionalShape where
  condition : Text
  consequent : Text
  alternative : Text
deriving DecidableEq

/-- The halves of a text at the last `pattern`, which ends with a blank that the end of the text
may stand for. -/
def cutLastPadded? (pattern text : Text) : Option (Text × Text) :=
  (Text.cutLast? pattern (text ++ [' '])).map fun (before, after) => (before, after.dropLast)

def ConditionalShape.scan? (text : Text) : Option ConditionalShape := do
  let body ← Text.dropPrefix? "if " text
  let (head, alternative) ← cutLastPadded? " else " body
  let (condition, consequent) ← cutLastPadded? " then " head
  if condition.isEmpty then none else some ⟨condition, consequent, alternative⟩

end Parley
