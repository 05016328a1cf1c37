import Parley.Surface.Token

/-! # The shape of management moves

A move of interactive communication management is written
`icm:<kind>[*<polarity>][:<content>]`. The kind and the polarity are words; the
content is whatever follows the first colon after them.
-/

namespace Parley

structure IcmShape where
  kind : Text
  polarity : Option Text
  content : Option Text
deriving DecidableEq

/-- The text before the first `mark` and, if it stands there, the text after it. -/
def cutOptional (mark : Char) (text : Text) : Text × Option Text :=
  match text.cut? mark with
  | some (before, after) => (before, some after)
  | none => (text, none)

def IcmShape.scan? (text : Text) : Option IcmShape := do
  let rest ← Text.dropPrefix? "icm:" text
  let (head, content) := cutOptional ':' rest
  let (kind, polarity) := cutOptional '*' head
  if isWord kind && polarity.all isWord then some ⟨kind, polarity, content⟩ else none

end Parley
