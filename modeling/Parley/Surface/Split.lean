import Parley.Surface.Nesting

/-! # Splitting at the top level

A separator counts where it stands outside every bracket and quote. A text is
split at each such place, at the first or at the last, and the pieces are trimmed.
Each splitter walks the text once with the scanner of brackets and quotes.
-/

namespace Parley

namespace Nesting

/-- The untrimmed pieces of a text between its top-level separators. -/
def pieces (sep : Char) : Nesting → Text → List Text
  | _, [] => [[]]
  | n, c :: text =>
    if n.isTop && c == sep then [] :: pieces sep (n.feed c) text
    else
      match pieces sep (n.feed c) text with
      | [] => [[c]]
      | piece :: rest => (c :: piece) :: rest

/-- The texts before and after the first top-level separator. -/
def cutFirst? (sep : Char) : Nesting → Text → Option (Text × Text)
  | _, [] => none
  | n, c :: text =>
    if n.isTop && c == sep then some ([], text)
    else (cutFirst? sep (n.feed c) text).map fun (before, after) => (c :: before, after)

/-- The texts before and after the last top-level separator. -/
def cutLast? (sep : Char) : Nesting → Text → Option (Text × Text)
  | _, [] => none
  | n, c :: text =>
    match cutLast? sep (n.feed c) text with
    | some (before, after) => some (c :: before, after)
    | none => if n.isTop && c == sep then some ([], text) else none

end Nesting

def trimPair (halves : Text × Text) : Text × Text :=
  (halves.1.trim, halves.2.trim)

/-- The pieces between top-level separators; a blank text has none. -/
def splitTopLevel (sep : Char) (text : Text) : List Text :=
  if text.isBlankText then [] else (Nesting.pieces sep {} text).map Text.trim

def splitFirst? (sep : Char) (text : Text) : Option (Text × Text) :=
  (Nesting.cutFirst? sep {} text).map trimPair

def splitLast? (sep : Char) (text : Text) : Option (Text × Text) :=
  (Nesting.cutLast? sep {} text).map trimPair

/-- The halves of `key=value` at the first `=`, wherever it stands; the key is not empty. -/
def splitPair? (text : Text) : Option (Text × Text) :=
  ((text.cut? '=').map trimPair).filter fun (key, _) => !key.isEmpty

end Parley
