import Parley.Text.Blank

/-! # Brackets and quotes

A scanner walks a text and keeps how many brackets are open and whether it stands
inside a quoted piece. Brackets of the three kinds are counted alike. A double
quote always opens a quoted piece, an apostrophe only where a token starts, so
that an apostrophe inside a word is a letter of it. Inside a quoted piece only the
same quote counts.
-/

namespace Parley

/-- What the scanner knows after reading a part of a text. -/
structure Nesting where
  /-- The number of open brackets. -/
  depth : Nat := 0
  /-- The quote that is open. -/
  quote : Option Char := none
  /-- A bracket was closed that was not open. -/
  unbalanced : Bool := false
  /-- The character read last. -/
  previous : Option Char := none
deriving DecidableEq

namespace Nesting

/-- After these characters, and after a blank, a token starts. -/
def startsToken (c : Char) : Bool :=
  isBlank c || ['(', '[', '{', ',', '='].contains c

def atTokenStart (n : Nesting) : Bool :=
  match n.previous with
  | none => true
  | some c => startsToken c

def isTop (n : Nesting) : Bool :=
  n.quote.isNone && n.depth == 0

/-- The state after one more character outside quotes. -/
def feedOpen (n : Nesting) (c : Char) : Nesting :=
  if c = '"' || (c = '\'' && n.atTokenStart) then { n with quote := some c }
  else if ['(', '[', '{'].contains c then { n with depth := n.depth + 1 }
  else if [')', ']', '}'].contains c then
    if n.depth = 0 then { n with unbalanced := true } else { n with depth := n.depth - 1 }
  else n

def feed (n : Nesting) (c : Char) : Nesting :=
  let next :=
    match n.quote with
    | some q => if c = q then { n with quote := none } else n
    | none => n.feedOpen c
  { next with previous := some c }

def feedAll (n : Nesting) (text : Text) : Nesting :=
  text.foldl feed n

/-- Every bracket is closed and every quote ended. -/
def isClosed (n : Nesting) : Bool :=
  !n.unbalanced && n.depth == 0 && n.quote.isNone

@[simp] theorem feedAll_nil (n : Nesting) : n.feedAll [] = n := rfl

@[simp] theorem feedAll_cons (n : Nesting) (c : Char) (text : Text) :
    n.feedAll (c :: text) = (n.feed c).feedAll text := rfl

theorem feedAll_append (n : Nesting) (s t : Text) :
    n.feedAll (s ++ t) = (n.feedAll s).feedAll t :=
  List.foldl_append

end Nesting

def isBalanced (text : Text) : Bool :=
  (Nesting.feedAll {} text).isClosed

end Parley
