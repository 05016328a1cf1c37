import Parley.Text.Alphanumeric
import Parley.Text.Basic

/-! # Tokens

The classes of texts without structure: words, runs of digits, and decimals.
-/

namespace Parley

def isWordChar (c : Char) : Bool :=
  isAlphanumeric c || c == '_'

def isWord (text : Text) : Bool :=
  !text.isEmpty && text.all isWordChar

def isDigits (text : Text) : Bool :=
  !text.isEmpty && text.all Char.isDigit

/-- A point with one or more digits after it and any number of digits before it. -/
def isDecimal (text : Text) : Bool :=
  match text.cut? '.' with
  | some (whole, fraction) => whole.all Char.isDigit && isDigits fraction
  | none => false

/-- The value of a run of digits, if it is below the bound. -/
def digitsBelow? (bound : Nat) (text : Text) : Option Nat :=
  let value := Nat.ofDigitChars 10 text 0
  if isDigits text && value < bound then some value else none

end Parley
