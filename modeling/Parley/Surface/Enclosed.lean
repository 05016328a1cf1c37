import Parley.Polarity
import Parley.Surface.Nesting

/-! # Enclosed texts

The text inside a call `keyword(..)`, inside brackets or braces, between quotes,
or after the mark of negation. Only a call asks its inside to be balanced.
-/

namespace Parley

/-- The text between two pieces that it starts and ends with. -/
def between? (lead tail text : Text) : Option Text :=
  (Text.dropPrefix? lead text).bind (Text.dropSuffix? tail)

/-- The arguments of `keyword(..)`, which are balanced. -/
def call? (keyword text : Text) : Option Text :=
  (between? (keyword ++ ['(']) [')'] text).filter isBalanced

def bracketed? (text : Text) : Option Text :=
  between? ['['] [']'] text

def braced? (text : Text) : Option Text :=
  between? ['{'] ['}'] text

/-- The inside of one kind of quotes, in which that quote does not stand. -/
def quotedBy? (quote : Char) (text : Text) : Option Text :=
  (between? [quote] [quote] text).filter fun inner => !inner.contains quote

def unquote? (text : Text) : Option Text :=
  (quotedBy? '"' text).or (quotedBy? '\'' text)

def doubleQuoted? (text : Text) : Option Text :=
  quotedBy? '"' text

def splitPolarity : Text → Polarity × Text
  | '~' :: rest => (.neg, rest)
  | text => (.pos, text)

end Parley
