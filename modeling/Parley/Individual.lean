import Parley.Binary64.Shortest
import Parley.Polarity
import Parley.Sortal
import Parley.Text.Quoted

/-! # Individuals

A value is what is written for an individual; an individual is a value to which an
ontology has given a sort, affirmed or negated. Enumerated values take their sort
from the ontology, all others imply it.
-/

namespace Parley

/-- What is written for an individual. -/
inductive Value
  | integer (n : Int)
  | real (x : Binary64)
  /-- A quoted string, without its quotes. -/
  | string (text : Text)
  | personName (text : Text)
  | dateTime (text : Text)
  /-- A member of a sort that a domain defines. -/
  | enumerated (name : Text)
deriving DecidableEq

namespace Value

def impliedSort? : Value → Option Sortal
  | integer _ => some .integer
  | real _ => some .real
  | string _ => some .string
  | personName _ => some .personName
  | dateTime _ => some .dateTime
  | enumerated _ => none

def render : Value → Text
  | integer n => .ofInt n
  | real x => x.render
  | string text => text.quoted
  | personName text => .concat ["person_name(", text, ")"]
  | dateTime text => .concat ["datetime(", text, ")"]
  | enumerated name => name

end Value

/-- A value of some sort in an ontology. -/
structure Individual where
  /-- The name of the ontology that gave the value its sort. -/
  ontology : Text
  value : Value
  sort : Sortal
  polarity : Polarity := .pos
deriving DecidableEq

namespace Individual

def negate (i : Individual) : Individual :=
  { i with polarity := i.polarity.negate }

def isPositive (i : Individual) : Bool :=
  i.polarity.isPositive

def render (i : Individual) : Text :=
  i.polarity.mark ++ i.value.render

@[simp] theorem negate_negate (i : Individual) : i.negate.negate = i := by
  simp [negate]

end Individual

end Parley
