import Parley.Reading
import Parley.Surface.Enclosed
import Parley.Surface.Token

/-! # Values

The bare values of the language: the names of predicates and actions, individuals,
the answers `yes` and `no`, and quoted strings. An unknown name is declined, so
that a later rule may take it.
-/

namespace Parley.Grammar

open Reading

variable (setting : Setting)

def predicate (text : Text) : Reading Predicate := do
  guard (isWord text)
  ofOption (setting.ontology.predicate text).toOption

def action (text : Text) : Reading Action := do
  guard (isWord text)
  ofOption (setting.ontology.action text).toOption

/-- The argument of `keyword(..)`, if it is not empty. -/
def nonemptyCall? (keyword text : Text) : Option Text :=
  (call? keyword text).filter fun inner => !inner.isEmpty

/-- The enumerated value of a name whose sort is neither that of strings nor that of reals. -/
def enumerated? (text : Text) : Option Value :=
  match setting.ontology.individualSort text with
  | .ok sort => if sort = .string || sort = .real then none else some (.enumerated text)
  | .error _ => none

/-- The value of a text: a decimal, an integer below `2 ^ 63`, a quoted string where there is a
sort of strings, an enumerated name, a person name or a time, whichever form applies first. -/
def value? (text : Text) : Option Value :=
  if isDecimal text then (Binary64.ofText? text).map .real
  else if isDigits text then (digitsBelow? (Nat.pow 2 63) text).map fun n => .integer n
  else
    match unquote? text with
    | some inner => if setting.ontology.hasSort .string then some (.string inner) else none
    | none =>
      ((enumerated? setting text).or ((nonemptyCall? "person_name" text).map .personName)).or
        ((nonemptyCall? "datetime" text).map .dateTime)

/-- A value with its optional mark of negation. -/
def individual (text : Text) : Reading Individual := do
  let (polarity, body) := splitPolarity text
  let value ← ofOption (value? setting body)
  let found ← ofOntology (setting.ontology.individual value)
  return match polarity with
    | .pos => found
    | .neg => found.negate

def yesNo : Rule := fun _ text =>
  if text = "yes" then done .yes
  else if text = "no" then done .no
  else declined

def predicateRule : Rule := fun setting text =>
  .predicate <$> predicate setting text

def actionRule : Rule := fun setting text =>
  .action <$> action setting text

def individualRule : Rule := fun setting text =>
  .individual <$> individual setting text

/-- The rule for quoted strings that are no individuals. -/
def string : Rule := fun _ text =>
  .text <$> ofOption (unquote? text)

end Parley.Grammar
