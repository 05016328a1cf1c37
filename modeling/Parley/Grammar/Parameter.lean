import Parley.Grammar.Block
import Parley.Grammar.Proposition
import Parley.Parameter

/-! # Values of parameters

The key of a parameter chooses the grammar of its value. Keys without a grammar are
not parameters.
-/

namespace Parley.Grammar

open Reading

/-- The grammar of the values of a key. -/
abbrev ValueGrammar := Setting → Text → Reading ParameterValue

def graphicalType : ValueGrammar := fun _ text =>
  if text = "list" then .done (.graphicalType .list)
  else if text = "text" then .done (.graphicalType .text)
  else .declined

def questionSource : ValueGrammar := fun _ text =>
  if text = "service" then .done (.source .service)
  else if text = "domain" then .done (.source .domain)
  else .declined

def sortOrder : ValueGrammar := fun _ text =>
  if text = "alphabetic" then .done (.sortOrder .alphabetic) else .declined

def truthValue : ValueGrammar := fun _ text =>
  .boolean <$> ofOption (boolean? text)

/-- Integers below `2 ^ 64`. -/
def naturalNumber : ValueGrammar := fun _ text =>
  .integer <$> ofOption (digitsBelow? (Nat.pow 2 64) text)

def plainText : ValueGrammar := fun _ text =>
  .done (.text text)

def alternatives : ValueGrammar := fun _ text => do
  let (members, polarity) ← propositionSet text
  return .alternatives members polarity

def singleQuestion : ValueGrammar := fun _ text =>
  .question <$> question text

def questionList : ValueGrammar := fun _ text => do
  let inner ← ofOption (bracketed? text)
  return .questions (← items question inner)

def predicateList : ValueGrammar := fun setting text => do
  let inner ← ofOption (bracketed? text)
  return .predicates (← items (predicate setting) inner)

/-- The keys of parameters and the grammars of their values. -/
def valueGrammars : Table Text ValueGrammar :=
  [("graphical_type", graphicalType), ("source", questionSource), ("incremental", truthValue),
    ("verbalize", truthValue), ("allow_goal_accommodation", truthValue),
    ("always_ground", truthValue), ("alts", alternatives), ("service_query", singleQuestion),
    ("default", singleQuestion), ("device", plainText), ("format", plainText),
    ("label_questions", questionList), ("related_information", questionList),
    ("background", predicateList), ("ask_features", predicateList), ("sort_order", sortOrder),
    ("max_spoken_alts", naturalNumber), ("max_reported_hit_count", naturalNumber)]

end Parley.Grammar
