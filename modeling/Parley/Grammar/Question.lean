import Parley.Reading

/-! # Questions

A question is written `?<content>`. The content is read as an object, and what it
is decides which question is asked; an object that no question can ask about is
declined.
-/

namespace Parley.Grammar

open Reading

/-- The question with a given content. A predicate of truth values asks whether it holds. -/
def classify : Object → Option Question
  | .proposition (.knowledgePrecondition question _) => some (.knowledgePrecondition question)
  | .proposition (.set members polarity) => some (.alternative members polarity)
  | .proposition p => some (.yesNo p)
  | .lambda (.implication ontology antecedent consequent) =>
    some (.consequent ontology antecedent consequent)
  | .lambda l => some (.wh l)
  | .predicate p =>
    if p.sort = .boolean then some (.yesNo (.predicate p none .pos)) else none
  | _ => none

def question (text : Text) : Reading Question := do
  let inner ← ofOption (Text.dropPrefix? "?" text)
  let content ← readObject inner
  ofOption (classify content)

def questionRule : Rule := fun _ text =>
  .question <$> question text

end Parley.Grammar
