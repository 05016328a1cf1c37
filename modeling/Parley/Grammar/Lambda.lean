import Parley.Grammar.Proposition

/-! # Abstractions

An abstraction is a proposition with the variable `X` in one place: `X.goal(X)`,
`X.<predicate>(X)` or `X.implies(<antecedent>, <predicate>(X))`. Here a predicate
that is not declared is an error.
-/

namespace Parley.Grammar

open Reading

def lambdaGoal : Rule := fun _ text =>
  if text = "X.goal(X)" then .done (.lambda .goal) else .declined

/-- The rule for `X.<predicate>(X)`. The name `action` is an old spelling of `goal`. -/
def lambdaPredicate : Rule := fun setting text => do
  let name ← ofOption (between? "X." "(X)" text)
  if name = "action" then .failed (.deprecated "?X.action(X)" "?X.goal(X)" "question")
  else do
    guard (isWord name)
    let p ← ofOntology (setting.ontology.predicate name)
    return .lambda (.predicate p)

def lambdaImplication : Rule := fun setting text => do
  let inner ← ofOption (call? "X.implies" text)
  let (antecedent, consequent) ← ofOption (splitLast? ',' inner)
  let name ← ofOption (Text.dropSuffix? "(X)" consequent)
  guard (isWord name)
  let a ← readProposition antecedent
  let p ← ofOntology (setting.ontology.predicate name)
  return .lambda (.implication setting.ontology.name a p)

end Parley.Grammar
