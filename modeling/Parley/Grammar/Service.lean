import Parley.Grammar.Proposition
import Parley.Object.Name

/-! # Results of services

How an action of a service ended, and the proposition that reports it.
-/

namespace Parley.Grammar

open Reading

def successfulServiceAction : Rule := fun _ text =>
  if text = "SuccessfulServiceAction()" then .done (.serviceOutcome .successful) else .declined

/-- The rule for `FailedServiceAction(reason)`, where the reason is a word. -/
def failedServiceAction : Rule := fun _ text => do
  let reason ← ofOption (call? "FailedServiceAction" text)
  guard (isWord reason)
  return .serviceOutcome (.failed reason)

def actionStatus : Rule := fun _ text =>
  .actionStatus <$> status text

def three? : List Text → Option (Text × Text × Text)
  | [a, b, c] => some (a, b, c)
  | _ => none

/-- The outcome that a nested text must denote. -/
def outcome (text : Text) : Reading ServiceOutcome := do
  match ← readObject text with
  | .serviceOutcome result => return result
  | other => .failed (.unexpectedContent "service action outcome" other.kind)

def serviceResult : Rule := fun setting text => do
  let inner ← ofOption (call? "ServiceResultProposition" text)
  let (name, list, ending) ← ofOption (three? (splitTopLevel ',' inner))
  guard (isWord name)
  let arguments ← propositionList list
  let result ← outcome ending
  return .proposition (.serviceResult setting.ontology.name name arguments result)

end Parley.Grammar
