import Parley.Grammar.Question
import Parley.Grammar.Value

/-! # Goals

A goal resolves a question, for the system or for the user, performs an action, or
handles an action of a service.
-/

namespace Parley.Grammar

open Reading

/-- The goal `keyword(question)`, which belongs to the speaker. -/
def resolveGoal (keyword : Text) (speaker : Speaker) (text : Text) : Reading Goal := do
  let inner ← ofOption (call? keyword text)
  let q ← question inner
  return .resolve q speaker

/-- The goal `perform(action)`. -/
def performGoal (setting : Setting) (text : Text) : Reading Goal := do
  let inner ← ofOption (call? "perform" text)
  let a ← action setting inner
  return .perform a

/-- The goal `handle(name)`, where the name is any text but the empty one. -/
def handleGoal (setting : Setting) (text : Text) : Reading Goal := do
  let inner ← ofOption (nonemptyCall? "handle" text)
  return .handle setting.ontology.name inner

def goal (setting : Setting) (text : Text) : Reading Goal :=
  firstOf
    [resolveGoal "resolve" .system text, resolveGoal "resolve_user" .user text,
      performGoal setting text, handleGoal setting text]

def goalRule : Rule := fun setting text =>
  .goal <$> goal setting text

end Parley.Grammar
