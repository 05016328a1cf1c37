import Parley.Grammar.Block
import Parley.Grammar.Proposition
import Parley.Surface.Conditional

/-! # Plan items

A step of a plan raises a question, performs or invokes an action, assumes or
forgets something, or chooses between two branches. Plan items that raise a
question carry the configured domain.
-/

namespace Parley.Grammar

open Reading

/-- The question of `keyword(question)`. -/
def questionOf (keyword text : Text) : Reading Question := do
  let inner ← ofOption (call? keyword text)
  question inner

/-- The object of `keyword(content)`. -/
def contentOf (keyword text : Text) : Reading Object := do
  let inner ← ofOption (call? keyword text)
  readObject inner

/-- The proposition of `keyword(proposition)`. -/
def propositionOf (keyword text : Text) : Reading Proposition := do
  let inner ← ofOption (call? keyword text)
  readProposition inner

def findout : Rule := fun setting text => do
  return .planItem (.findout setting.domainName (← questionOf "findout" text))

def raise : Rule := fun setting text => do
  return .planItem (.raise setting.domainName (← questionOf "raise" text))

def bind : Rule := fun _ text => do
  return .planItem (.bind (← questionOf "bind" text))

def respond : Rule := fun _ text => do
  return .planItem (.respond (← questionOf "respond" text))

def consultDB : Rule := fun _ text => do
  return .planItem (.consultDB (← questionOf "consultDB" text))

def perform : Rule := fun setting text => do
  let inner ← ofOption (call? "do" text)
  return .planItem (.perform (← action setting inner))

def branch (text : Text) : Reading (List Object) :=
  if text.isBlankText then .done []
  else do
    let found ← readObject text.trim
    return [found]

def ifThenElse : Rule := fun _ text => do
  let shape ← ofOption (ConditionalShape.scan? text)
  let condition ← readProposition shape.condition
  let consequent ← branch shape.consequent
  let alternative ← branch shape.alternative
  return .planItem (.ifThenElse condition consequent alternative)

def jumpTo : Rule := fun setting text => do
  let inner ← ofOption (call? "jumpto" text)
  return .planItem (.jumpTo (← goal setting inner))

def forgetAll : Rule := fun _ text =>
  if text = "forget_all" then .done (.planItem .forgetAll) else .declined

def forget : Rule := fun _ text => do
  return .planItem (.forget (← contentOf "forget" text))

def forgetIssue : Rule := fun _ text => do
  return .planItem (.forgetIssue (← contentOf "forget_issue" text))

def assume : Rule := fun _ text => do
  return .planItem (.assume (← propositionOf "assume" text))

def assumeShared : Rule := fun _ text => do
  return .planItem (.assumeShared (← propositionOf "assume_shared" text))

def assumeIssue : Rule := fun _ text => do
  return .planItem (.assumeIssue (← contentOf "assume_issue" text))

def signalActionCompletion : Rule := fun _ text =>
  if text = "signal_action_completion" then .done (.planItem .signalActionCompletion)
  else .declined

/-- The rule for `signal_action_failure(reason)`, where the reason is any text but the empty one. -/
def signalActionFailure : Rule := fun _ text => do
  let reason ← ofOption (nonemptyCall? "signal_action_failure" text)
  return .planItem (.signalActionFailure reason)

/-- The rule for `log("message")`, where the message is not empty. -/
def log : Rule := fun _ text => do
  let inner ← ofOption (call? "log" text)
  let message ← ofOption (doubleQuoted? inner)
  guard (!message.isEmpty)
  return .planItem (.log message)

/-- A query of a service by `keyword(issue)`. The issue holds no comma at all. -/
def serviceQuery (keyword : Text) : Rule := fun _ text => do
  let inner ← ofOption (nonemptyCall? keyword text)
  guard (!inner.contains ',')
  let issue ← readObject inner
  return .planItem (.invokeServiceQuery issue 1 1)

def invokeServiceQuery : Rule :=
  serviceQuery "invoke_service_query"

/-- The rule for the old spelling `dev_query(issue)`. -/
def devQuery : Rule :=
  serviceQuery "dev_query"

/-- An invocation of an action of a service by `keyword(name, {key=value, ...})`. -/
def serviceAction (keyword : Text) : Rule := fun setting text => do
  let inner ← ofOption (call? keyword text)
  let (name, block) ← ofOption (splitFirst? ',' inner)
  let entries ← ofOption (braced? block)
  guard (isWord name)
  let options ← ofExcept (serviceActionOptions entries)
  return .planItem (.invokeServiceAction setting.ontology.name name options)

def invokeServiceAction : Rule :=
  serviceAction "invoke_service_action"

/-- The rule for the old spelling `dev_perform(name, {key=value, ...})`. -/
def devPerform : Rule :=
  serviceAction "dev_perform"

end Parley.Grammar
