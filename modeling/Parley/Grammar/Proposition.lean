import Parley.Collection
import Parley.Grammar.Goal
import Parley.Grammar.Value
import Parley.Object.Shape

/-! # Propositions

A proposition has one of twelve forms, tried in a fixed order. A text of none of
them is declined, unless it is spelt as goals once were: then the reading fails
and names the spelling of today.
-/

namespace Parley.Grammar

open Reading

abbrev Form := Setting → Text → Reading Proposition

/-- Propositions between brackets, which must be there. -/
def propositionList (text : Text) : Reading (List Proposition) :=
  match bracketed? text.trim with
  | some inner => items readProposition inner
  | none => .failed (.expectedBrackets text)

/-- An action of a service, which is a word, and a list of propositions. -/
def actionAndArguments (text : Text) : Reading (Text × List Proposition) := do
  let (name, list) ← ofOption (splitFirst? ',' text)
  guard (isWord name)
  let arguments ← propositionList list
  return (name, arguments)

def serviceActionTerminated : Form := fun setting text => do
  let name ← ofOption (nonemptyCall? "service_action_terminated" text)
  return .serviceActionTerminated setting.ontology.name name

def serviceActionStarted : Form := fun setting text => do
  let name ← ofOption (nonemptyCall? "service_action_started" text)
  return .serviceActionStarted setting.ontology.name name

def preconfirmed : Form := fun setting text => do
  let (polarity, body) := splitPolarity text
  let inner ← ofOption (call? "preconfirmed" body)
  let (name, arguments) ← actionAndArguments inner
  return .preconfirmation setting.ontology.name name arguments polarity

/-- The form `prereported(name, [propositions])`. The order of the propositions does not count. -/
def prereported : Form := fun setting text => do
  let inner ← ofOption (call? "prereported" text)
  let (name, arguments) ← actionAndArguments inner
  return .prereport setting.ontology.name name (Collection.ofList arguments)

def goalProposition : Form := fun setting text => do
  let (polarity, body) := splitPolarity text
  let inner ← ofOption (call? "goal" body)
  let g ← goal setting inner
  return .goal g polarity

/-- The combination and the reason in `rejected(..)`; an empty reason is none. -/
def rejection (text : Text) : Text × Option Text :=
  match splitFirst? ',' text with
  | some (combination, reason) => (combination, if reason.isEmpty then none else some reason)
  | none => (text, none)

def rejected : Form := fun _ text => do
  let inner ← ofOption (call? "rejected" text)
  let (combination, reason) := rejection inner
  guard (!combination.isEmpty)
  let found ← readObject combination
  return .rejected found reason .pos

def two? : List Text → Option (Text × Text)
  | [a, b] => some (a, b)
  | _ => none

def implication : Form := fun _ text => do
  let inner ← ofOption (call? "implies" text)
  let (antecedent, consequent) ← ofOption (two? (splitTopLevel ',' inner))
  let a ← readProposition antecedent
  let c ← readProposition consequent
  return .implication a c

/-- The name and the argument of `name(argument)`; a negated name may stand alone. -/
def application? (polarity : Polarity) (text : Text) : Option (Text × Text) :=
  match text.cut? '(' with
  | some (name, _) => (call? name text).map fun argument => (name, argument)
  | none => if polarity = .neg then some (text, []) else none

/-- The argument of a predicate; none at all where the predicate is of truth values. -/
def argument (setting : Setting) (p : Predicate) (text : Text) : Reading (Option Individual) :=
  if text.isEmpty then
    if p.sort = .boolean then .done none else .declined
  else some <$> individual setting text

/-- The form `[~]name(argument)`, `[~]name()` and `~name`. -/
def predication : Form := fun setting text => do
  let (polarity, body) := splitPolarity text
  let (name, inner) ← ofOption (application? polarity body)
  let p ← predicate setting name
  let i ← argument setting p inner
  ofOntology (Proposition.ofPredicate p i polarity)

/-- The speaker of an understanding; `None` stands for nobody. -/
def understander? (text : Text) : Option (Option Speaker) :=
  if text = "None" then some none else (Speaker.ofToken? text).map some

def understanding : Form := fun _ text => do
  let (polarity, body) := splitPolarity text
  let inner ← ofOption (call? "und" body)
  let (token, content) ← ofOption (splitFirst? ',' inner)
  let speaker ← ofOption (understander? token)
  guard (!content.isEmpty)
  let found ← readObject content
  return .understanding speaker found polarity

def resolvedness : Form := fun _ text => do
  let inner ← ofOption (nonemptyCall? "resolved" text)
  let issue ← readObject inner
  return .resolvedness issue

def knowledgePrecondition : Form := fun _ text => do
  let (polarity, body) := splitPolarity text
  let inner ← ofOption (nonemptyCall? "know_answer" body)
  let found ← readObject inner
  return .knowledgePrecondition found polarity

/-- The status `done`. -/
def status (text : Text) : Reading ActionStatus :=
  if text = "done" then .done .done else .declined

def actionStatusProposition : Form := fun setting text => do
  let inner ← ofOption (call? "action_status" text)
  let (name, token) ← ofOption (two? (splitTopLevel ',' inner))
  let a ← action setting name
  let s ← status token
  return .actionStatus a s

/-- The forms of propositions, in the order in which they are tried. -/
def forms : List Form :=
  [serviceActionTerminated, serviceActionStarted, preconfirmed, prereported, goalProposition,
    rejected, implication, predication, understanding, resolvedness, knowledgePrecondition,
    actionStatusProposition]

/-- Fails on the spellings `action(..)` and `issue(..)`, which goals have replaced. -/
def oldSpelling (text : Text) : Reading Proposition :=
  match (call? "action" text).filter isWord with
  | some name =>
    .failed (.deprecated text (.concat ["goal(perform(", name, "))"]) "proposition")
  | none =>
    match nonemptyCall? "issue" text with
    | some issue =>
      .failed (.deprecated text (.concat ["goal(resolve(", issue, "))"]) "proposition")
    | none => .declined

def proposition : Form := fun setting text =>
  (firstOf (forms.map fun form => form setting text)).orElse (oldSpelling text)

def propositionRule : Rule := fun setting text =>
  .proposition <$> proposition setting text

/-- Alternatives `[~]set([propositions])`, of which there is one at least. The brackets may be
left out. -/
def propositionSet (text : Text) : Reading (List Proposition × Polarity) := do
  let (polarity, body) := splitPolarity text
  let inner ← ofOption (call? "set" body)
  let list := (bracketed? inner).getD inner
  guard (!list.isBlankText)
  let members ← items readProposition list
  return (members, polarity)

def propositionSetRule : Rule := fun _ text => do
  let (members, polarity) ← propositionSet text
  return .proposition (.set members polarity)

end Parley.Grammar
