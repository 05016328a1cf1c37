import Parley.Management
import Parley.Ontology
import Parley.Realization
import Parley.Service

/-! # Objects of the dialogue language

Everything that a text can denote: moves, propositions, questions, goals, plan
items and the values they are built from. The types refer to each other, since a
question may ask about a proposition that in turn speaks of a question. The items
of `Object.set` and the arguments of `Proposition.prereport` are collections
without an order; all other lists keep theirs.
-/

namespace Parley

mutual

inductive Proposition
  /-- A predicate of its argument; predicates of truth values have none. -/
  | predicate (predicate : Predicate) (argument : Option Individual) (polarity : Polarity)
  | goal (goal : Goal) (polarity : Polarity)
  | preconfirmation (ontology serviceAction : Text) (arguments : List Proposition)
      (polarity : Polarity)
  | prereport (ontology serviceAction : Text) (arguments : List Proposition)
  | serviceActionStarted (ontology serviceAction : Text)
  | serviceActionTerminated (ontology serviceAction : Text)
  | serviceResult (ontology serviceAction : Text) (arguments : List Proposition)
      (result : ServiceOutcome)
  | rejected (combination : Object) (reason : Option Text) (polarity : Polarity)
  /-- A list of alternatives. -/
  | set (members : List Proposition) (polarity : Polarity)
  | understanding (speaker : Option Speaker) (content : Object) (polarity : Polarity)
  | resolvedness (issue : Object)
  | knowledgePrecondition (question : Object) (polarity : Polarity)
  | actionStatus (action : Action) (status : ActionStatus)
  | implication (antecedent consequent : Proposition)

/-- A proposition with one open place. -/
inductive Lambda
  /-- Which individual has the predicate. -/
  | predicate (predicate : Predicate)
  /-- Which goal there is. -/
  | goal
  /-- Which individual has the predicate, given the antecedent. -/
  | implication (ontology : Text) (antecedent : Proposition) (consequent : Predicate)

inductive Question
  | yesNo (proposition : Proposition)
  | wh (lambda : Lambda)
  | alternative (members : List Proposition) (polarity : Polarity)
  | consequent (ontology : Text) (antecedent : Proposition) (consequent : Predicate)
  | knowledgePrecondition (issue : Object)

inductive Goal
  | resolve (question : Question) (speaker : Speaker)
  | perform (action : Action)
  | handle (ontology serviceAction : Text)

/-- What a dialogue move does. -/
inductive Move
  | greet
  | mute
  | unmute
  | quit
  | thankYou
  | thankYouResponse
  | ask (question : Question)
  | answer (content : Object)
  | report (content : Object)
  | prereport (ontology serviceAction : Text) (arguments : List Proposition)
  | request (action : Action)

/-- What a management move is about. -/
inductive IcmContent
  | none
  /-- The issue at hand. -/
  | issue
  /-- Words as they were heard. -/
  | text (text : Text)
  | semantic (content : Object)

/-- A move of interactive communication management. -/
inductive Icm
  | mk (kind : IcmKind) (polarity : Option IcmPolarity) (content : IcmContent)
      (contentSpeaker : Option Speaker)

/-- A step of a plan. -/
inductive PlanItem
  | findout (domain : Option Text) (question : Question)
  | raise (domain : Option Text) (question : Question)
  | bind (question : Question)
  | respond (question : Question)
  | consultDB (question : Question)
  | perform (action : Action)
  | jumpTo (goal : Goal)
  | ifThenElse (condition : Proposition) (consequent alternative : List Object)
  | forgetAll
  | forget (content : Object)
  | forgetIssue (content : Object)
  | assume (proposition : Proposition)
  | assumeShared (proposition : Proposition)
  | assumeIssue (content : Object)
  | signalActionCompletion
  | signalActionFailure (reason : Text)
  | log (message : Text)
  | invokeServiceQuery (issue : Object) (minResults maxResults : Nat)
  | invokeServiceAction (ontology serviceAction : Text) (options : ServiceActionOptions)

/-- Anything that a text can denote. -/
inductive Object
  | move (move : Move) (realization : Option Realization)
  | icm (icm : Icm) (realization : Option Realization)
  | proposition (proposition : Proposition)
  | question (question : Question)
  | planItem (item : PlanItem)
  | goal (goal : Goal)
  | lambda (lambda : Lambda)
  | individual (individual : Individual)
  | predicate (predicate : Predicate)
  | action (action : Action)
  | actionStatus (status : ActionStatus)
  | serviceOutcome (outcome : ServiceOutcome)
  | set (items : List Object)
  | sequence (items : List Object)
  | yes
  | no
  /-- A quoted string that is no individual. -/
  | text (text : Text)

end

namespace Icm

def kind : Icm → IcmKind
  | mk kind _ _ _ => kind

def polarity : Icm → Option IcmPolarity
  | mk _ polarity _ _ => polarity

def content : Icm → IcmContent
  | mk _ _ content _ => content

/-- Whose utterance the content is. -/
def contentSpeaker : Icm → Option Speaker
  | mk _ _ _ speaker => speaker

end Icm

namespace Proposition

/-- A predicate of an argument, whose sort must be that of the predicate. -/
def ofPredicate (predicate : Predicate) (argument : Option Individual) (polarity : Polarity) :
    Except OntologyError Proposition :=
  match argument with
  | none => .ok (.predicate predicate none polarity)
  | some i =>
    if i.sort = predicate.sort then .ok (.predicate predicate (some i) polarity)
    else .error (.sortMismatch predicate.name predicate.sort i.render i.sort)

def polarity : Proposition → Polarity
  | predicate _ _ p | goal _ p | preconfirmation _ _ _ p | rejected _ _ p | set _ p
  | understanding _ _ p | knowledgePrecondition _ p => p
  | prereport .. | serviceActionStarted .. | serviceActionTerminated .. | serviceResult ..
  | resolvedness _ | actionStatus .. | implication .. => .pos

def predicate? : Proposition → Option Predicate
  | predicate p _ _ => some p
  | _ => none

end Proposition

def Question.whPredicate? : Question → Option Predicate
  | wh (.predicate p) => some p
  | _ => none

/-- The question that a goal is to resolve. -/
def Goal.question? : Goal → Option Question
  | resolve q _ => some q
  | _ => none

/-- The question that a move asks. -/
def Move.question? : Move → Option Question
  | ask q => some q
  | _ => none

/-- The question that a step of a plan raises. -/
def PlanItem.question? : PlanItem → Option Question
  | findout _ q | raise _ q | bind q | respond q | consultDB q => some q
  | _ => none

namespace Object

def isMove : Object → Bool
  | move .. | icm .. => true
  | _ => false

def realization? : Object → Option Realization
  | move _ data | icm _ data => data
  | _ => none

/-- A move with its realization data replaced. -/
def decorate (data : Realization) : Object → Object
  | move m _ => move m (some data)
  | icm m _ => icm m (some data)
  | other => other

def text? : Object → Option Text
  | text t => some t
  | _ => none

def isYesNo : Object → Bool
  | yes | no => true
  | _ => false

end Object

end Parley
