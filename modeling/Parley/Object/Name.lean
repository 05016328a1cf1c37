import Parley.Object.Basic

/-! # Names of objects

Every object has the name of its kind, moves and plan items also the keyword they
are written with. Values are shown as they are; all other objects are shown by
the name of their kind.
-/

namespace Parley

def Proposition.kind : Proposition → Text
  | predicate .. => "predicate proposition"
  | goal .. => "goal proposition"
  | preconfirmation .. => "preconfirmation proposition"
  | prereport .. => "prereport proposition"
  | serviceActionStarted .. => "service action started proposition"
  | serviceActionTerminated .. => "service action terminated proposition"
  | serviceResult .. => "service result proposition"
  | rejected .. => "rejected proposition"
  | set .. => "proposition set"
  | understanding .. => "understanding proposition"
  | resolvedness .. => "resolvedness proposition"
  | knowledgePrecondition .. => "knowledge precondition proposition"
  | actionStatus .. => "action status proposition"
  | implication .. => "implication proposition"

def Question.kind : Question → Text
  | yesNo .. => "yes/no question"
  | wh .. => "wh-question"
  | alternative .. => "alternative question"
  | consequent .. => "consequent question"
  | knowledgePrecondition .. => "knowledge precondition question"

def Move.keyword : Move → Text
  | greet => "greet"
  | mute => "mute"
  | unmute => "unmute"
  | quit => "quit"
  | thankYou => "thank_you"
  | thankYouResponse => "thank_you_response"
  | ask .. => "ask"
  | answer .. => "answer"
  | report .. => "report"
  | prereport .. => "prereport"
  | request .. => "request"

def PlanItem.keyword : PlanItem → Text
  | findout .. => "findout"
  | raise .. => "raise"
  | bind .. => "bind"
  | respond .. => "respond"
  | consultDB .. => "consultDB"
  | perform .. => "do"
  | jumpTo .. => "jumpto"
  | ifThenElse .. => "if_then_else"
  | forgetAll => "forget_all"
  | forget .. => "forget"
  | forgetIssue .. => "forget_issue"
  | assume .. => "assume"
  | assumeShared .. => "assume_shared"
  | assumeIssue .. => "assume_issue"
  | signalActionCompletion => "signal_action_completion"
  | signalActionFailure .. => "signal_action_failure"
  | log .. => "log"
  | invokeServiceQuery .. => "invoke_service_query"
  | invokeServiceAction .. => "invoke_service_action"

namespace Object

def kind : Object → Text
  | move .. => "move"
  | icm .. => "ICM move"
  | proposition p => p.kind
  | question q => q.kind
  | planItem .. => "plan item"
  | goal .. => "goal"
  | lambda .. => "lambda abstraction"
  | individual .. => "individual"
  | predicate .. => "predicate"
  | action .. => "action"
  | actionStatus .. => "action status"
  | serviceOutcome .. => "service action outcome"
  | set .. => "set"
  | sequence .. => "sequence"
  | yes => "yes"
  | no => "no"
  | text .. => "string"

def render : Object → Text
  | individual i => i.render
  | predicate p => p.name
  | action a => a.name
  | text t => t.quoted
  | other => other.kind

/-- An object as it is shown inside a collection. -/
def title : Object → Text
  | yes => "Yes"
  | no => "No"
  | other => other.render

end Object

end Parley
