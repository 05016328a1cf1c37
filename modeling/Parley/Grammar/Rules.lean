import Parley.Grammar.Container
import Parley.Grammar.Icm
import Parley.Grammar.Lambda
import Parley.Grammar.Move
import Parley.Grammar.PlanItem
import Parley.Grammar.Service

/-! # The rules of the grammar

The rules are tried in a fixed order, and the first that does not decline decides:
moves, plan items and goals, propositions and questions, values, containers.
-/

namespace Parley.Grammar

def moveRules : List Rule :=
  [decoratedMove, basicMove, requestMove, askMove, answerMove, reportMove, prereportMove,
    decoratedIcm, icmRule]

def planRules : List Rule :=
  [findout, perform, raise, bind, respond, consultDB, ifThenElse, jumpTo, forgetAll, forget,
    assume, assumeShared, signalActionCompletion, signalActionFailure, goalRule, assumeIssue, log,
    forgetIssue, invokeServiceQuery, devQuery, invokeServiceAction, devPerform]

def propositionRules : List Rule :=
  [questionRule, lambdaGoal, lambdaPredicate, lambdaImplication, serviceResult,
    successfulServiceAction, failedServiceAction, actionStatus, propositionRule]

def valueRules : List Rule :=
  [yesNo, propositionSetRule, predicateRule, actionRule, individualRule, string, set, sequence]

/-- All rules, in the order in which they are tried. -/
def rules : List Rule :=
  moveRules ++ planRules ++ propositionRules ++ valueRules

end Parley.Grammar
