import Parley.Text.Basic

/-! # Services

How the actions of a service are invoked, and how they end.
-/

namespace Parley

inductive ActionStatus
  | done
deriving DecidableEq

inductive ServiceOutcome
  | successful
  | failed (reason : Text)
deriving DecidableEq

def ServiceOutcome.isSuccessful : ServiceOutcome → Bool
  | successful => true
  | failed _ => false

/-- How the user is asked, or told, before an action is invoked. -/
inductive Preconfirmation
  | interrogative
  | assertive
deriving DecidableEq

def Preconfirmation.ofToken? (text : Text) : Option Preconfirmation :=
  if text = "interrogative" then some interrogative
  else if text = "assertive" then some assertive
  else none

structure ServiceActionOptions where
  preconfirm : Option Preconfirmation := none
  /-- The user is told afterwards. -/
  postconfirm : Bool := false
  /-- The plan goes on once the action is invoked. -/
  downdatePlan : Bool := true
deriving DecidableEq

end Parley
