import Parley.Text.Basic

/-! # Polarity and speakers

Propositions and individuals are affirmed or negated, and a move or an issue may
belong to one of three speakers.
-/

namespace Parley

/-- Affirmed or negated. A negated expression is written after `~`. -/
inductive Polarity
  | pos
  | neg
deriving DecidableEq, Inhabited

namespace Polarity

def negate : Polarity → Polarity
  | pos => neg
  | neg => pos

def isPositive : Polarity → Bool
  | pos => true
  | neg => false

def mark : Polarity → Text
  | pos => ""
  | neg => "~"

@[simp] theorem negate_negate (p : Polarity) : p.negate.negate = p := by cases p <;> rfl

end Polarity

/-- The participants of a dialogue: the user, the system and the language model. -/
inductive Speaker
  | user
  | system
  | model
deriving DecidableEq

namespace Speaker

def token : Speaker → Text
  | user => "USR"
  | system => "SYS"
  | model => "MODEL"

def ofToken? (text : Text) : Option Speaker :=
  if text = user.token then some user
  else if text = system.token then some system
  else if text = model.token then some model
  else none

def unknownMessage (text : Text) : Text :=
  .concat ["unknown speaker '", text, "'"]

theorem ofToken?_token (s : Speaker) : ofToken? s.token = some s := by cases s <;> decide

theorem ofToken?_eq_some_iff {text : Text} {s : Speaker} :
    ofToken? text = some s ↔ text = s.token := by
  constructor
  · intro h
    unfold ofToken? at h
    repeat' split at h
    all_goals cases h <;> assumption
  · rintro rfl
    exact ofToken?_token s

end Speaker

end Parley
