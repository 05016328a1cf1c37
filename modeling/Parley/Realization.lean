import Parley.Binary64.Basic
import Parley.Polarity

/-! # Realization data

What is known of the utterance behind a move: who made it, how well it was heard
and understood, its words, and the dialogue domain it was made for. Each item may
be missing.
-/

namespace Parley

/-- What is known of the utterance behind a move. -/
structure Realization where
  speaker : Option Speaker := none
  perceptionConfidence : Option Binary64 := none
  understandingConfidence : Option Binary64 := none
  utterance : Option Text := none
  /-- The name of the dialogue domain description. -/
  dddName : Option Text := none
deriving DecidableEq

def Realization.isEmpty (r : Realization) : Bool :=
  r.speaker.isNone && r.perceptionConfidence.isNone && r.understandingConfidence.isNone &&
    r.utterance.isNone && r.dddName.isNone

end Parley
