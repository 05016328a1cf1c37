import Parley.Grammar.Block
import Parley.Grammar.Proposition
import Parley.Object.Name

/-! # Dialogue moves

A move is a word, a call with its content, or a move decorated with realization
data, `Move(<move>, key=value, ...)`. Where a decorated move ends is found by
trying the texts before each comma, the shortest first, until one of them denotes a
move.
-/

namespace Parley.Grammar

open Reading

def basicMoves : List Move :=
  [.greet, .mute, .unmute, .quit, .thankYou, .thankYouResponse]

def basicMove : Rule := fun _ text => do
  let m ← ofOption (basicMoves.find? fun m => m.keyword = text)
  return .move m none

def requestMove : Rule := fun setting text => do
  let inner ← ofOption (call? "request" text)
  let a ← action setting inner
  return .move (.request a) none

def askMove : Rule := fun _ text => do
  let inner ← ofOption (call? "ask" text)
  let q ← question inner
  return .move (.ask q) none

def answerMove : Rule := fun _ text => do
  let inner ← ofOption (call? "answer" text)
  let content ← readObject inner
  return .move (.answer content) none

def reportMove : Rule := fun _ text => do
  let inner ← ofOption (call? "report" text)
  let content ← readObject inner
  return .move (.report content) none

def prereportMove : Rule := fun setting text => do
  let inner ← ofOption (call? "prereport" text)
  let (name, arguments) ← actionAndArguments inner
  return .move (.prereport setting.ontology.name name arguments) none

/-- The halves of a text before each of its commas, and the whole text with nothing after it. -/
def commaCuts : Text → List (Text × Text)
  | [] => [([], [])]
  | c :: text =>
    let later := (commaCuts text).map fun (before, after) => (c :: before, after)
    if c = ',' then ([], c :: text) :: later else later

/-- The first of the candidates that denotes a move, and the text after it. -/
def probeMove : List (Text × Text) → Reading (Object × Text)
  | [] => .declined
  | (head, rest) :: more =>
    if head.isBlankText then probeMove more
    else
      .probe head fun
        | some found => if found.isMove then .done (found, rest) else probeMove more
        | none => probeMove more

/-- The block after a move: what follows the comma, trimmed. -/
def blockAfter (rest : Text) : Text :=
  ((Text.dropPrefix? "," rest).getD rest).trim

def decoratedMove : Rule := fun _ text => do
  let inner ← ofOption (call? "Move" text)
  let (found, rest) ← probeMove (commaCuts inner)
  let block := blockAfter rest
  if block.isEmpty then return found
  else return found.decorate (← ofExcept (realizationData block))

end Parley.Grammar
