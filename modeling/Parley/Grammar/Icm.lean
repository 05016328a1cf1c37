import Parley.Grammar.Block
import Parley.Reading
import Parley.Surface.Management

/-! # Management moves

Which polarity and which content a management move may have depends on its kind.
Moves that take up an issue again have no polarity; moves about what was heard or
accepted may speak of the issue at hand; moves about what was understood may say
whose utterance it was.
-/

namespace Parley.Grammar

open Reading

/-- The polarity, which must be there. -/
def icmPolarity (token : Option Text) : Reading IcmPolarity :=
  ofOption (token.bind IcmPolarity.ofToken?)

def issueMove (kind : IcmKind) (shape : IcmShape) : Reading Icm := do
  guard shape.polarity.isNone
  match shape.content with
  | none => return .mk kind none .none none
  | some text => return .mk kind none (.semantic (← readObject text)) none

/-- The content of a move about perception or acceptance. What was heard may be quoted. -/
def groundingContent (kind : IcmKind) (text : Text) : Reading IcmContent :=
  if text = "issue" then .done .issue
  else
    match if kind = .perception then doubleQuoted? text else none with
    | some words => .done (.text words)
    | none => .semantic <$> readObject text

def groundingMove (kind : IcmKind) (shape : IcmShape) : Reading Icm := do
  let polarity ← icmPolarity shape.polarity
  match shape.content with
  | none => return .mk kind (some polarity) .none none
  | some text => return .mk kind (some polarity) (← groundingContent kind text) none

/-- The speaker in front of a content, `SPEAKER*content`. -/
def splitContentSpeaker (text : Text) : Option Speaker × Text :=
  match text.cut? '*' with
  | some (token, rest) =>
    match Speaker.ofToken? token with
    | some speaker => (some speaker, rest)
    | none => (none, text)
  | none => (none, text)

def understandingMove (kind : IcmKind) (shape : IcmShape) : Reading Icm := do
  let polarity ← icmPolarity shape.polarity
  match shape.content with
  | none => return .mk kind (some polarity) .none none
  | some text =>
    let (speaker, content) := splitContentSpeaker text
    return .mk kind (some polarity) (.semantic (← readObject content)) speaker

/-- A management move. A colon without a content is declined. -/
def icm (text : Text) : Reading Icm := do
  let shape ← ofOption (IcmShape.scan? text)
  let kind ← ofOption (IcmKind.ofToken? shape.kind)
  guard (shape.content != some [])
  match kind with
  | .reraise | .accommodate | .resume => issueMove kind shape
  | .loadPlan => do
    guard (shape.polarity.isNone && shape.content.isNone)
    return .mk kind none .none none
  | .perception | .acceptance => groundingMove kind shape
  | .semantic | .understanding => understandingMove kind shape

def icmRule : Rule := fun _ text => do
  return .icm (← icm text) none

/-- The management move and the block in `ICMMove(..)`. -/
def splitDecoration (text : Text) : Text × Text :=
  (splitFirst? ',' text).getD (text.trim, [])

def decoratedIcm : Rule := fun _ text => do
  let inner ← ofOption (call? "ICMMove" text)
  let (head, block) := splitDecoration inner
  let found ← icm head
  if block.isEmpty then return .icm found none
  else return .icm found (some (← ofExcept (realizationData block)))

end Parley.Grammar
