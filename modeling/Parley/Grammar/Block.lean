import Parley.Binary64.Decimal
import Parley.Error
import Parley.Realization
import Parley.Service
import Parley.Surface.Enclosed
import Parley.Surface.Split

/-! # Blocks of entries

A block is a list of entries `key=value`, separated by commas. Each entry sets one
field, so of several entries with one key the last one counts, and the first entry
that is wrong decides the error: one without a key, one with an unknown key, or one
whose value its field does not take.
-/

namespace Parley.Grammar

/-- Folds the entries of a block into a value, an entry being a key and a value. -/
def foldEntries {α : Type} (step : α → Text → Text → Except Cause α) (start : α) (block : Text) :
    Except Cause α :=
  (splitTopLevel ',' block).foldlM (fun a entry =>
    match splitPair? entry with
    | some (key, value) => step a key value
    | none => .error (.malformedParameter entry)) start

/-- Sets a field, if there is one with that key and it takes the value. A field turns a value into
an update. -/
def setField {α : Type} (fields : Table Text (Text → Option (α → α)))
    (unsupported invalid : Text → Text → Cause) (a : α) (key value : Text) : Except Cause α :=
  match fields.get? key with
  | none => .error (unsupported key value)
  | some field =>
    match field value with
    | none => .error (invalid key value)
    | some update => .ok (update a)

def realizationFields : Table Text (Text → Option (Realization → Realization)) :=
  [("speaker", fun text => (Speaker.ofToken? text).map fun s r => { r with speaker := some s }),
    ("perception_confidence", fun text =>
      (Binary64.ofText? text).map fun x r => { r with perceptionConfidence := some x }),
    ("understanding_confidence", fun text =>
      (Binary64.ofText? text).map fun x r => { r with understandingConfidence := some x }),
    ("utterance", fun text => (unquote? text).map fun t r => { r with utterance := some t }),
    ("ddd_name", fun text => (unquote? text).map fun t r => { r with dddName := some t })]

def realizationData (block : Text) : Except Cause Realization :=
  foldEntries (setField realizationFields (fun key _ => .unsupportedRealizationData key)
    .invalidRealizationData) {} block

/-- The words `true` and `false`, in any case. -/
def boolean? (text : Text) : Option Bool :=
  if text.equalsFolded "true" then some true
  else if text.equalsFolded "false" then some false
  else none

def optionFields : Table Text (Text → Option (ServiceActionOptions → ServiceActionOptions)) :=
  [("preconfirm", fun text =>
      (Preconfirmation.ofToken? text).map fun p o => { o with preconfirm := some p }),
    ("postconfirm", fun text => (boolean? text).map fun b o => { o with postconfirm := b }),
    ("downdate_plan", fun text => (boolean? text).map fun b o => { o with downdatePlan := b })]

def serviceActionOptions (block : Text) : Except Cause ServiceActionOptions :=
  foldEntries (setField optionFields .unsupportedParameter .invalidParameter) {} block

end Parley.Grammar
