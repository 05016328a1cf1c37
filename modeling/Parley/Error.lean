import Parley.Ontology

/-! # Errors

An error has a cause and a trail: the texts that were being read when it arose,
the innermost first. Each reading that an error passes through adds its text and
notes it as the one that was given. The message names the text that was given and
lists the others below the cause.
-/

namespace Parley

inductive Cause
  /-- No rule applies to the text. -/
  | noRuleMatched (ontology : Text)
  /-- An old spelling, with the one that replaces it. -/
  | deprecated (found suggestion what : Text)
  | ontology (error : OntologyError)
  | unsupportedParameter (key value : Text)
  | invalidParameter (key value : Text)
  /-- An entry without a key and a value. -/
  | malformedParameter (entry : Text)
  | unsupportedRealizationData (key : Text)
  | invalidRealizationData (key value : Text)
  /-- A list of arguments without its brackets. -/
  | expectedBrackets (found : Text)
  /-- A part that denotes the wrong kind of object. -/
  | unexpectedContent (expected found : Text)
deriving DecidableEq

def Cause.message : Cause → Text
  | noRuleMatched name => .concat ["no rule matched (ontology=", name, ")"]
  | deprecated found suggestion what =>
    .concat ["'", found, "' is not a valid ", what, ". Perhaps you mean '", suggestion, "'."]
  | ontology error => error.message
  | unsupportedParameter key value =>
    .concat ["unsupported parameter '", key, "' (value '", value, "')"]
  | invalidParameter key value => .concat ["failed to parse parameter ", key, "=", value]
  | malformedParameter entry => .concat ["expected key=value but found '", entry, "'"]
  | unsupportedRealizationData key => .concat ["unsupported realization attribute '", key, "'"]
  | invalidRealizationData key value =>
    .concat ["invalid value for realization attribute ", key, ": '", value, "'"]
  | expectedBrackets found => .concat ["expected a bracketed list but found '", found, "'"]
  | unexpectedContent expected found => .concat ["expected ", expected, " but found ", found]

/-- The texts that an error passed through, the innermost first. -/
abbrev Trail := List Text

namespace Trail

def within (trail : Trail) (text : Text) : Trail :=
  trail ++ [text]

/-- One line for each text but the outermost. -/
def render (trail : Trail) : Text :=
  trail.dropLast.flatMap fun text => Text.concat ["\n  in '", text, "'"]

end Trail

structure GrammarError where
  cause : Cause
  trail : Trail := []
  /-- The text that was given. -/
  input? : Option Text := none
deriving DecidableEq

namespace GrammarError

def within (e : GrammarError) (text : Text) : GrammarError :=
  { e with trail := e.trail.within text, input? := some text }

/-- The error of a cause that passed through the texts of a trail. -/
def through (cause : Cause) (trail : Trail) : GrammarError :=
  trail.foldl within { cause }

def message (e : GrammarError) : Text :=
  let head : Text :=
    match e.input? with
    | some input => .concat ["failed to parse '", input, "': ", e.cause.message]
    | none => e.cause.message
  head ++ e.trail.render

@[simp] theorem within_cause (e : GrammarError) (text : Text) :
    (e.within text).cause = e.cause := rfl

@[simp] theorem within_trail (e : GrammarError) (text : Text) :
    (e.within text).trail = e.trail ++ [text] := rfl

@[simp] theorem within_input? (e : GrammarError) (text : Text) :
    (e.within text).input? = some text := rfl

theorem foldl_within (e : GrammarError) (trail : Trail) :
    trail.foldl within e = ⟨e.cause, e.trail ++ trail, trail.getLast?.or e.input?⟩ := by
  induction trail generalizing e with
  | nil => simp
  | cons text trail ih =>
    rw [List.foldl_cons, ih]
    cases trail <;> simp [List.getLast?_cons]

/-- The text that was given is the last one of the trail. -/
theorem through_eq (cause : Cause) (trail : Trail) :
    through cause trail = ⟨cause, trail, trail.getLast?⟩ := by
  simp [through, foldl_within]

end GrammarError

end Parley
