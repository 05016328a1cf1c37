import Parley.Object.Basic

/-! # Parameters

A block of parameters gives values to the keys of a question or a plan. Each key
has its own kind of value.
-/

namespace Parley

inductive GraphicalType
  | list
  | text
deriving DecidableEq

inductive QuestionSource
  | service
  | domain
deriving DecidableEq

inductive SortOrder
  | alphabetic
deriving DecidableEq

inductive ParameterValue
  | text (text : Text)
  | boolean (b : Bool)
  | integer (n : Nat)
  | graphicalType (type : GraphicalType)
  | source (source : QuestionSource)
  | sortOrder (order : SortOrder)
  | alternatives (members : List Proposition) (polarity : Polarity)
  | question (question : Question)
  | questions (questions : List Question)
  | predicates (predicates : List Predicate)

namespace ParameterValue

def boolean? : ParameterValue → Option Bool
  | boolean b => some b
  | _ => none

def integer? : ParameterValue → Option Nat
  | integer n => some n
  | _ => none

end ParameterValue

/-- Parameters in ascending order of their keys. -/
abbrev Parameters := Table Text ParameterValue

end Parley
