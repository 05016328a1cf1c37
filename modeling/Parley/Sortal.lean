import Parley.Text.Basic

/-! # Sorts

Every predicate and every individual has a sort. A few sorts are built in; all
others are enumerations that a domain defines, such as `city`.
-/

namespace Parley

inductive Sortal
  /-- Truth values; its predicates take no argument. -/
  | boolean
  | integer
  | real
  /-- Free text. -/
  | string
  | personName
  | dateTime
  /-- The sort of a domain's actions. -/
  | domain
  /-- An enumeration that a domain defines. -/
  | custom (name : Text)
deriving DecidableEq

namespace Sortal

def name : Sortal → Text
  | boolean => "boolean"
  | integer => "integer"
  | real => "real"
  | string => "string"
  | personName => "person_name"
  | dateTime => "datetime"
  | domain => "domain"
  | custom name => name

def describe (sort : Sortal) : Text :=
  .concat ["Sort(", sort.name, ")"]

end Sortal

end Parley
