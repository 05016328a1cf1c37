import Parley.Individual
import Parley.Table

/-! # Ontologies

An ontology declares the vocabulary of a domain: predicates with their sorts,
enumerated individuals with theirs, and actions. It gives values their sorts and
refuses the names it does not know.
-/

namespace Parley

/-- A predicate of an ontology, with the sort of its arguments. -/
structure Predicate where
  ontology : Text
  name : Text
  sort : Sortal
deriving DecidableEq

structure Action where
  ontology : Text
  name : Text
deriving DecidableEq

/-- What an ontology objects to. -/
inductive OntologyError
  | unknownPredicate (name ontology : Text)
  | unknownIndividual (value ontology : Text)
  | unknownAction (name ontology : Text)
  /-- No predicate or individual has the sort of the value. -/
  | missingSort (sort : Sortal) (ontology : Text)
  /-- A predicate was applied to an individual of another sort. -/
  | sortMismatch (predicate : Text) (predicateSort : Sortal)
      (individual : Text) (individualSort : Sortal)
deriving DecidableEq

def OntologyError.message : OntologyError → Text
  | unknownPredicate name ontology =>
    .concat ["unknown predicate '", name, "' in ontology ", ontology]
  | unknownIndividual value ontology =>
    .concat ["'", value, "' is not an individual in ontology ", ontology]
  | unknownAction name ontology =>
    .concat ["unknown action '", name, "' in ontology ", ontology]
  | missingSort sort ontology =>
    .concat ["ontology ", ontology, " has no ", sort.name, " sort"]
  | sortMismatch predicate predicateSort individual individualSort =>
    .concat ["sortal mismatch between predicate ", predicate, " (sort ", predicateSort.name,
      ") and individual ", individual, " (sort ", individualSort.name, ")"]

structure Ontology where
  name : Text
  predicates : Table Text Sortal := []
  individuals : Table Text Sortal := []
  actions : List Text := []

namespace Ontology

/-- The ontology with a predicate declared; a later declaration replaces an earlier one. -/
def withPredicate (o : Ontology) (name : Text) (sort : Sortal) : Ontology :=
  { o with predicates := o.predicates.insert name sort }

/-- The ontology with an individual declared; a later declaration replaces an earlier one. -/
def withIndividual (o : Ontology) (name : Text) (sort : Sortal) : Ontology :=
  { o with individuals := o.individuals.insert name sort }

def withAction (o : Ontology) (name : Text) : Ontology :=
  { o with actions := if o.actions.contains name then o.actions else o.actions ++ [name] }

def describe (o : Ontology) : Text :=
  .concat ["Ontology(", o.name, ")"]

def predicate (o : Ontology) (name : Text) : Except OntologyError Predicate :=
  match o.predicates.get? name with
  | some sort => .ok ⟨o.name, name, sort⟩
  | none => .error (.unknownPredicate name o.name)

/-- The sort of the enumerated individual with a given name. -/
def individualSort (o : Ontology) (name : Text) : Except OntologyError Sortal :=
  match o.individuals.get? name with
  | some sort => .ok sort
  | none => .error (.unknownIndividual name o.name)

def hasSort (o : Ontology) (sort : Sortal) : Bool :=
  (o.predicates ++ o.individuals).any fun entry => entry.2 = sort

/-- The sort of a value. -/
def sortOf (o : Ontology) (value : Value) : Except OntologyError Sortal :=
  match value.impliedSort? with
  | some sort => .ok sort
  | none => o.individualSort value.render

/-- The individual of a value. Free text is one only where something has the sort of strings. -/
def individual (o : Ontology) (value : Value) : Except OntologyError Individual := do
  let sort ← o.sortOf value
  if sort = .string && !o.hasSort sort then .error (.missingSort sort o.name)
  else .ok { ontology := o.name, value := value, sort := sort }

def action (o : Ontology) (name : Text) : Except OntologyError Action :=
  if o.actions.contains name then .ok ⟨o.name, name⟩ else .error (.unknownAction name o.name)

end Ontology

end Parley
