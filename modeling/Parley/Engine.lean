import Parley.Cache
import Parley.Grammar.Proposition

/-! # The engine

An engine answers the questions that readings ask. A nested object is looked up in
the cache, or read by the rules of the engine and then remembered; its error, if
there is one, takes the text into its trail. A nested proposition or a probed text
goes to the grammar at once.

Every text that a rule asks for is shorter than the text it reads, so a reading of
a text is complete at a depth above its length.

Running a reading follows its steps: `run_bind` for what comes after a value, and
`run_orElse` for what comes after a reading that declined, with the cache as that
reading left it.
-/

namespace Parley

inductive Outcome (α : Type)
  | value (a : α)
  | declined
  | error (e : GrammarError)

/-- How nested texts are answered, with the cache handed on. -/
structure Nested where
  object : Text → Cache → Except GrammarError Object × Cache
  proposition : Text → Cache → Outcome Proposition × Cache
  probe : Text → Cache → Option Object × Cache

namespace Reading

def run {α : Type} (nested : Nested) : Reading α → Cache → Outcome α × Cache
  | done a, cache => (.value a, cache)
  | declined, cache => (.declined, cache)
  | failed cause, cache => (.error { cause }, cache)
  | object text next, cache =>
    match nested.object text cache with
    | (.ok o, cache) => (next o).run nested cache
    | (.error e, cache) => (.error e, cache)
  | proposition text next, cache =>
    match nested.proposition text cache with
    | (.value p, cache) => (next (some p)).run nested cache
    | (.declined, cache) => (next none).run nested cache
    | (.error e, cache) => (.error e, cache)
  | probe text next, cache =>
    match nested.probe text cache with
    | (found, cache) => (next found).run nested cache

theorem run_bind {α β : Type} (nested : Nested) (r : Reading α) (f : α → Reading β)
    (cache : Cache) :
    (r.bind f).run nested cache =
      match r.run nested cache with
      | (.value a, cache) => (f a).run nested cache
      | (.declined, cache) => (.declined, cache)
      | (.error e, cache) => (.error e, cache) := by
  induction r generalizing cache with
  | done | declined | failed => rfl
  | object text next ih =>
    simp only [bind, run]
    split
    · exact ih _ _
    · rfl
  | proposition text next ih =>
    simp only [bind, run]
    split
    · exact ih _ _
    · exact ih _ _
    · rfl
  | probe text next ih => exact ih _ _

theorem run_orElse {α : Type} (nested : Nested) (r s : Reading α) (cache : Cache) :
    (r.orElse s).run nested cache =
      match r.run nested cache with
      | (.declined, cache) => s.run nested cache
      | result => result := by
  induction r generalizing cache with
  | done | declined | failed => rfl
  | object text next ih =>
    simp only [orElse, run]
    split
    · exact ih _ _
    · rfl
  | proposition text next ih =>
    simp only [orElse, run]
    split
    · exact ih _ _
    · exact ih _ _
    · rfl
  | probe text next ih => exact ih _ _

end Reading

/-- What answers the questions of readings. -/
structure Engine where
  /-- The rules for objects, in the order in which they are tried. -/
  rules : List Rule
  setting : Setting
  /-- What was read is remembered. -/
  cached : Bool

namespace Engine

variable (e : Engine)

/-- Reads a text by the first rule that does not decline it. -/
def dispatch (nested : Nested) (text : Text) (cache : Cache) :
    Except GrammarError Object × Cache :=
  match (Rule.firstOf e.rules e.setting text).run nested cache with
  | (.value o, cache) => (.ok o, cache)
  | (.declined, cache) => (.error { cause := .noRuleMatched e.setting.ontology.describe }, cache)
  | (.error err, cache) => (.error err, cache)

def dispatchWithin (nested : Nested) (text : Text) (cache : Cache) :
    Except GrammarError Object × Cache :=
  match e.dispatch nested text cache with
  | (.ok o, cache) => (.ok o, cache)
  | (.error err, cache) => (.error (err.within text), cache)

/-- Looks a text up, or reads it and remembers what it denotes. -/
def remember (read : Cache → Except GrammarError Object × Cache) (text : Text) (cache : Cache) :
    Except GrammarError Object × Cache :=
  match cache.lookup text with
  | (some o, cache) => (.ok o, cache)
  | (none, cache) =>
    match read cache with
    | (.ok o, cache) => (.ok o, cache.insert text o)
    | (.error err, cache) => (.error err, cache)

/-- The object of a text, given the answers for the texts nested in it. -/
def objectWith (nested : Nested) (text : Text) (cache : Cache) :
    Except GrammarError Object × Cache :=
  if e.cached then remember (e.dispatchWithin nested text) text cache
  else e.dispatchWithin nested text cache

/-- The answers of a reading of some depth. At depth zero nothing is read. -/
def nested : Nat → Nested
  | 0 =>
    { object := fun text cache =>
        (.error (.through (.noRuleMatched e.setting.ontology.describe) [text]), cache)
      proposition := fun _ cache => (.declined, cache)
      probe := fun _ cache => (none, cache) }
  | depth + 1 =>
    let below := nested depth
    { object := e.objectWith below
      proposition := fun text cache => (Grammar.proposition e.setting text).run below cache
      probe := fun text cache =>
        match e.dispatch below text cache with
        | (.ok o, cache) => (some o, cache)
        | (.error _, cache) => (none, cache) }

def depthOf (text : Text) : Nat :=
  text.length + 1

def parse (text : Text) (cache : Cache) : Except GrammarError Object × Cache :=
  (e.nested (depthOf text)).object text cache

def read {α : Type} (reading : Reading α) (text : Text) (cache : Cache) : Outcome α × Cache :=
  reading.run (e.nested (depthOf text)) cache

end Engine

end Parley
