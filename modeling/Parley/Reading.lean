import Parley.Error
import Parley.Object.Basic
import Parley.Surface.Split

/-! # Readings

A reading is what one rule of the grammar does with a text, up to the texts nested
in it: it ends with a value, declines the text, or fails with a cause, and on the
way it may ask what nested texts denote. It does not say how these are answered,
so a rule knows nothing of the cache, of the order of the other rules, or of how
deep the recursion goes.

A nested text is asked for in one of three ways. As an object it must be readable:
if it is not, its error ends the reading. As a proposition it may also be declined.
A probe only learns whether there is an object.
-/

namespace Parley

/-- What a rule does with a text, up to the answers for nested texts. -/
inductive Reading (α : Type)
  | done (value : α)
  /-- The text does not have the form of the rule. -/
  | declined
  /-- The text has the form of the rule, and something in it is wrong. -/
  | failed (cause : Cause)
  /-- Asks for the object of a nested text. -/
  | object (text : Text) (next : Object → Reading α)
  /-- Asks for the proposition of a nested text, which may be declined. -/
  | proposition (text : Text) (next : Option Proposition → Reading α)
  /-- Asks whether a nested text denotes an object. -/
  | probe (text : Text) (next : Option Object → Reading α)

namespace Reading

variable {α β : Type}

def bind : Reading α → (α → Reading β) → Reading β
  | done a, f => f a
  | declined, _ => declined
  | failed c, _ => failed c
  | object t k, f => object t fun o => (k o).bind f
  | proposition t k, f => proposition t fun p => (k p).bind f
  | probe t k, f => probe t fun o => (k o).bind f

instance : Monad Reading where
  pure := done
  bind := bind

theorem bind_done (r : Reading α) : r.bind done = r := by
  induction r with
  | done | declined | failed => rfl
  | object t k ih | proposition t k ih | probe t k ih => simp [bind, ih]

theorem bind_assoc {γ : Type} (r : Reading α) (f : α → Reading β) (g : β → Reading γ) :
    (r.bind f).bind g = r.bind fun a => (f a).bind g := by
  induction r with
  | done | declined | failed => rfl
  | object t k ih | proposition t k ih | probe t k ih => simp [bind, ih]

instance : LawfulMonad Reading :=
  LawfulMonad.mk' Reading bind_done (fun _ _ => rfl) bind_assoc

/-- The second reading where the first declines. -/
def orElse : Reading α → Reading α → Reading α
  | done a, _ => done a
  | declined, r => r
  | failed c, _ => failed c
  | object t k, r => object t fun o => (k o).orElse r
  | proposition t k, r => proposition t fun p => (k p).orElse r
  | probe t k, r => probe t fun o => (k o).orElse r

theorem orElse_declined (r : Reading α) : r.orElse declined = r := by
  induction r with
  | done | declined | failed => rfl
  | object t k ih | proposition t k ih | probe t k ih => simp [orElse, ih]

theorem orElse_assoc (r s t : Reading α) : (r.orElse s).orElse t = r.orElse (s.orElse t) := by
  induction r with
  | done | declined | failed => rfl
  | object u k ih | proposition u k ih | probe u k ih => simp [orElse, ih]

def firstOf : List (Reading α) → Reading α
  | [] => declined
  | r :: rs => r.orElse (firstOf rs)

/-- Declines where there is nothing. -/
def ofOption : Option α → Reading α
  | some a => done a
  | none => declined

def guard (condition : Bool) : Reading Unit :=
  if condition then done () else declined

def ofExcept : Except Cause α → Reading α
  | .ok a => done a
  | .error c => failed c

def ofOntology : Except OntologyError α → Reading α
  | .ok a => done a
  | .error e => failed (.ontology e)

def readObject (text : Text) : Reading Object :=
  object text done

/-- The proposition of a nested text; declines if that is declined. -/
def readProposition (text : Text) : Reading Proposition :=
  proposition text ofOption

/-- The values found so far, the last one first, and those of texts read one after the other. -/
def eachAfter (read : Text → Reading α) (found : List α) : List Text → Reading (List α)
  | [] => done found.reverse
  | text :: texts => do
    let value ← read text
    eachAfter read (value :: found) texts

/-- The values of texts, read one after the other. -/
def each (read : Text → Reading α) (texts : List Text) : Reading (List α) :=
  eachAfter read [] texts

theorem eachAfter_eq (read : Text → Reading α) (found : List α) (texts : List Text) :
    eachAfter read found texts = (fun values => found.reverse ++ values) <$> each read texts := by
  induction texts generalizing found with
  | nil => exact congrArg done (List.append_nil _).symm
  | cons text texts ih =>
    simp only [each, eachAfter, map_bind]
    refine congrArg (read text >>= ·) (funext fun value => ?_)
    rw [ih (value :: found), ih [value], Functor.map_map]
    simp

theorem each_nil (read : Text → Reading α) : each read [] = done [] := rfl

theorem each_cons (read : Text → Reading α) (text : Text) (texts : List Text) :
    each read (text :: texts) = do
      let value ← read text
      let values ← each read texts
      return value :: values := by
  refine congrArg (read text >>= ·) (funext fun value => ?_)
  rw [eachAfter_eq, map_eq_pure_bind]
  rfl

/-- The values of the items of a list, which commas separate. -/
def items (read : Text → Reading α) (text : Text) : Reading (List α) :=
  each read (splitTopLevel ',' text)

end Reading

/-- What the rules of the grammar know besides the text. -/
structure Setting where
  ontology : Ontology
  /-- The domain that plan items are stamped with. -/
  domainName : Option Text

abbrev Rule := Setting → Text → Reading Object

/-- The rule that reads a text as the first of some rules does that does not decline it. -/
def Rule.firstOf (rules : List Rule) : Rule := fun setting text =>
  .firstOf (rules.map fun rule => rule setting text)

end Parley
