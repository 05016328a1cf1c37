import Mathlib.Data.List.Forall2
import Parley.Reading

/-! # Readings side by side

Two readings are parallel if they ask for the same texts, take the same turns and fail with
the same causes, as long as the answers they are given correspond, and if their values then
correspond as well. Each way of putting readings together keeps this.
-/

namespace Parley

/-- Which answers for nested texts correspond. -/
structure Correspondence where
  object : Object → Object → Prop
  proposition : Proposition → Proposition → Prop

namespace Reading

/-- Two readings that take the same turns where the answers for nested texts correspond. -/
inductive Parallel (c : Correspondence) {α β : Type} (R : α → β → Prop) :
    Reading α → Reading β → Prop
  | done {a : α} {b : β} (h : R a b) : Parallel c R (done a) (done b)
  | declined : Parallel c R declined declined
  | failed (cause : Cause) : Parallel c R (failed cause) (failed cause)
  | asksObject {t : Text} {k : Object → Reading α} {k' : Object → Reading β}
    (h : ∀ o o', c.object o o' → Parallel c R (k o) (k' o')) :
    Parallel c R (object t k) (object t k')
  | asksProposition {t : Text} {k : Option Proposition → Reading α}
    {k' : Option Proposition → Reading β} (hn : Parallel c R (k none) (k' none))
    (h : ∀ p p', c.proposition p p' → Parallel c R (k (some p)) (k' (some p'))) :
    Parallel c R (proposition t k) (proposition t k')
  | probes {t : Text} {k : Option Object → Reading α} {k' : Option Object → Reading β}
    (hn : Parallel c R (k none) (k' none))
    (h : ∀ o o', c.object o o' → Parallel c R (k (some o)) (k' (some o'))) :
    Parallel c R (probe t k) (probe t k')

namespace Parallel

variable {c : Correspondence} {α β α' β' : Type} {R : α → β → Prop} {S : α' → β' → Prop}
  {r : Reading α} {r' : Reading β}

theorem bind {f : α → Reading α'} {f' : β → Reading β'} (h : Parallel c R r r')
    (hf : ∀ a b, R a b → Parallel c S (f a) (f' b)) : Parallel c S (r >>= f) (r' >>= f') := by
  change Parallel c S (r.bind f) (r'.bind f')
  induction h with
  | done h => exact hf _ _ h
  | declined => exact .declined
  | failed cause => exact .failed cause
  | asksObject _ ih => exact .asksObject ih
  | asksProposition _ _ ihn ih => exact .asksProposition ihn ih
  | probes _ _ ihn ih => exact .probes ihn ih

theorem map {f : α → α'} {f' : β → β'} (h : Parallel c R r r')
    (hf : ∀ a b, R a b → S (f a) (f' b)) : Parallel c S (f <$> r) (f' <$> r') :=
  h.bind fun a b hab => .done (hf a b hab)

theorem orElse {s : Reading α} {s' : Reading β} (h : Parallel c R r r')
    (hs : Parallel c R s s') : Parallel c R (r.orElse s) (r'.orElse s') := by
  induction h with
  | done h => exact .done h
  | declined => exact hs
  | failed cause => exact .failed cause
  | asksObject _ ih => exact .asksObject ih
  | asksProposition _ _ ihn ih => exact .asksProposition ihn ih
  | probes _ _ ihn ih => exact .probes ihn ih

theorem firstOf {rs : List (Reading α)} {rs' : List (Reading β)}
    (h : List.Forall₂ (Parallel c R) rs rs') : Parallel c R (firstOf rs) (firstOf rs') := by
  induction h with
  | nil => exact .declined
  | cons h _ ih => exact h.orElse ih

theorem firstOf_map {ι : Type} {f : ι → Reading α} {f' : ι → Reading β} {is : List ι}
    (h : ∀ i ∈ is, Parallel c R (f i) (f' i)) :
    Parallel c R (Reading.firstOf (is.map f)) (Reading.firstOf (is.map f')) := by
  apply firstOf
  rw [List.forall₂_map_left_iff, List.forall₂_map_right_iff, List.forall₂_same]
  exact h

theorem ite {p : Prop} [Decidable p] {s : Reading α} {s' : Reading β}
    (hr : p → Parallel c R r r') (hs : ¬ p → Parallel c R s s') :
    Parallel c R (if p then r else s) (if p then r' else s') := by
  split
  · exact hr ‹_›
  · exact hs ‹_›

theorem ofOption {x : Option α} : Parallel c Eq (ofOption x) (ofOption x) := by
  cases x with
  | none => exact .declined
  | some a => exact .done rfl

theorem ofExcept {x : Except Cause α} : Parallel c Eq (ofExcept x) (ofExcept x) := by
  cases x with
  | error cause => exact .failed cause
  | ok a => exact .done rfl

theorem ofOntology {x : Except OntologyError α} : Parallel c Eq (ofOntology x) (ofOntology x) := by
  cases x with
  | error e => exact .failed _
  | ok a => exact .done rfl

theorem bindEq {r r' : Reading α} {f : α → Reading α'} {f' : α → Reading β'}
    (h : Parallel c Eq r r') (hf : ∀ a, Parallel c S (f a) (f' a)) :
    Parallel c S (r >>= f) (r' >>= f') := by
  refine h.bind ?_
  rintro a _ rfl
  exact hf a

theorem option {x : Option α} {f : α → Reading α'} {f' : α → Reading β'}
    (hf : ∀ a, Parallel c S (f a) (f' a)) :
    Parallel c S (Reading.ofOption x >>= f) (Reading.ofOption x >>= f') :=
  ofOption.bindEq hf

theorem guarded {b : Bool} {f : Unit → Reading α'} {f' : Unit → Reading β'}
    (hf : Parallel c S (f ()) (f' ())) : Parallel c S (guard b >>= f) (guard b >>= f') := by
  cases b with
  | false => exact .declined
  | true => exact hf

theorem readObject {t : Text} : Parallel c c.object (readObject t) (readObject t) :=
  .asksObject fun _ _ h => .done h

theorem readProposition {t : Text} :
    Parallel c c.proposition (readProposition t) (readProposition t) :=
  .asksProposition .declined fun _ _ h => .done h

theorem each {read : Text → Reading α} {read' : Text → Reading β}
    (h : ∀ t, Parallel c R (read t) (read' t)) (texts : List Text) :
    Parallel c (List.Forall₂ R) (each read texts) (each read' texts) := by
  induction texts with
  | nil => exact .done .nil
  | cons text texts ih =>
    rw [each_cons, each_cons]
    exact (h text).bind fun _ _ ha => ih.bind fun _ _ has => .done (.cons ha has)

theorem items {read : Text → Reading α} {read' : Text → Reading β}
    (h : ∀ t, Parallel c R (read t) (read' t)) (text : Text) :
    Parallel c (List.Forall₂ R) (items read text) (items read' text) :=
  each h _

end Parallel

end Reading

end Parley
