import Parley.Parameter
import Parley.Reading

/-! # Well-sorted objects

An object is well-sorted in a setting if at every depth its predicates, actions and
individuals are those that the ontology declares or gives a sort, its predications
fit their predicates, every name of an ontology is that of the setting, and the plan
items that raise questions carry the domain of the setting.
-/

namespace Parley

def Predicate.WellSorted (s : Setting) (p : Predicate) : Prop :=
  p.ontology = s.ontology.name ∧ s.ontology.predicates.get? p.name = some p.sort

def Action.WellSorted (s : Setting) (a : Action) : Prop :=
  a.ontology = s.ontology.name ∧ a.name ∈ s.ontology.actions

/-- The individual has the sort that the ontology declares for its name, or the one that the form
of its value implies. Strings need a sort of strings. -/
def Individual.WellSorted (s : Setting) (i : Individual) : Prop :=
  i.ontology = s.ontology.name ∧
    match i.value with
    | .enumerated name =>
      s.ontology.individuals.get? name = some i.sort ∧ i.sort ≠ .string ∧ i.sort ≠ .real
    | .string _ => i.sort = .string ∧ s.ontology.hasSort .string = true
    | value => value.impliedSort? = some i.sort

/-- The argument has the sort of the predicate; only predicates of truth values have none. -/
def Predicate.Takes (s : Setting) (p : Predicate) : Option Individual → Prop
  | none => p.sort = .boolean
  | some i => i.WellSorted s ∧ i.sort = p.sort

mutual

def Proposition.WellSorted (s : Setting) : Proposition → Prop
  | .predicate p i _ => p.WellSorted s ∧ p.Takes s i
  | .goal g _ => g.WellSorted s
  | .preconfirmation o _ ps _ => o = s.ontology.name ∧ Proposition.AllWellSorted s ps
  | .prereport o _ ps => o = s.ontology.name ∧ Proposition.AllWellSorted s ps
  | .serviceActionStarted o _ => o = s.ontology.name
  | .serviceActionTerminated o _ => o = s.ontology.name
  | .serviceResult o _ ps _ => o = s.ontology.name ∧ Proposition.AllWellSorted s ps
  | .rejected c _ _ => c.WellSorted s
  | .set ps _ => Proposition.AllWellSorted s ps
  | .understanding _ c _ => c.WellSorted s
  | .resolvedness i => i.WellSorted s
  | .knowledgePrecondition q _ => q.WellSorted s
  | .actionStatus a _ => a.WellSorted s
  | .implication a c => a.WellSorted s ∧ c.WellSorted s

def Proposition.AllWellSorted (s : Setting) : List Proposition → Prop
  | [] => True
  | p :: ps => p.WellSorted s ∧ Proposition.AllWellSorted s ps

def Lambda.WellSorted (s : Setting) : Lambda → Prop
  | .predicate p => p.WellSorted s
  | .goal => True
  | .implication o a c => o = s.ontology.name ∧ a.WellSorted s ∧ c.WellSorted s

def Question.WellSorted (s : Setting) : Question → Prop
  | .yesNo p => p.WellSorted s
  | .wh l => l.WellSorted s
  | .alternative ps _ => Proposition.AllWellSorted s ps
  | .consequent o a c => o = s.ontology.name ∧ a.WellSorted s ∧ c.WellSorted s
  | .knowledgePrecondition i => i.WellSorted s

def Goal.WellSorted (s : Setting) : Goal → Prop
  | .resolve q _ => q.WellSorted s
  | .perform a => a.WellSorted s
  | .handle o _ => o = s.ontology.name

def Move.WellSorted (s : Setting) : Move → Prop
  | .greet | .mute | .unmute | .quit | .thankYou | .thankYouResponse => True
  | .ask q => q.WellSorted s
  | .answer o => o.WellSorted s
  | .report o => o.WellSorted s
  | .prereport o _ ps => o = s.ontology.name ∧ Proposition.AllWellSorted s ps
  | .request a => a.WellSorted s

def IcmContent.WellSorted (s : Setting) : IcmContent → Prop
  | .none | .issue | .text _ => True
  | .semantic o => o.WellSorted s

def Icm.WellSorted (s : Setting) : Icm → Prop
  | .mk _ _ content _ => content.WellSorted s

def PlanItem.WellSorted (s : Setting) : PlanItem → Prop
  | .findout d q => d = s.domainName ∧ q.WellSorted s
  | .raise d q => d = s.domainName ∧ q.WellSorted s
  | .bind q => q.WellSorted s
  | .respond q => q.WellSorted s
  | .consultDB q => q.WellSorted s
  | .perform a => a.WellSorted s
  | .jumpTo g => g.WellSorted s
  | .ifThenElse c xs ys => c.WellSorted s ∧ Object.AllWellSorted s xs ∧ Object.AllWellSorted s ys
  | .forgetAll | .signalActionCompletion | .signalActionFailure _ | .log _ => True
  | .forget o => o.WellSorted s
  | .forgetIssue o => o.WellSorted s
  | .assume p => p.WellSorted s
  | .assumeShared p => p.WellSorted s
  | .assumeIssue o => o.WellSorted s
  | .invokeServiceQuery o _ _ => o.WellSorted s
  | .invokeServiceAction o _ _ => o = s.ontology.name

/-- Every part of the object is as the setting has it. -/
def Object.WellSorted (s : Setting) : Object → Prop
  | .move m _ => m.WellSorted s
  | .icm m _ => m.WellSorted s
  | .proposition p => p.WellSorted s
  | .question q => q.WellSorted s
  | .planItem i => i.WellSorted s
  | .goal g => g.WellSorted s
  | .lambda l => l.WellSorted s
  | .individual i => i.WellSorted s
  | .predicate p => p.WellSorted s
  | .action a => a.WellSorted s
  | .set xs => Object.AllWellSorted s xs
  | .sequence xs => Object.AllWellSorted s xs
  | .actionStatus _ | .serviceOutcome _ | .yes | .no | .text _ => True

def Object.AllWellSorted (s : Setting) : List Object → Prop
  | [] => True
  | o :: os => o.WellSorted s ∧ Object.AllWellSorted s os

end

def ParameterValue.WellSorted (s : Setting) : ParameterValue → Prop
  | .alternatives ps _ => Proposition.AllWellSorted s ps
  | .question q => q.WellSorted s
  | .questions qs => ∀ q ∈ qs, q.WellSorted s
  | .predicates ps => ∀ p ∈ ps, p.WellSorted s
  | .text _ | .boolean _ | .integer _ | .graphicalType _ | .source _ | .sortOrder _ => True

variable {s : Setting}

theorem Proposition.allWellSorted_iff {ps : List Proposition} :
    Proposition.AllWellSorted s ps ↔ ∀ p ∈ ps, p.WellSorted s := by
  induction ps with
  | nil => simp [AllWellSorted]
  | cons p ps ih => simp [AllWellSorted, ih]

theorem Object.allWellSorted_iff {os : List Object} :
    Object.AllWellSorted s os ↔ ∀ o ∈ os, o.WellSorted s := by
  induction os with
  | nil => simp [AllWellSorted]
  | cons o os ih => simp [AllWellSorted, ih]

end Parley
