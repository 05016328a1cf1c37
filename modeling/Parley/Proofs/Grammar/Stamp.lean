import Parley.Grammar.Parameter
import Parley.Grammar.Rules
import Parley.Proofs.Object.Stamp
import Parley.Proofs.Reading.Parallel

/-! # Domains of what is read

The rules of the grammar read a text in two domains side by side: what they ask for, how they
go on and what they object to is the same, and what they make of the text differs in the
domain of the plan items that raise questions. Two rules put that domain in. The other rules
look at the kind of an object and at its parts, and compare objects with one another only
within one domain.
-/

namespace Parley

open Reading

/-- Nested texts denote one object, stamped with two domains. -/
def stamping (d d' : Option Text) : Correspondence where
  object := Restamped Object.stamp d d'
  proposition := Restamped Proposition.stamp d d'

theorem Object.kind_stamp (d : Option Text) (o : Object) : (o.stamp d).kind = o.kind := by
  cases o with
  | proposition p => cases p <;> rfl
  | question q => cases q <;> rfl
  | _ => rfl

theorem Object.isMove_stamp (d : Option Text) (o : Object) : (o.stamp d).isMove = o.isMove := by
  cases o <;> rfl

theorem Object.decorate_stamp (d : Option Text) (data : Realization) (o : Object) :
    (o.decorate data).stamp d = (o.stamp d).decorate data := by
  cases o <;> rfl

def ParameterValue.stamp (domain : Option Text) : ParameterValue → ParameterValue
  | .alternatives ps polarity => .alternatives (Proposition.stampAll domain ps) polarity
  | .question q => .question (q.stamp domain)
  | .questions qs => .questions (qs.map (·.stamp domain))
  | value => value

theorem ParameterValue.stamp_stamp (d d' : Option Text) (v : ParameterValue) :
    (v.stamp d).stamp d' = v.stamp d' := by
  cases v <;> simp [ParameterValue.stamp, Proposition.stampAll_stampAll, Question.stamp_stamp]

/-- What is made of a value with two domains has two domains, if stamps pass through. -/
theorem Reading.Parallel.restamped {c : Correspondence} {α β : Type} {d d' : Option Text}
    {stamp : Option Text → α → α} {stamp' : Option Text → β → β} {r r' : Reading α} {f : α → β}
    (h : Parallel c (Restamped stamp d d') r r')
    (hf : ∀ domain u, stamp' domain (f u) = f (stamp domain u)) :
    Parallel c (Restamped stamp' d d') (r >>= fun a => pure (f a)) (r' >>= fun a => pure (f a)) :=
  h.bind fun _ _ ha => .done (ha.map f hf)

namespace Grammar

variable {o : Ontology} {d d' : Option Text} {text : Text}

theorem classify_stamp (d : Option Text) (o : Object) :
    classify (o.stamp d) = (classify o).map (·.stamp d) := by
  cases o with
  | proposition p => cases p <;> rfl
  | lambda l => cases l <;> rfl
  | predicate p =>
    simp only [Object.stamp, classify]
    split <;> rfl
  | _ => rfl

theorem predicate_stamped :
    Parallel (stamping d d') Eq (predicate ⟨o, d⟩ text) (predicate ⟨o, d'⟩ text) :=
  .guarded .ofOption

theorem action_stamped :
    Parallel (stamping d d') Eq (action ⟨o, d⟩ text) (action ⟨o, d'⟩ text) :=
  .guarded .ofOption

theorem individual_stamped :
    Parallel (stamping d d') Eq (individual ⟨o, d⟩ text) (individual ⟨o, d'⟩ text) :=
  .option fun _ => Parallel.ofOntology.bindEq fun _ => .done rfl

theorem question_stamped :
    Parallel (stamping d d') (Restamped Question.stamp d d') (question text) (question text) := by
  refine .option fun inner => Parallel.readObject.bind ?_
  rintro _ _ ⟨u, rfl, rfl⟩
  rw [classify_stamp, classify_stamp]
  cases classify u with
  | none => exact .declined
  | some q => exact .done ⟨q, rfl, rfl⟩

theorem goal_stamped :
    Parallel (stamping d d') (Restamped Goal.stamp d d') (goal ⟨o, d⟩ text)
      (goal ⟨o, d'⟩ text) := by
  have hresolve : ∀ keyword speaker, Parallel (stamping d d') (Restamped Goal.stamp d d')
      (resolveGoal keyword speaker text) (resolveGoal keyword speaker text) :=
    fun _ _ => .option fun _ => question_stamped.restamped fun _ _ => rfl
  refine .firstOf (.cons (hresolve _ _) (.cons (hresolve _ _) (.cons ?_ (.cons ?_ .nil))))
  · exact .option fun _ => action_stamped.bindEq fun a => .done ⟨.perform a, rfl, rfl⟩
  · exact .option fun inner => .done ⟨.handle o.name inner, rfl, rfl⟩

theorem propositionItems_stamped :
    Parallel (stamping d d') (List.Forall₂ (Restamped Proposition.stamp d d'))
      (items readProposition text) (items readProposition text) :=
  .items (fun _ => .readProposition) text

theorem objectItems_stamped :
    Parallel (stamping d d') (List.Forall₂ (Restamped Object.stamp d d')) (items readObject text)
      (items readObject text) :=
  .items (fun _ => .readObject) text

theorem propositionList_stamped :
    Parallel (stamping d d') (List.Forall₂ (Restamped Proposition.stamp d d'))
      (propositionList text) (propositionList text) := by
  unfold propositionList
  split
  · exact propositionItems_stamped
  · exact .failed _

theorem actionAndArguments_stamped :
    Parallel (stamping d d')
      (fun found found' => found.1 = found'.1 ∧
        List.Forall₂ (Restamped Proposition.stamp d d') found.2 found'.2)
      (actionAndArguments text) (actionAndArguments text) :=
  .option fun _ => .guarded (propositionList_stamped.bind fun _ _ h => .done ⟨rfl, h⟩)

theorem argument_stamped (p : Predicate) :
    Parallel (stamping d d') Eq (argument ⟨o, d⟩ p text) (argument ⟨o, d'⟩ p text) :=
  .ite (fun _ => .ite (fun _ => .done rfl) fun _ => .declined) fun _ =>
    individual_stamped.map fun _ _ h => congrArg some h

theorem ofPredicate_stamp {p : Predicate} {i : Option Individual} {polarity : Polarity}
    {found : Proposition} (h : Proposition.ofPredicate p i polarity = .ok found)
    (domain : Option Text) : found = found.stamp domain := by
  unfold Proposition.ofPredicate at h
  repeat' split at h
  all_goals cases h <;> rfl

theorem ofPredicate_stamped (p : Predicate) (i : Option Individual) (polarity : Polarity) :
    Parallel (stamping d d') (Restamped Proposition.stamp d d')
      (ofOntology (Proposition.ofPredicate p i polarity))
      (ofOntology (Proposition.ofPredicate p i polarity)) := by
  cases h : Proposition.ofPredicate p i polarity with
  | error e => exact .failed _
  | ok found => exact .done ⟨found, ofPredicate_stamp h d, ofPredicate_stamp h d'⟩

theorem predication_stamped :
    Parallel (stamping d d') (Restamped Proposition.stamp d d') (predication ⟨o, d⟩ text)
      (predication ⟨o, d'⟩ text) :=
  .option fun _ => predicate_stamped.bindEq fun p => (argument_stamped p).bindEq fun i =>
    ofPredicate_stamped p i _

theorem status_stamped : Parallel (stamping d d') Eq (status text) (status text) :=
  .ite (fun _ => .done rfl) fun _ => .declined

theorem oldSpelling_stamped :
    Parallel (stamping d d') (Restamped Proposition.stamp d d') (oldSpelling text)
      (oldSpelling text) := by
  unfold oldSpelling
  split
  · exact .failed _
  · split
    · exact .failed _
    · exact .declined

theorem forms_stamped {form : Form} (h : form ∈ forms) :
    Parallel (stamping d d') (Restamped Proposition.stamp d d') (form ⟨o, d⟩ text)
      (form ⟨o, d'⟩ text) := by
  simp only [forms, List.mem_cons, List.not_mem_nil, or_false] at h
  rcases h with rfl | rfl | rfl | rfl | rfl | rfl | rfl | rfl | rfl | rfl | rfl | rfl
  · exact .option fun name => .done ⟨.serviceActionTerminated o.name name, rfl, rfl⟩
  · exact .option fun name => .done ⟨.serviceActionStarted o.name name, rfl, rfl⟩
  · refine .option fun _ => actionAndArguments_stamped.bind ?_
    rintro ⟨name, ps⟩ ⟨_, ps'⟩ ⟨rfl, h⟩
    exact .done ((Restamped.propositions h).map
      (Proposition.preconfirmation o.name name · (splitPolarity text).1) fun _ _ => rfl)
  · refine .option fun _ => actionAndArguments_stamped.bind ?_
    rintro ⟨name, ps⟩ ⟨_, ps'⟩ ⟨rfl, h⟩
    have hset := Restamped.propositions (Restamped.ofList Proposition.beq_stamp h)
    exact .done (hset.map (Proposition.prereport o.name name ·) fun _ _ => rfl)
  · exact .option fun _ => goal_stamped.restamped fun _ _ => rfl
  · exact .option fun _ => .guarded (Parallel.readObject.restamped fun _ _ => rfl)
  · exact .option fun _ => .option fun _ => Parallel.readProposition.bind fun _ _ ha =>
      Parallel.readProposition.bind fun _ _ hc =>
        .done (ha.map₂ hc Proposition.implication fun _ _ _ => rfl)
  · exact predication_stamped
  · exact .option fun _ => .option fun _ => .option fun _ => .guarded
      (Parallel.readObject.restamped fun _ _ => rfl)
  · exact .option fun _ => Parallel.readObject.restamped fun _ _ => rfl
  · exact .option fun _ => Parallel.readObject.restamped fun _ _ => rfl
  · exact .option fun _ => .option fun _ => action_stamped.bindEq fun a =>
      status_stamped.bindEq fun st => .done ⟨.actionStatus a st, rfl, rfl⟩

theorem proposition_stamped :
    Parallel (stamping d d') (Restamped Proposition.stamp d d') (proposition ⟨o, d⟩ text)
      (proposition ⟨o, d'⟩ text) :=
  .orElse (.firstOf_map fun _ hf => forms_stamped hf) oldSpelling_stamped

theorem propositionSet_stamped :
    Parallel (stamping d d')
      (fun found found' => Restamped Proposition.stampAll d d' found.1 found'.1 ∧
        found.2 = found'.2)
      (propositionSet text) (propositionSet text) :=
  .option fun _ => .guarded (propositionItems_stamped.bind fun _ _ h =>
    .done ⟨Restamped.propositions h, rfl⟩)

theorem probeMove_stamped (cuts : List (Text × Text)) :
    Parallel (stamping d d')
      (fun found found' => Restamped Object.stamp d d' found.1 found'.1 ∧ found.2 = found'.2)
      (probeMove cuts) (probeMove cuts) := by
  induction cuts with
  | nil => exact .declined
  | cons cut more ih =>
    unfold probeMove
    split
    · exact ih
    · refine .probes ih ?_
      rintro _ _ ⟨u, rfl, rfl⟩
      -- Whether a candidate is a move does not depend on the domain.
      simp only [Object.isMove_stamp]
      exact .ite (fun _ => .done ⟨⟨u, rfl, rfl⟩, rfl⟩) fun _ => ih

theorem decoratedMove_stamped :
    Parallel (stamping d d') (Restamped Object.stamp d d') (decoratedMove ⟨o, d⟩ text)
      (decoratedMove ⟨o, d'⟩ text) := by
  refine .option fun _ => (probeMove_stamped _).bind ?_
  rintro ⟨found, rest⟩ ⟨found', _⟩ ⟨h, rfl⟩
  exact .ite (fun _ => .done h) fun _ => Parallel.ofExcept.bindEq fun data =>
    .done (h.map (Object.decorate data) fun domain u => u.decorate_stamp domain data)

theorem issueMove_stamped (kind : IcmKind) (shape : IcmShape) :
    Parallel (stamping d d') (Restamped Icm.stamp d d') (issueMove kind shape)
      (issueMove kind shape) := by
  refine .guarded ?_
  split
  · exact .done ⟨.mk kind none .none none, rfl, rfl⟩
  · exact Parallel.readObject.restamped fun _ _ => rfl

theorem groundingContent_stamped (kind : IcmKind) :
    Parallel (stamping d d') (Restamped IcmContent.stamp d d') (groundingContent kind text)
      (groundingContent kind text) := by
  refine .ite (fun _ => .done ⟨.issue, rfl, rfl⟩) fun _ => ?_
  split
  case _ words _ => exact .done ⟨.text words, rfl, rfl⟩
  · exact Parallel.readObject.restamped fun _ _ => rfl

theorem groundingMove_stamped (kind : IcmKind) (shape : IcmShape) :
    Parallel (stamping d d') (Restamped Icm.stamp d d') (groundingMove kind shape)
      (groundingMove kind shape) := by
  refine .option fun polarity => ?_
  split
  · exact .done ⟨.mk kind (some polarity) .none none, rfl, rfl⟩
  · exact (groundingContent_stamped kind).restamped fun _ _ => rfl

theorem understandingMove_stamped (kind : IcmKind) (shape : IcmShape) :
    Parallel (stamping d d') (Restamped Icm.stamp d d') (understandingMove kind shape)
      (understandingMove kind shape) := by
  refine .option fun polarity => ?_
  split
  · exact .done ⟨.mk kind (some polarity) .none none, rfl, rfl⟩
  · exact Parallel.readObject.restamped fun _ _ => rfl

theorem icm_stamped :
    Parallel (stamping d d') (Restamped Icm.stamp d d') (icm text) (icm text) := by
  refine .option fun shape => .option fun kind => .guarded ?_
  cases kind
  case loadPlan => exact .guarded (.done ⟨.mk .loadPlan none .none none, rfl, rfl⟩)
  case reraise | accommodate | resume => exact issueMove_stamped _ shape
  case perception | acceptance => exact groundingMove_stamped _ shape
  case semantic | understanding => exact understandingMove_stamped _ shape

theorem decoratedIcm_stamped :
    Parallel (stamping d d') (Restamped Object.stamp d d') (decoratedIcm ⟨o, d⟩ text)
      (decoratedIcm ⟨o, d'⟩ text) := by
  refine .option fun _ => icm_stamped.bind fun _ _ h => .ite (fun _ => ?_) fun _ => ?_
  · exact .done (h.map (Object.icm · none) fun _ _ => rfl)
  · exact Parallel.ofExcept.bindEq fun data =>
      .done (h.map (Object.icm · (some data)) fun _ _ => rfl)

theorem basicMove_stamped :
    Parallel (stamping d d') (Restamped Object.stamp d d') (basicMove ⟨o, d⟩ text)
      (basicMove ⟨o, d'⟩ text) := by
  unfold basicMove
  cases hm : basicMoves.find? fun m => m.keyword = text with
  | none => exact .declined
  | some m =>
    refine .done ⟨.move m none, ?_⟩
    have h := List.mem_of_find?_eq_some hm
    simp only [basicMoves, List.mem_cons, List.not_mem_nil, or_false] at h
    rcases h with rfl | rfl | rfl | rfl | rfl | rfl <;> exact ⟨rfl, rfl⟩

theorem moveRules_stamped {rule : Rule} (h : rule ∈ moveRules) :
    Parallel (stamping d d') (Restamped Object.stamp d d') (rule ⟨o, d⟩ text)
      (rule ⟨o, d'⟩ text) := by
  simp only [moveRules, List.mem_cons, List.not_mem_nil, or_false] at h
  rcases h with rfl | rfl | rfl | rfl | rfl | rfl | rfl | rfl | rfl
  · exact decoratedMove_stamped
  · exact basicMove_stamped
  · exact .option fun _ => action_stamped.bindEq fun a => .done ⟨.move (.request a) none, rfl, rfl⟩
  · exact .option fun _ => question_stamped.restamped fun _ _ => rfl
  · exact .option fun _ => Parallel.readObject.restamped fun _ _ => rfl
  · exact .option fun _ => Parallel.readObject.restamped fun _ _ => rfl
  · refine .option fun _ => actionAndArguments_stamped.bind ?_
    rintro ⟨name, ps⟩ ⟨_, ps'⟩ ⟨rfl, h⟩
    exact .done ((Restamped.propositions h).map
      (fun ps => Object.move (.prereport o.name name ps) none) fun _ _ => rfl)
  · exact decoratedIcm_stamped
  · exact icm_stamped.restamped fun _ _ => rfl

theorem questionOf_stamped (keyword : Text) :
    Parallel (stamping d d') (Restamped Question.stamp d d') (questionOf keyword text)
      (questionOf keyword text) :=
  .option fun _ => question_stamped

theorem contentOf_stamped (keyword : Text) :
    Parallel (stamping d d') (Restamped Object.stamp d d') (contentOf keyword text)
      (contentOf keyword text) :=
  .option fun _ => .readObject

theorem propositionOf_stamped (keyword : Text) :
    Parallel (stamping d d') (Restamped Proposition.stamp d d') (propositionOf keyword text)
      (propositionOf keyword text) :=
  .option fun _ => .readProposition

theorem branch_stamped :
    Parallel (stamping d d') (Restamped Object.stampAll d d') (branch text) (branch text) :=
  .ite (fun _ => .done ⟨[], rfl, rfl⟩) fun _ => Parallel.readObject.restamped fun _ _ => rfl

theorem serviceQuery_stamped (keyword : Text) :
    Parallel (stamping d d') (Restamped Object.stamp d d') (serviceQuery keyword ⟨o, d⟩ text)
      (serviceQuery keyword ⟨o, d'⟩ text) :=
  .option fun _ => .guarded (Parallel.readObject.restamped fun _ _ => rfl)

theorem serviceAction_stamped (keyword : Text) :
    Parallel (stamping d d') (Restamped Object.stamp d d') (serviceAction keyword ⟨o, d⟩ text)
      (serviceAction keyword ⟨o, d'⟩ text) :=
  .option fun _ => .option fun (name, _) => .option fun _ => .guarded
    (Parallel.ofExcept.bindEq fun options =>
      .done ⟨.planItem (.invokeServiceAction o.name name options), rfl, rfl⟩)

theorem planRules_stamped {rule : Rule} (h : rule ∈ planRules) :
    Parallel (stamping d d') (Restamped Object.stamp d d') (rule ⟨o, d⟩ text)
      (rule ⟨o, d'⟩ text) := by
  simp only [planRules, List.mem_cons, List.not_mem_nil, or_false] at h
  rcases h with rfl | rfl | rfl | rfl | rfl | rfl | rfl | rfl | rfl | rfl | rfl | rfl | rfl | rfl |
    rfl | rfl | rfl | rfl | rfl | rfl | rfl | rfl
  · -- The rule puts its own domain in, where a stamp puts the same one.
    refine (questionOf_stamped _).bind ?_
    rintro _ _ ⟨q, rfl, rfl⟩
    exact .done ⟨.planItem (.findout none q), rfl, rfl⟩
  · exact .option fun _ => action_stamped.bindEq fun a => .done ⟨.planItem (.perform a), rfl, rfl⟩
  · refine (questionOf_stamped _).bind ?_
    rintro _ _ ⟨q, rfl, rfl⟩
    exact .done ⟨.planItem (.raise none q), rfl, rfl⟩
  · exact (questionOf_stamped _).restamped fun _ _ => rfl
  · exact (questionOf_stamped _).restamped fun _ _ => rfl
  · exact (questionOf_stamped _).restamped fun _ _ => rfl
  · refine .option fun _ => Parallel.readProposition.bind ?_
    rintro _ _ ⟨p, rfl, rfl⟩
    refine branch_stamped.bind ?_
    rintro _ _ ⟨xs, rfl, rfl⟩
    refine branch_stamped.bind ?_
    rintro _ _ ⟨ys, rfl, rfl⟩
    exact .done ⟨.planItem (.ifThenElse p xs ys), rfl, rfl⟩
  · exact .option fun _ => goal_stamped.restamped fun _ _ => rfl
  · exact .ite (fun _ => .done ⟨.planItem .forgetAll, rfl, rfl⟩) fun _ => .declined
  · exact (contentOf_stamped _).restamped fun _ _ => rfl
  · exact (propositionOf_stamped _).restamped fun _ _ => rfl
  · exact (propositionOf_stamped _).restamped fun _ _ => rfl
  · exact .ite (fun _ => .done ⟨.planItem .signalActionCompletion, rfl, rfl⟩) fun _ => .declined
  · exact .option fun reason => .done ⟨.planItem (.signalActionFailure reason), rfl, rfl⟩
  · exact goal_stamped.restamped fun _ _ => rfl
  · exact (contentOf_stamped _).restamped fun _ _ => rfl
  · exact .option fun _ => .option fun message => .guarded
      (.done ⟨.planItem (.log message), rfl, rfl⟩)
  · exact (contentOf_stamped _).restamped fun _ _ => rfl
  · exact serviceQuery_stamped _
  · exact serviceQuery_stamped _
  · exact serviceAction_stamped _
  · exact serviceAction_stamped _

theorem outcome_stamped : Parallel (stamping d d') Eq (outcome text) (outcome text) := by
  refine Parallel.readObject.bind ?_
  rintro _ _ ⟨u, rfl, rfl⟩
  have hk : (u.stamp d).kind = (u.stamp d').kind := by rw [u.kind_stamp, u.kind_stamp]
  have hfailed : Parallel (stamping d d') (Eq : ServiceOutcome → ServiceOutcome → Prop)
      (failed (.unexpectedContent "service action outcome" (u.stamp d).kind))
      (failed (.unexpectedContent "service action outcome" (u.stamp d').kind)) :=
    hk ▸ .failed _
  cases u with
  | serviceOutcome result => exact .done rfl
  | _ => exact hfailed

theorem propositionRules_stamped {rule : Rule} (h : rule ∈ propositionRules) :
    Parallel (stamping d d') (Restamped Object.stamp d d') (rule ⟨o, d⟩ text)
      (rule ⟨o, d'⟩ text) := by
  simp only [propositionRules, List.mem_cons, List.not_mem_nil, or_false] at h
  rcases h with rfl | rfl | rfl | rfl | rfl | rfl | rfl | rfl | rfl
  · exact question_stamped.restamped fun _ _ => rfl
  · exact .ite (fun _ => .done ⟨.lambda .goal, rfl, rfl⟩) fun _ => .declined
  · exact .option fun _ => .ite (fun _ => .failed _) fun _ => .guarded
      (Parallel.ofOntology.bindEq fun p => .done ⟨.lambda (.predicate p), rfl, rfl⟩)
  · exact .option fun _ => .option fun _ => .option fun _ => .guarded
      (Parallel.readProposition.bind fun _ _ ha => Parallel.ofOntology.bindEq fun p =>
        .done (ha.map (fun a => Object.lambda (.implication o.name a p)) fun _ _ => rfl))
  · exact .option fun _ => .option fun (name, _, _) => .guarded (propositionList_stamped.bind
      fun _ _ h => outcome_stamped.bindEq fun result => .done ((Restamped.propositions h).map
        (fun ps => Object.proposition (.serviceResult o.name name ps result)) fun _ _ => rfl))
  · exact .ite (fun _ => .done ⟨.serviceOutcome .successful, rfl, rfl⟩) fun _ => .declined
  · exact .option fun reason => .guarded (.done ⟨.serviceOutcome (.failed reason), rfl, rfl⟩)
  · exact status_stamped.bindEq fun st => .done ⟨.actionStatus st, rfl, rfl⟩
  · exact proposition_stamped.restamped fun _ _ => rfl

theorem valueRules_stamped {rule : Rule} (h : rule ∈ valueRules) :
    Parallel (stamping d d') (Restamped Object.stamp d d') (rule ⟨o, d⟩ text)
      (rule ⟨o, d'⟩ text) := by
  simp only [valueRules, List.mem_cons, List.not_mem_nil, or_false] at h
  rcases h with rfl | rfl | rfl | rfl | rfl | rfl | rfl | rfl
  · exact .ite (fun _ => .done ⟨.yes, rfl, rfl⟩) fun _ =>
      .ite (fun _ => .done ⟨.no, rfl, rfl⟩) fun _ => .declined
  · refine propositionSet_stamped.bind ?_
    rintro ⟨ps, polarity⟩ ⟨ps', _⟩ ⟨h, rfl⟩
    exact .done (h.map (fun ps => Object.proposition (.set ps polarity)) fun _ _ => rfl)
  · exact predicate_stamped.bindEq fun p => .done ⟨.predicate p, rfl, rfl⟩
  · exact action_stamped.bindEq fun a => .done ⟨.action a, rfl, rfl⟩
  · exact individual_stamped.bindEq fun i => .done ⟨.individual i, rfl, rfl⟩
  · exact .option fun t => .done ⟨.text t, rfl, rfl⟩
  · refine .option fun _ => objectItems_stamped.bind fun _ _ h => .done ?_
    -- The same items fall together in both domains.
    exact (Restamped.objects (Restamped.ofList Object.beq_stamp h)).map Object.set fun _ _ => rfl
  · exact .option fun _ => objectItems_stamped.bind fun _ _ h =>
      .done ((Restamped.objects h).map Object.sequence fun _ _ => rfl)

theorem rules_stamped {rule : Rule} (h : rule ∈ rules) :
    Parallel (stamping d d') (Restamped Object.stamp d d') (rule ⟨o, d⟩ text)
      (rule ⟨o, d'⟩ text) := by
  simp only [rules, List.mem_append] at h
  rcases h with ((h | h) | h) | h
  · exact moveRules_stamped h
  · exact planRules_stamped h
  · exact propositionRules_stamped h
  · exact valueRules_stamped h

theorem questionItems_stamped :
    Parallel (stamping d d') (List.Forall₂ (Restamped Question.stamp d d'))
      (items question text) (items question text) :=
  .items (fun _ => question_stamped) text

theorem valueGrammars_stamped {key : Text} {grammar : ValueGrammar}
    (h : valueGrammars.get? key = some grammar) :
    Parallel (stamping d d') (Restamped ParameterValue.stamp d d') (grammar ⟨o, d⟩ text)
      (grammar ⟨o, d'⟩ text) := by
  have htruth : Parallel (stamping d d') (Restamped ParameterValue.stamp d d')
      (truthValue ⟨o, d⟩ text) (truthValue ⟨o, d'⟩ text) :=
    .option fun b => .done ⟨.boolean b, rfl, rfl⟩
  have hnumber : Parallel (stamping d d') (Restamped ParameterValue.stamp d d')
      (naturalNumber ⟨o, d⟩ text) (naturalNumber ⟨o, d'⟩ text) :=
    .option fun n => .done ⟨.integer n, rfl, rfl⟩
  have hquestion : Parallel (stamping d d') (Restamped ParameterValue.stamp d d')
      (singleQuestion ⟨o, d⟩ text) (singleQuestion ⟨o, d'⟩ text) :=
    question_stamped.restamped fun _ _ => rfl
  have hquestions : Parallel (stamping d d') (Restamped ParameterValue.stamp d d')
      (questionList ⟨o, d⟩ text) (questionList ⟨o, d'⟩ text) := by
    refine .option fun _ => questionItems_stamped.bind fun _ _ h => .done ?_
    obtain ⟨qs, rfl, rfl⟩ := Restamped.forall₂_iff.mp h
    exact ⟨.questions qs, rfl, rfl⟩
  have hpredicates : Parallel (stamping d d') (Restamped ParameterValue.stamp d d')
      (predicateList ⟨o, d⟩ text) (predicateList ⟨o, d'⟩ text) := by
    refine .option fun inner => (Parallel.items (fun _ => predicate_stamped) inner).bind ?_
    intro ps ps' h
    obtain rfl := List.forall₂_eq_eq_eq ▸ h
    exact .done ⟨.predicates ps, rfl, rfl⟩
  have hm := Table.mem_of_get? h
  simp only [valueGrammars, List.mem_cons, List.not_mem_nil, or_false, Prod.mk.injEq] at hm
  rcases hm with ⟨-, rfl⟩ | ⟨-, rfl⟩ | ⟨-, rfl⟩ | ⟨-, rfl⟩ | ⟨-, rfl⟩ | ⟨-, rfl⟩ | ⟨-, rfl⟩ |
    ⟨-, rfl⟩ | ⟨-, rfl⟩ | ⟨-, rfl⟩ | ⟨-, rfl⟩ | ⟨-, rfl⟩ | ⟨-, rfl⟩ | ⟨-, rfl⟩ | ⟨-, rfl⟩ |
    ⟨-, rfl⟩ | ⟨-, rfl⟩ | ⟨-, rfl⟩
  · exact .ite (fun _ => .done ⟨.graphicalType .list, rfl, rfl⟩) fun _ =>
      .ite (fun _ => .done ⟨.graphicalType .text, rfl, rfl⟩) fun _ => .declined
  · exact .ite (fun _ => .done ⟨.source .service, rfl, rfl⟩) fun _ =>
      .ite (fun _ => .done ⟨.source .domain, rfl, rfl⟩) fun _ => .declined
  · exact htruth
  · exact htruth
  · exact htruth
  · exact htruth
  · refine propositionSet_stamped.bind ?_
    rintro ⟨ps, polarity⟩ ⟨ps', _⟩ ⟨h, rfl⟩
    exact .done (h.map (ParameterValue.alternatives · polarity) fun _ _ => rfl)
  · exact hquestion
  · exact hquestion
  · exact .done ⟨.text text, rfl, rfl⟩
  · exact .done ⟨.text text, rfl, rfl⟩
  · exact hquestions
  · exact hquestions
  · exact hpredicates
  · exact hpredicates
  · exact .ite (fun _ => .done ⟨.sortOrder .alphabetic, rfl, rfl⟩) fun _ => .declined
  · exact hnumber
  · exact hnumber

end Grammar

end Parley
