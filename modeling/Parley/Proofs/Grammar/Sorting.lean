import Parley.Grammar.Parameter
import Parley.Grammar.Rules
import Parley.Proofs.Grammar.Block
import Parley.Proofs.Grammar.Value
import Parley.Proofs.Object.Sameness
import Parley.Proofs.Object.WellSorted
import Parley.Proofs.Reading.Contract

/-! # Sorts of what is read

Where nested texts denote well-sorted objects, every rule gives a well-sorted
object, and so do the forms of propositions and the grammars of parameter values.
The sort of an argument is compared with that of its predicate in one place; a
predicate of truth values stands alone in predications and in questions.

A rule that fails with an objection of the ontology fails with one of two: a word is
no predicate, or a predicate does not take an individual of that sort. A value is only
read where the ontology has a sort for it, and unknown names are declined.
-/

namespace Parley

open Reading

/-- What the objection says is so: a word is no predicate, or a predicate is declared with another
sort than that of the individual. -/
def OntologyError.Justified (s : Setting) : OntologyError → Prop
  | .unknownPredicate name ontology =>
    isWord name = true ∧ s.ontology.predicates.get? name = none ∧ ontology = s.ontology.name
  | .sortMismatch predicate predicateSort _ individualSort =>
    s.ontology.predicates.get? predicate = some predicateSort ∧ individualSort ≠ predicateSort
  | .unknownIndividual .. | .unknownAction .. | .missingSort .. => False

/-- If the cause is an objection of the ontology, it is justified. -/
def Cause.Justified (s : Setting) : Cause → Prop
  | .ontology objection => objection.Justified s
  | _ => True

/-- Nested texts denote well-sorted objects, and objections are justified. -/
def sorting (s : Setting) : Contract where
  object _ o := o.WellSorted s
  proposition _ p := p.WellSorted s
  cause c := c.Justified s

namespace Grammar

variable {s : Setting} {text : Text}

theorem predicate_wellSorted {p : Predicate} (h : s.ontology.predicate text = .ok p) :
    p.WellSorted s := by
  unfold Ontology.predicate at h
  split at h
  · rename_i sort hs
    obtain rfl := Except.ok.inj h
    exact ⟨rfl, hs⟩
  · cases h

theorem predicate_justified {e : OntologyError} (hw : isWord text = true)
    (h : s.ontology.predicate text = .error e) : e.Justified s := by
  unfold Ontology.predicate at h
  split at h
  · cases h
  · rename_i hn
    obtain rfl := Except.error.inj h
    exact ⟨hw, hn, rfl⟩

theorem action_wellSorted {a : Action} (h : s.ontology.action text = .ok a) : a.WellSorted s := by
  unfold Ontology.action at h
  split at h
  · rename_i hc
    obtain rfl := Except.ok.inj h
    exact ⟨rfl, List.contains_iff_mem.mp hc⟩
  · cases h

/-- What the ontology says of a value that a text has. -/
def Admitted (s : Setting) : Value → Prop
  | .enumerated name =>
    ∃ sort, s.ontology.individualSort name = .ok sort ∧ sort ≠ .string ∧ sort ≠ .real
  | .string _ => s.ontology.hasSort .string = true
  | _ => True

theorem value?_admitted {v : Value} (h : value? s text = some v) : Admitted s v := by
  rcases value?_cases h with ⟨-, x, rfl⟩ | ⟨-, n, rfl⟩ | ⟨_, -, hs, rfl⟩ | he | ⟨_, -, rfl⟩ |
    ⟨_, -, rfl⟩
  · trivial
  · trivial
  · exact hs
  · obtain ⟨rfl, sort, hg, hn⟩ := enumerated?_eq_some he
    exact ⟨sort, by rw [Ontology.individualSort, hg], hn⟩
  · trivial
  · trivial

theorem individual_of_admitted {v : Value} (hv : Admitted s v) :
    ∃ i, s.ontology.individual v = .ok i := by
  have hsort : ∃ sort, s.ontology.sortOf v = .ok sort ∧
      (sort = .string → s.ontology.hasSort .string = true) := by
    cases v with
    | enumerated name =>
      obtain ⟨sort, hd, hn, -⟩ := hv
      exact ⟨sort, hd, fun h => absurd h hn⟩
    | string t => exact ⟨.string, rfl, fun _ => hv⟩
    | integer n | real x | personName t | dateTime t => exact ⟨_, rfl, nofun⟩
  obtain ⟨sort, hs, hstring⟩ := hsort
  refine ⟨{ ontology := s.ontology.name, value := v, sort := sort }, ?_⟩
  rw [Ontology.individual, hs]
  refine if_neg ?_
  simp only [Bool.and_eq_true, decide_eq_true_eq, Bool.not_eq_true', not_and, Bool.not_eq_false]
  rintro rfl
  exact hstring rfl

theorem individual_wellSorted {v : Value} {i : Individual} (hv : Admitted s v)
    (h : s.ontology.individual v = .ok i) : i.WellSorted s := by
  unfold Ontology.individual at h
  cases hs : s.ontology.sortOf v with
  | error e => rw [hs] at h; cases h
  | ok sort =>
    rw [hs] at h
    change (if _ then _ else _) = _ at h
    split at h
    · cases h
    · obtain rfl := Except.ok.inj h
      refine ⟨rfl, ?_⟩
      cases v with
      | enumerated name =>
        obtain ⟨sort', hd, hn⟩ := hv
        have he : sort' = sort := Except.ok.inj (hd.symm.trans hs)
        subst he
        unfold Ontology.individualSort at hd
        split at hd
        · obtain rfl := Except.ok.inj hd
          exact ⟨‹_›, hn⟩
        · cases hd
      | string t => exact ⟨(Except.ok.inj hs).symm, hv⟩
      | integer n | real x | personName t | dateTime t => exact congrArg some (Except.ok.inj hs)

theorem predicate_sorted : (predicate s text).Meets (sorting s) (·.WellSorted s) := by
  refine .guarded fun _ => meets_ofOption.mpr fun p h => ?_
  cases hp : s.ontology.predicate text with
  | error e => rw [hp] at h; cases h
  | ok p' =>
    rw [hp] at h
    obtain rfl := Option.some.inj h
    exact predicate_wellSorted hp

theorem action_sorted : (action s text).Meets (sorting s) (·.WellSorted s) := by
  refine .guarded fun _ => meets_ofOption.mpr fun a h => ?_
  cases ha : s.ontology.action text with
  | error e => rw [ha] at h; cases h
  | ok a' =>
    rw [ha] at h
    obtain rfl := Option.some.inj h
    exact action_wellSorted ha

theorem individual_cases (s : Setting) (text : Text) :
    individual s text = .declined ∨ ∃ i, individual s text = .done i := by
  rw [individual]
  rcases splitPolarity text with ⟨polarity, body⟩
  cases hv : value? s body with
  | none =>
    left
    simp only [hv]
    rfl
  | some v =>
    obtain ⟨i, hi⟩ := individual_of_admitted (value?_admitted hv)
    have hvalue : ofOption (value? s body) = pure v := by
      rw [hv]
      rfl
    have hfound : ofOntology (s.ontology.individual v) = pure i := by
      rw [hi]
      rfl
    right
    simp only [hvalue, hfound, pure_bind]
    exact ⟨_, rfl⟩

theorem individual_sorted : (individual s text).Meets (sorting s) (·.WellSorted s) := by
  refine .option fun v hv => ?_
  have ha := value?_admitted hv
  obtain ⟨i, hi⟩ := individual_of_admitted ha
  have hw := individual_wellSorted ha hi
  rw [hi]
  split <;> exact hw

theorem classify_wellSorted {o : Object} {q : Question} (ho : o.WellSorted s)
    (h : classify o = some q) : q.WellSorted s := by
  unfold classify at h
  split at h
  case h_6 p =>
    split at h
    · obtain rfl := Option.some.inj h
      exact ⟨ho, ‹_›⟩
    · cases h
  case h_7 => cases h
  all_goals
    obtain rfl := Option.some.inj h
    exact ho

theorem question_sorted : (question text).Meets (sorting s) (·.WellSorted s) :=
  .option fun _ _ => .object trivial fun _ ho => meets_ofOption.mpr fun _ =>
    classify_wellSorted ho

theorem goal_sorted : (goal s text).Meets (sorting s) (·.WellSorted s) := by
  have hresolve : ∀ keyword speaker,
      (resolveGoal keyword speaker text).Meets (sorting s) (·.WellSorted s) :=
    fun _ _ => .option fun _ _ => .bind question_sorted fun _ hq => hq
  have hperform : (performGoal s text).Meets (sorting s) (·.WellSorted s) :=
    .option fun _ _ => .bind action_sorted fun _ ha => ha
  have hhandle : (handleGoal s text).Meets (sorting s) (·.WellSorted s) :=
    .option fun _ _ => rfl
  refine .firstOf fun r hr => ?_
  simp only [List.mem_cons, List.not_mem_nil, or_false] at hr
  rcases hr with rfl | rfl | rfl | rfl
  · exact hresolve _ _
  · exact hresolve _ _
  · exact hperform
  · exact hhandle

theorem readProposition_sorted : (readProposition text).Meets (sorting s) (·.WellSorted s) :=
  meets_readProposition.mpr ⟨trivial, fun _ h => h⟩

theorem readObject_sorted : (readObject text).Meets (sorting s) (·.WellSorted s) :=
  meets_readObject.mpr ⟨trivial, fun _ h => h⟩

/-- The values of items have what the reading of an item promises. -/
theorem items_sorted {α : Type} {read : Text → Reading α} {P : α → Prop}
    (h : ∀ t, (read t).Meets (sorting s) P) :
    (items read text).Meets (sorting s) fun values => ∀ a ∈ values, P a := by
  refine (Meets.items (p := fun _ => True) fun t _ => ?_).mono fun _ hv => hv.1
  exact (h t).mono fun _ ha => ⟨ha, trivial⟩

theorem propositionItems_sorted :
    (items readProposition text).Meets (sorting s) (Proposition.AllWellSorted s) :=
  (items_sorted fun _ => readProposition_sorted).mono fun _ => Proposition.allWellSorted_iff.mpr

theorem objectItems_sorted : (items readObject text).Meets (sorting s) (Object.AllWellSorted s) :=
  (items_sorted fun _ => readObject_sorted).mono fun _ => Object.allWellSorted_iff.mpr

theorem propositionList_sorted :
    (propositionList text).Meets (sorting s) (Proposition.AllWellSorted s) := by
  unfold propositionList
  split
  · exact propositionItems_sorted
  · trivial

theorem actionAndArguments_sorted :
    (actionAndArguments text).Meets (sorting s) fun found => Proposition.AllWellSorted s found.2 :=
  .option fun _ _ => .guarded fun _ => propositionList_sorted.bind fun _ h => h

theorem argument_sorted {p : Predicate} :
    (argument s p text).Meets (sorting s) fun i =>
      match i with
      | none => p.sort = .boolean
      | some i => i.WellSorted s :=
  .ite (fun _ => .ite id fun _ => trivial) fun _ => .map individual_sorted

theorem ofPredicate_wellSorted {p : Predicate} {i : Option Individual} {polarity : Polarity}
    {found : Proposition} (hp : p.WellSorted s)
    (hi : match i with
      | none => p.sort = .boolean
      | some i => i.WellSorted s)
    (h : Proposition.ofPredicate p i polarity = .ok found) : found.WellSorted s := by
  unfold Proposition.ofPredicate at h
  split at h
  · obtain rfl := Except.ok.inj h
    exact ⟨hp, hi⟩
  · split at h
    · obtain rfl := Except.ok.inj h
      exact ⟨hp, hi, ‹_›⟩
    · cases h

theorem ofPredicate_justified {p : Predicate} {i : Option Individual} {polarity : Polarity}
    {e : OntologyError} (hp : p.WellSorted s)
    (h : Proposition.ofPredicate p i polarity = .error e) :
    e.Justified s := by
  unfold Proposition.ofPredicate at h
  split at h
  · cases h
  · split at h
    · cases h
    · rename_i hne
      obtain rfl := Except.error.inj h
      exact ⟨hp.2, hne⟩

theorem predication_sorted : (predication s text).Meets (sorting s) (·.WellSorted s) :=
  .option fun _ _ => predicate_sorted.bind fun _ hp => argument_sorted.bind fun _ hi =>
    meets_ofOntology.mpr
      ⟨fun _ => ofPredicate_wellSorted hp hi, fun _ => ofPredicate_justified hp⟩

theorem status_sorted : (status text).Meets (sorting s) fun _ => True :=
  .ite (fun _ => trivial) fun _ => trivial

theorem oldSpelling_sorted : (oldSpelling text).Meets (sorting s) (·.WellSorted s) := by
  unfold oldSpelling
  split
  · trivial
  · split <;> trivial

theorem proposition_sorted : (proposition s text).Meets (sorting s) (·.WellSorted s) := by
  refine .orElse (.firstOf fun r hr => ?_) oldSpelling_sorted
  obtain ⟨form, hf, rfl⟩ := List.mem_map.mp hr
  simp only [forms, List.mem_cons, List.not_mem_nil, or_false] at hf
  rcases hf with rfl | rfl | rfl | rfl | rfl | rfl | rfl | rfl | rfl | rfl | rfl | rfl
  · exact .option fun _ _ => rfl
  · exact .option fun _ _ => rfl
  · exact .option fun _ _ => actionAndArguments_sorted.bind fun _ h => ⟨rfl, h⟩
  · refine .option fun _ _ => actionAndArguments_sorted.bind fun _ h => ⟨rfl, ?_⟩
    rw [Proposition.allWellSorted_iff] at h ⊢
    exact fun p hp => h p ((Collection.isSetOf_ofList _).mem p hp)
  · exact .option fun _ _ => goal_sorted.bind fun _ h => h
  · exact .option fun _ _ => .guarded fun _ => .object trivial fun _ h => h
  · exact .option fun _ _ => .option fun _ _ => .proposition trivial fun _ ha =>
      .proposition trivial fun _ hc => ⟨ha, hc⟩
  · exact predication_sorted
  · exact .option fun _ _ => .option fun _ _ => .option fun _ _ => .guarded fun _ =>
      .object trivial fun _ h => h
  · exact .option fun _ _ => .object trivial fun _ h => h
  · exact .option fun _ _ => .object trivial fun _ h => h
  · exact .option fun _ _ => .option fun _ _ => action_sorted.bind fun _ ha =>
      status_sorted.bind fun _ _ => ha

theorem propositionSet_sorted :
    (propositionSet text).Meets (sorting s) fun found => Proposition.AllWellSorted s found.1 :=
  .option fun _ _ => .guarded fun _ => propositionItems_sorted.bind fun _ h => h

theorem probeMove_sorted (cuts : List (Text × Text)) :
    (probeMove cuts).Meets (sorting s) fun found => found.1.WellSorted s := by
  induction cuts with
  | nil => trivial
  | cons cut more ih =>
    unfold probeMove
    split
    · exact ih
    · exact ⟨trivial, ih, fun o ho => .ite (fun _ => ho) fun _ => ih⟩

theorem decorate_wellSorted {o : Object} (data : Realization) (h : o.WellSorted s) :
    (o.decorate data).WellSorted s := by
  cases o <;> exact h

theorem ofExcept_foldEntries_sorted {α : Type} {fields : Table Text (Text → Option (α → α))}
    {unsupported invalid : Text → Text → Cause} {start : α} {block : Text}
    (hu : ∀ key value, (unsupported key value).Justified s)
    (hi : ∀ key value, (invalid key value).Justified s) :
    (ofExcept (foldEntries (setField fields unsupported invalid) start block)).Meets (sorting s)
      fun _ => True := by
  refine meets_ofExcept.mpr ⟨fun _ _ => trivial, fun cause hc => ?_⟩
  obtain ⟨entry, -, he⟩ := fault?_of_foldEntries_error hc
  unfold fault? at he
  split at he
  · obtain rfl := Option.some.inj he
    trivial
  · split at he
    · obtain rfl := Option.some.inj he
      exact hu ..
    · split at he
      · cases he
      · obtain rfl := Option.some.inj he
        exact hi ..

theorem realizationData_sorted :
    (ofExcept (realizationData text)).Meets (sorting s) fun _ => True :=
  ofExcept_foldEntries_sorted (fun _ _ => trivial) fun _ _ => trivial

theorem serviceActionOptions_sorted :
    (ofExcept (serviceActionOptions text)).Meets (sorting s) fun _ => True :=
  ofExcept_foldEntries_sorted (fun _ _ => trivial) fun _ _ => trivial

theorem decoratedMove_sorted : (decoratedMove s text).Meets (sorting s) (·.WellSorted s) :=
  .option fun _ _ => (probeMove_sorted _).bind fun _ h => .ite (fun _ => h) fun _ =>
    realizationData_sorted.bind fun data _ => decorate_wellSorted data h

theorem icmPolarity_sorted {token : Option Text} :
    (icmPolarity token).Meets (sorting s) fun _ => True :=
  meets_ofOption.mpr fun _ _ => trivial

theorem issueMove_sorted {kind : IcmKind} {shape : IcmShape} :
    (issueMove kind shape).Meets (sorting s) (·.WellSorted s) := by
  refine .guarded fun _ => ?_
  split
  · trivial
  · exact .object trivial fun _ h => h

theorem groundingContent_sorted {kind : IcmKind} :
    (groundingContent kind text).Meets (sorting s) (·.WellSorted s) := by
  refine .ite (fun _ => trivial) fun _ => ?_
  split
  · trivial
  · exact .map readObject_sorted

theorem groundingMove_sorted {kind : IcmKind} {shape : IcmShape} :
    (groundingMove kind shape).Meets (sorting s) (·.WellSorted s) := by
  refine icmPolarity_sorted.bind fun _ _ => ?_
  split
  · trivial
  · exact groundingContent_sorted.bind fun _ h => h

theorem understandingMove_sorted {kind : IcmKind} {shape : IcmShape} :
    (understandingMove kind shape).Meets (sorting s) (·.WellSorted s) := by
  refine icmPolarity_sorted.bind fun _ _ => ?_
  split
  · trivial
  · exact .object trivial fun _ h => h

theorem icm_sorted : (icm text).Meets (sorting s) (·.WellSorted s) := by
  refine .option fun _ _ => .option fun kind _ => .guarded fun _ => ?_
  cases kind
  case loadPlan => exact .guarded fun _ => trivial
  case reraise | accommodate | resume => exact issueMove_sorted
  case perception | acceptance => exact groundingMove_sorted
  case semantic | understanding => exact understandingMove_sorted

theorem decoratedIcm_sorted : (decoratedIcm s text).Meets (sorting s) (·.WellSorted s) :=
  .option fun _ _ => icm_sorted.bind fun _ h => .ite (fun _ => h) fun _ =>
    realizationData_sorted.bind fun _ _ => h

theorem basicMove_sorted : (basicMove s text).Meets (sorting s) (·.WellSorted s) := by
  refine .option fun m hm => ?_
  have h := List.mem_of_find?_eq_some hm
  simp only [basicMoves, List.mem_cons, List.not_mem_nil, or_false] at h
  rcases h with rfl | rfl | rfl | rfl | rfl | rfl <;> trivial

theorem moveRules_sorted {rule : Rule} (h : rule ∈ moveRules) :
    (rule s text).Meets (sorting s) (·.WellSorted s) := by
  simp only [moveRules, List.mem_cons, List.not_mem_nil, or_false] at h
  rcases h with rfl | rfl | rfl | rfl | rfl | rfl | rfl | rfl | rfl
  · exact decoratedMove_sorted
  · exact basicMove_sorted
  · exact .option fun _ _ => action_sorted.bind fun _ h => h
  · exact .option fun _ _ => question_sorted.bind fun _ h => h
  · exact .option fun _ _ => .object trivial fun _ h => h
  · exact .option fun _ _ => .object trivial fun _ h => h
  · exact .option fun _ _ => actionAndArguments_sorted.bind fun _ h => ⟨rfl, h⟩
  · exact decoratedIcm_sorted
  · exact icm_sorted.bind fun _ h => h

theorem questionOf_sorted (keyword : Text) :
    (questionOf keyword text).Meets (sorting s) (·.WellSorted s) :=
  .option fun _ _ => question_sorted

theorem contentOf_sorted (keyword : Text) :
    (contentOf keyword text).Meets (sorting s) (·.WellSorted s) :=
  .option fun _ _ => readObject_sorted

theorem propositionOf_sorted (keyword : Text) :
    (propositionOf keyword text).Meets (sorting s) (·.WellSorted s) :=
  .option fun _ _ => readProposition_sorted

theorem branch_sorted : (branch text).Meets (sorting s) (Object.AllWellSorted s) :=
  .ite (fun _ => trivial) fun _ => .object trivial fun _ h => ⟨h, trivial⟩

theorem serviceQuery_sorted (keyword : Text) :
    (serviceQuery keyword s text).Meets (sorting s) (·.WellSorted s) :=
  .option fun _ _ => .guarded fun _ => .object trivial fun _ h => h

theorem serviceAction_sorted (keyword : Text) :
    (serviceAction keyword s text).Meets (sorting s) (·.WellSorted s) :=
  .option fun _ _ => .option fun _ _ => .option fun _ _ => .guarded fun _ =>
    serviceActionOptions_sorted.bind fun _ _ => rfl

theorem planRules_sorted {rule : Rule} (h : rule ∈ planRules) :
    (rule s text).Meets (sorting s) (·.WellSorted s) := by
  simp only [planRules, List.mem_cons, List.not_mem_nil, or_false] at h
  rcases h with rfl | rfl | rfl | rfl | rfl | rfl | rfl | rfl | rfl | rfl | rfl | rfl | rfl | rfl |
    rfl | rfl | rfl | rfl | rfl | rfl | rfl | rfl
  · exact (questionOf_sorted _).bind fun _ h => ⟨rfl, h⟩
  · exact .option fun _ _ => action_sorted.bind fun _ h => h
  · exact (questionOf_sorted _).bind fun _ h => ⟨rfl, h⟩
  · exact (questionOf_sorted _).bind fun _ h => h
  · exact (questionOf_sorted _).bind fun _ h => h
  · exact (questionOf_sorted _).bind fun _ h => h
  · exact .option fun _ _ => .proposition trivial fun _ hp => branch_sorted.bind fun _ hc =>
      branch_sorted.bind fun _ ha => ⟨hp, hc, ha⟩
  · exact .option fun _ _ => goal_sorted.bind fun _ h => h
  · exact .ite (fun _ => trivial) fun _ => trivial
  · exact (contentOf_sorted _).bind fun _ h => h
  · exact (propositionOf_sorted _).bind fun _ h => h
  · exact (propositionOf_sorted _).bind fun _ h => h
  · exact .ite (fun _ => trivial) fun _ => trivial
  · exact .option fun _ _ => trivial
  · exact .map goal_sorted
  · exact (contentOf_sorted _).bind fun _ h => h
  · exact .option fun _ _ => .option fun _ _ => .guarded fun _ => trivial
  · exact (contentOf_sorted _).bind fun _ h => h
  · exact serviceQuery_sorted _
  · exact serviceQuery_sorted _
  · exact serviceAction_sorted _
  · exact serviceAction_sorted _

theorem ofOntology_predicate_sorted (hw : isWord text = true) :
    (ofOntology (s.ontology.predicate text)).Meets (sorting s) (·.WellSorted s) :=
  meets_ofOntology.mpr ⟨fun _ => predicate_wellSorted, fun _ => predicate_justified hw⟩

theorem outcome_sorted : (outcome text).Meets (sorting s) fun _ => True := by
  refine .object trivial fun o _ => ?_
  split <;> trivial

theorem propositionRules_sorted {rule : Rule} (h : rule ∈ propositionRules) :
    (rule s text).Meets (sorting s) (·.WellSorted s) := by
  simp only [propositionRules, List.mem_cons, List.not_mem_nil, or_false] at h
  rcases h with rfl | rfl | rfl | rfl | rfl | rfl | rfl | rfl | rfl
  · exact .map question_sorted
  · exact .ite (fun _ => trivial) fun _ => trivial
  · exact .option fun _ _ => .ite (fun _ => trivial) fun _ => .guarded fun hw =>
      (ofOntology_predicate_sorted hw).bind fun _ h => h
  · exact .option fun _ _ => .option fun _ _ => .option fun _ _ => .guarded fun hw =>
      .proposition trivial fun _ ha =>
        (ofOntology_predicate_sorted hw).bind fun _ hp => ⟨rfl, ha, hp⟩
  · exact .option fun _ _ => .option fun _ _ => .guarded fun _ => propositionList_sorted.bind
      fun _ h => outcome_sorted.bind fun _ _ => ⟨rfl, h⟩
  · exact .ite (fun _ => trivial) fun _ => trivial
  · exact .option fun _ _ => .guarded fun _ => trivial
  · exact .map status_sorted
  · exact .map proposition_sorted

theorem valueRules_sorted {rule : Rule} (h : rule ∈ valueRules) :
    (rule s text).Meets (sorting s) (·.WellSorted s) := by
  simp only [valueRules, List.mem_cons, List.not_mem_nil, or_false] at h
  rcases h with rfl | rfl | rfl | rfl | rfl | rfl | rfl | rfl
  · exact .ite (fun _ => trivial) fun _ => .ite (fun _ => trivial) fun _ => trivial
  · exact propositionSet_sorted.bind fun _ h => h
  · exact .map predicate_sorted
  · exact .map action_sorted
  · exact .map individual_sorted
  · exact .map (meets_ofOption.mpr fun _ _ => trivial)
  · refine .option fun _ _ => objectItems_sorted.bind fun _ h => ?_
    have hmem := Object.allWellSorted_iff.mp h
    exact Object.allWellSorted_iff.mpr fun o ho => hmem o ((Collection.isSetOf_ofList _).mem o ho)
  · exact .option fun _ _ => objectItems_sorted.bind fun _ h => h

/-- Where nested texts denote well-sorted objects, a rule gives a well-sorted object or fails with
a cause that is justified. -/
theorem rules_sorted {rule : Rule} (h : rule ∈ rules) :
    (rule s text).Meets (sorting s) (·.WellSorted s) := by
  simp only [rules, List.mem_append] at h
  rcases h with ((h | h) | h) | h
  · exact moveRules_sorted h
  · exact planRules_sorted h
  · exact propositionRules_sorted h
  · exact valueRules_sorted h

/-- Where nested texts denote well-sorted objects, the value of a parameter holds no others. -/
theorem valueGrammars_sorted {key : Text} {grammar : ValueGrammar}
    (h : valueGrammars.get? key = some grammar) :
    (grammar s text).Meets (sorting s) (·.WellSorted s) := by
  have htruth : (truthValue s text).Meets (sorting s) (·.WellSorted s) :=
    .map (meets_ofOption.mpr fun _ _ => trivial)
  have hnumber : (naturalNumber s text).Meets (sorting s) (·.WellSorted s) :=
    .map (meets_ofOption.mpr fun _ _ => trivial)
  have hquestion : (singleQuestion s text).Meets (sorting s) (·.WellSorted s) :=
    .map question_sorted
  have hquestions : (questionList s text).Meets (sorting s) (·.WellSorted s) :=
    .option fun _ _ => (items_sorted fun _ => question_sorted).bind fun _ h => h
  have hpredicates : (predicateList s text).Meets (sorting s) (·.WellSorted s) :=
    .option fun _ _ => (items_sorted fun _ => predicate_sorted).bind fun _ h => h
  have hm := Table.mem_of_get? h
  simp only [valueGrammars, List.mem_cons, List.not_mem_nil, or_false, Prod.mk.injEq] at hm
  rcases hm with ⟨-, rfl⟩ | ⟨-, rfl⟩ | ⟨-, rfl⟩ | ⟨-, rfl⟩ | ⟨-, rfl⟩ | ⟨-, rfl⟩ | ⟨-, rfl⟩ |
    ⟨-, rfl⟩ | ⟨-, rfl⟩ | ⟨-, rfl⟩ | ⟨-, rfl⟩ | ⟨-, rfl⟩ | ⟨-, rfl⟩ | ⟨-, rfl⟩ | ⟨-, rfl⟩ |
    ⟨-, rfl⟩ | ⟨-, rfl⟩ | ⟨-, rfl⟩
  · exact .ite (fun _ => trivial) fun _ => .ite (fun _ => trivial) fun _ => trivial
  · exact .ite (fun _ => trivial) fun _ => .ite (fun _ => trivial) fun _ => trivial
  · exact htruth
  · exact htruth
  · exact htruth
  · exact htruth
  · exact propositionSet_sorted.bind fun _ h => h
  · exact hquestion
  · exact hquestion
  · trivial
  · trivial
  · exact hquestions
  · exact hquestions
  · exact hpredicates
  · exact hpredicates
  · exact .ite (fun _ => trivial) fun _ => trivial
  · exact hnumber
  · exact hnumber

end Grammar

end Parley
