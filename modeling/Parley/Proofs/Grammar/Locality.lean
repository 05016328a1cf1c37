import Parley.Proofs.Grammar.Nested
import Parley.Proofs.Grammar.Value

/-! # What a rule asks of an ontology

A rule looks up only parts of the text that it reads, and besides them it asks whether
there is a sort of strings. Two ontologies that answer alike there make one reading of
the text. The rules that leave the ontology alone are the same for all of them.
-/

namespace Parley

/-- Two ontologies of one name answer alike for all parts of a text. -/
structure Ontology.AgreesOn (o o' : Ontology) (text : Text) : Prop where
  name : o.name = o'.name
  hasString : o.hasSort .string = o'.hasSort .string
  predicates : ∀ w, w <:+: text → o.predicates.get? w = o'.predicates.get? w
  individuals : ∀ w, w <:+: text → o.individuals.get? w = o'.individuals.get? w
  actions : ∀ w, w <:+: text → o.actions.contains w = o'.actions.contains w

/-- Two settings with one domain and with ontologies that answer alike. -/
structure Setting.AgreesOn (s s' : Setting) (text : Text) : Prop where
  ontology : s.ontology.AgreesOn s'.ontology text
  domainName : s.domainName = s'.domainName

namespace Ontology.AgreesOn

variable {o o' : Ontology} {text t : Text}

theorem mono (h : o.AgreesOn o' text) (ht : t <:+: text) : o.AgreesOn o' t :=
  ⟨h.name, h.hasString, fun w hw => h.predicates w (hw.trans ht),
    fun w hw => h.individuals w (hw.trans ht), fun w hw => h.actions w (hw.trans ht)⟩

theorem predicate (h : o.AgreesOn o' text) : o.predicate text = o'.predicate text := by
  rw [Ontology.predicate, Ontology.predicate, h.predicates text List.infix_rfl, h.name]

theorem action (h : o.AgreesOn o' text) : o.action text = o'.action text := by
  rw [Ontology.action, Ontology.action, h.actions text List.infix_rfl, h.name]

theorem individualSort (h : o.AgreesOn o' text) :
    o.individualSort text = o'.individualSort text := by
  rw [Ontology.individualSort, Ontology.individualSort, h.individuals text List.infix_rfl, h.name]

/-- A value that is not the name of an enumerated individual asks for no name at all. -/
theorem individual (h : o.AgreesOn o' text) {value : Value}
    (hv : value.impliedSort? = none → value.render = text) :
    o.individual value = o'.individual value := by
  have hsort : o.sortOf value = o'.sortOf value := by
    rw [sortOf, sortOf]
    cases hi : value.impliedSort? with
    | none => rw [hv hi, h.individualSort]
    | some sort => rfl
  have hstring : ∀ sort : Sortal,
      (sort = .string && !o.hasSort sort) = (sort = .string && !o'.hasSort sort) := by
    intro sort
    by_cases hs : sort = .string
    · rw [hs, h.hasString]
    · simp [hs]
  simp only [Ontology.individual, hsort, hstring, h.name]

end Ontology.AgreesOn

theorem Setting.AgreesOn.mono {s s' : Setting} {text t : Text} (h : s.AgreesOn s' text)
    (ht : t <:+: text) : s.AgreesOn s' t :=
  ⟨h.ontology.mono ht, h.domainName⟩

namespace Reading

variable {α β : Type}

theorem option_congr {x : Option α} {f g : α → Reading β} (h : ∀ a, x = some a → f a = g a) :
    (ofOption x >>= f) = ofOption x >>= g := by
  cases x with
  | none => rfl
  | some a => exact h a rfl

theorem call_congr {keyword text : Text} {f g : Text → Reading β}
    (h : ∀ inner, inner <:+: text → f inner = g inner) :
    (ofOption (call? keyword text) >>= f) = ofOption (call? keyword text) >>= g :=
  option_congr fun inner hi => h inner (call?_inside hi).1

theorem items_congr {read read' : Text → Reading α} {text : Text}
    (h : ∀ piece, piece <:+: text → read piece = read' piece) :
    items read text = items read' text := by
  have heach : ∀ texts : List Text, (∀ piece ∈ texts, read piece = read' piece) →
      each read texts = each read' texts := by
    intro texts hr
    induction texts with
    | nil => rfl
    | cons piece texts ih =>
      rw [List.forall_mem_cons] at hr
      rw [each_cons, each_cons, hr.1, ih hr.2]
  exact heach _ fun piece hp => h piece (splitTopLevel_isInfix hp)

end Reading

namespace Grammar

open Reading

variable {s s' : Setting} {text : Text}

theorem predicate_congr (h : s.AgreesOn s' text) : predicate s text = predicate s' text := by
  rw [predicate, predicate, h.ontology.predicate]

theorem action_congr (h : s.AgreesOn s' text) : action s text = action s' text := by
  rw [action, action, h.ontology.action]

theorem value?_congr (h : s.AgreesOn s' text) : value? s text = value? s' text := by
  have he : enumerated? s text = enumerated? s' text := by
    rw [enumerated?, enumerated?, h.ontology.individualSort]
  rw [value?, value?, he, h.ontology.hasString]

theorem individual_congr (h : s.AgreesOn s' text) : individual s text = individual s' text := by
  have hb := h.mono (splitPolarity_isInfix text)
  simp only [individual, value?_congr hb]
  refine option_congr fun value hv => ?_
  have hrender : value.impliedSort? = none → value.render = (splitPolarity text).2 := by
    intro hi
    rcases value?_cases hv with ⟨-, x, rfl⟩ | ⟨-, n, rfl⟩ | ⟨_, -, -, rfl⟩ | he | ⟨_, -, rfl⟩ |
      ⟨_, -, rfl⟩
    case inr.inr.inr.inl => rw [(enumerated?_eq_some he).1, Value.render]
    all_goals cases hi
  rw [hb.ontology.individual hrender]

theorem goal_congr (h : s.AgreesOn s' text) : goal s text = goal s' text := by
  have hperform : performGoal s text = performGoal s' text := by
    refine call_congr fun inner hi => ?_
    rw [action_congr (h.mono hi)]
  have hhandle : handleGoal s text = handleGoal s' text := by
    rw [handleGoal, handleGoal, h.ontology.name]
  rw [goal, goal, hperform, hhandle]

theorem application?_isInfix {polarity : Polarity} {name inner : Text}
    (h : application? polarity text = some (name, inner)) : name <:+: text ∧ inner <:+: text := by
  unfold application? at h
  split at h
  · rename_i before _ hc
    obtain ⟨argument, ha, he⟩ := Option.map_eq_some_iff.mp h
    obtain ⟨rfl, rfl⟩ := Prod.mk.injEq .. ▸ he
    exact ⟨(Text.cut?_inside hc).1.1, (call?_inside ha).1⟩
  · split at h
    · obtain ⟨rfl, rfl⟩ := Prod.mk.injEq .. ▸ Option.some.inj h
      exact ⟨List.infix_rfl, List.nil_infix⟩
    · cases h

theorem predication_congr (h : s.AgreesOn s' text) :
    predication s text = predication s' text := by
  refine option_congr fun ⟨name, inner⟩ ha => ?_
  obtain ⟨hname, hinner⟩ := application?_isInfix ha
  have hb := splitPolarity_isInfix text
  have hargument : ∀ p, argument s p inner = argument s' p inner := by
    intro p
    rw [argument, argument, individual_congr (h.mono (hinner.trans hb))]
  simp only [predicate_congr (h.mono (hname.trans hb)), hargument]

theorem actionStatusProposition_congr (h : s.AgreesOn s' text) :
    actionStatusProposition s text = actionStatusProposition s' text := by
  refine call_congr fun inner hi => option_congr fun ⟨name, token⟩ ht => ?_
  have hn := splitTopLevel_isInfix (two?_mem ht).1
  simp only [action_congr (h.mono (hn.trans hi))]

theorem forms_congr (h : s.AgreesOn s' text) {form : Form} (hf : form ∈ forms) :
    form s text = form s' text := by
  have hname := h.ontology.name
  simp only [forms, List.mem_cons, List.not_mem_nil, or_false] at hf
  rcases hf with rfl | rfl | rfl | rfl | rfl | rfl | rfl | rfl | rfl | rfl | rfl | rfl
  · simp only [serviceActionTerminated, hname]
  · simp only [serviceActionStarted, hname]
  · simp only [preconfirmed, hname]
  · simp only [prereported, hname]
  · refine option_congr fun inner hi => ?_
    have hb := (call?_inside hi).1.trans (splitPolarity_isInfix text)
    simp only [goal_congr (h.mono hb)]
  · rfl
  · rfl
  · exact predication_congr h
  · rfl
  · rfl
  · rfl
  · exact actionStatusProposition_congr h

theorem proposition_congr (h : s.AgreesOn s' text) :
    proposition s text = proposition s' text := by
  rw [proposition, proposition, List.map_congr_left fun form hf => forms_congr h hf]

theorem moveRules_congr (h : s.AgreesOn s' text) {rule : Rule} (hr : rule ∈ moveRules) :
    rule s text = rule s' text := by
  simp only [moveRules, List.mem_cons, List.not_mem_nil, or_false] at hr
  rcases hr with rfl | rfl | rfl | rfl | rfl | rfl | rfl | rfl | rfl
  case inr.inr.inl =>
    refine call_congr fun inner hi => ?_
    simp only [action_congr (h.mono hi)]
  case inr.inr.inr.inr.inr.inr.inl => simp only [prereportMove, h.ontology.name]
  all_goals rfl

theorem planRules_congr (h : s.AgreesOn s' text) {rule : Rule} (hr : rule ∈ planRules) :
    rule s text = rule s' text := by
  have hperform : perform s text = perform s' text :=
    call_congr fun inner hi => by rw [action_congr (h.mono hi)]
  have hjump : jumpTo s text = jumpTo s' text :=
    call_congr fun inner hi => by rw [goal_congr (h.mono hi)]
  have hservice : ∀ keyword, serviceAction keyword s text = serviceAction keyword s' text :=
    fun keyword => by simp only [serviceAction, h.ontology.name]
  simp only [planRules, List.mem_cons, List.not_mem_nil, or_false] at hr
  rcases hr with rfl | rfl | rfl | rfl | rfl | rfl | rfl | rfl | rfl | rfl | rfl | rfl | rfl | rfl |
    rfl | rfl | rfl | rfl | rfl | rfl | rfl | rfl
  · simp only [findout, h.domainName]
  · exact hperform
  · simp only [raise, h.domainName]
  · rfl
  · rfl
  · rfl
  · rfl
  · exact hjump
  · rfl
  · rfl
  · rfl
  · rfl
  · rfl
  · rfl
  · exact congrArg (Object.goal <$> ·) (goal_congr h)
  · rfl
  · rfl
  · rfl
  · rfl
  · rfl
  · exact hservice _
  · exact hservice _

theorem lambdaPredicate_congr (h : s.AgreesOn s' text) :
    lambdaPredicate s text = lambdaPredicate s' text := by
  refine option_congr fun name hb => ?_
  have hn : name <:+: text := ⟨"X.", "(X)", (between?_eq_some_iff.mp hb).symm⟩
  simp only [(h.mono hn).ontology.predicate]

theorem lambdaImplication_congr (h : s.AgreesOn s' text) :
    lambdaImplication s text = lambdaImplication s' text := by
  refine call_congr fun inner hi => option_congr fun ⟨antecedent, consequent⟩ hl => ?_
  refine option_congr fun name hx => ?_
  have hn : name <:+: consequent := ⟨[], "(X)", (Text.dropSuffix?_eq_some_iff.mp hx).symm⟩
  have hc := (hn.trans (splitLast?_inside hl).2.1).trans hi
  simp only [(h.mono hc).ontology.predicate, h.ontology.name]

theorem propositionRules_congr (h : s.AgreesOn s' text) {rule : Rule}
    (hr : rule ∈ propositionRules) : rule s text = rule s' text := by
  simp only [propositionRules, List.mem_cons, List.not_mem_nil, or_false] at hr
  rcases hr with rfl | rfl | rfl | rfl | rfl | rfl | rfl | rfl | rfl
  · rfl
  · rfl
  · exact lambdaPredicate_congr h
  · exact lambdaImplication_congr h
  · simp only [serviceResult, h.ontology.name]
  · rfl
  · rfl
  · rfl
  · exact congrArg (Object.proposition <$> ·) (proposition_congr h)

theorem valueRules_congr (h : s.AgreesOn s' text) {rule : Rule} (hr : rule ∈ valueRules) :
    rule s text = rule s' text := by
  simp only [valueRules, List.mem_cons, List.not_mem_nil, or_false] at hr
  rcases hr with rfl | rfl | rfl | rfl | rfl | rfl | rfl | rfl
  · rfl
  · rfl
  · exact congrArg (Object.predicate <$> ·) (predicate_congr h)
  · exact congrArg (Object.action <$> ·) (action_congr h)
  · exact congrArg (Object.individual <$> ·) (individual_congr h)
  · rfl
  · rfl
  · rfl

/-- A rule reads a text alike over ontologies that answer alike for the parts of the text. -/
theorem rules_congr (h : s.AgreesOn s' text) {rule : Rule} (hr : rule ∈ rules) :
    rule s text = rule s' text := by
  simp only [rules, List.mem_append] at hr
  rcases hr with ((hr | hr) | hr) | hr
  · exact moveRules_congr h hr
  · exact planRules_congr h hr
  · exact propositionRules_congr h hr
  · exact valueRules_congr h hr

/-- The only values of parameters that name something are predicates between brackets. -/
theorem valueGrammars_congr (h : s.AgreesOn s' text) {key : Text} {grammar : ValueGrammar}
    (hg : valueGrammars.get? key = some grammar) : grammar s text = grammar s' text := by
  have hpredicates : predicateList s text = predicateList s' text := by
    refine option_congr fun inner hi => ?_
    rw [items_congr fun piece hp => predicate_congr (h.mono (hp.trans (bracketed?_inside hi).1))]
  have hm := Table.mem_of_get? hg
  simp only [valueGrammars, List.mem_cons, List.not_mem_nil, or_false, Prod.mk.injEq] at hm
  rcases hm with ⟨-, rfl⟩ | ⟨-, rfl⟩ | ⟨-, rfl⟩ | ⟨-, rfl⟩ | ⟨-, rfl⟩ | ⟨-, rfl⟩ | ⟨-, rfl⟩ |
    ⟨-, rfl⟩ | ⟨-, rfl⟩ | ⟨-, rfl⟩ | ⟨-, rfl⟩ | ⟨-, rfl⟩ | ⟨-, rfl⟩ | ⟨-, rfl⟩ | ⟨-, rfl⟩ |
    ⟨-, rfl⟩ | ⟨-, rfl⟩ | ⟨-, rfl⟩
  case inr.inr.inr.inr.inr.inr.inr.inr.inr.inr.inr.inr.inr.inl => exact hpredicates
  case inr.inr.inr.inr.inr.inr.inr.inr.inr.inr.inr.inr.inr.inr.inl => exact hpredicates
  all_goals rfl

end Grammar

end Parley
