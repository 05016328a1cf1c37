import Parley.Grammar.Parameter
import Parley.Grammar.Rules
import Parley.Proofs.Reading.Contract
import Parley.Proofs.Surface.Inside

/-! # Nested texts

Every rule of the grammar asks only for texts inside the text that it reads, and
so do the forms of propositions and the grammars of parameter values. The depth of
a reading is therefore bounded by the length of its text.
-/

namespace Parley

namespace Reading

variable {α β : Type} {text t : Text} {r s : Reading α} {f : α → Reading β}

/-- The reading asks only for texts inside the given one. -/
def AsksInside (text : Text) (r : Reading α) : Prop :=
  r.Meets { ask := (·.Inside text) } fun _ => True

theorem AsksInside.mono (h : r.AsksInside t) (ht : t <:+: text) : r.AsksInside text :=
  h.weaken (fun _ ha => ha.trans_isInfix ht) (fun _ _ _ h => h) (fun _ _ _ h => h) fun _ h => h

theorem AsksInside.bind (h : r.AsksInside text) (hf : ∀ a, (f a).AsksInside text) :
    (r >>= f).AsksInside text :=
  Meets.bind h fun a _ => hf a

theorem AsksInside.map {g : α → β} (h : r.AsksInside text) : (g <$> r).AsksInside text :=
  Meets.map h

theorem AsksInside.ite {p : Prop} [Decidable p] (hr : r.AsksInside text)
    (hs : s.AsksInside text) : (if p then r else s).AsksInside text :=
  Meets.ite (fun _ => hr) fun _ => hs

theorem AsksInside.option {x : Option α} (hf : ∀ a, x = some a → (f a).AsksInside text) :
    (ofOption x >>= f).AsksInside text :=
  Meets.option hf

theorem AsksInside.guarded {b : Bool} {f : Unit → Reading β} (hf : (f ()).AsksInside text) :
    (guard b >>= f).AsksInside text :=
  Meets.guarded fun _ => hf

theorem AsksInside.call {keyword : Text} {f : Text → Reading β}
    (hf : ∀ inner, inner.Inside text → (f inner).AsksInside text) :
    (ofOption (call? keyword text) >>= f).AsksInside text :=
  .option fun inner h => hf inner (call?_inside h)

theorem AsksInside.object {f : Object → Reading β} (ht : t.Inside text)
    (hf : ∀ o, (f o).AsksInside text) : (readObject t >>= f).AsksInside text :=
  Meets.object ht fun o _ => hf o

theorem AsksInside.proposition {f : Proposition → Reading β} (ht : t.Inside text)
    (hf : ∀ p, (f p).AsksInside text) : (readProposition t >>= f).AsksInside text :=
  Meets.proposition ht fun p _ => hf p

theorem AsksInside.items {read : Text → Reading α}
    (h : ∀ piece, piece <:+: t → (read piece).AsksInside text) :
    (items read t).AsksInside text := by
  refine Meets.mono (Meets.items (P := fun _ => True) (p := fun _ => True) fun piece hp => ?_)
    fun _ _ => trivial
  exact Meets.mono (h piece (splitTopLevel_isInfix hp)) fun _ ha => ⟨ha, trivial⟩

theorem asksInside_readObject (ht : t.Inside text) : (readObject t).AsksInside text :=
  meets_readObject.mpr ⟨ht, fun _ _ => trivial⟩

theorem asksInside_readProposition (ht : t.Inside text) : (readProposition t).AsksInside text :=
  meets_readProposition.mpr ⟨ht, fun _ _ => trivial⟩

theorem asksInside_ofOption {x : Option α} : (ofOption x).AsksInside text :=
  meets_ofOption.mpr fun _ _ => trivial

theorem asksInside_ofExcept {x : Except Cause α} : (ofExcept x).AsksInside text :=
  meets_ofExcept.mpr ⟨fun _ _ => trivial, fun _ _ => trivial⟩

theorem asksInside_ofOntology {x : Except OntologyError α} : (ofOntology x).AsksInside text :=
  meets_ofOntology.mpr ⟨fun _ _ => trivial, fun _ _ => trivial⟩

end Reading

namespace Grammar

open Reading

variable (setting : Setting) (text : Text) {t : Text}

theorem nonemptyCall?_inside {keyword inner : Text} (h : nonemptyCall? keyword text = some inner) :
    inner.Inside text :=
  call?_inside (Option.filter_eq_some_iff.mp h).1

theorem predicate_asks : (predicate setting t).AsksInside text :=
  .guarded asksInside_ofOption

theorem action_asks : (action setting t).AsksInside text :=
  .guarded asksInside_ofOption

theorem individual_asks : (individual setting t).AsksInside text :=
  .option fun _ _ => .bind asksInside_ofOntology fun _ => trivial

theorem question_asks : (question text).AsksInside text :=
  .option fun _ h => .object (Text.dropPrefix?_inside (by decide) h) fun _ => asksInside_ofOption

theorem resolveGoal_asks (keyword : Text) (speaker : Speaker) :
    (resolveGoal keyword speaker text).AsksInside text :=
  .call fun inner h => .bind ((question_asks inner).mono h.1) fun _ => trivial

theorem goal_asks : (goal setting text).AsksInside text := by
  have hperform : (performGoal setting text).AsksInside text :=
    .call fun _ _ => .bind (action_asks setting text) fun _ => trivial
  have hhandle : (handleGoal setting text).AsksInside text := .option fun _ _ => trivial
  refine Meets.firstOf fun r hr => ?_
  simp only [List.mem_cons, List.not_mem_nil, or_false] at hr
  rcases hr with rfl | rfl | rfl | rfl
  · exact resolveGoal_asks text _ _
  · exact resolveGoal_asks text _ _
  · exact hperform
  · exact hhandle

theorem propositionList_asks : (propositionList text).AsksInside text := by
  unfold propositionList
  split
  · rename_i inner h
    have hi := (bracketed?_inside h).trans_isInfix (Text.trim_isInfix text)
    exact .items fun piece hp => asksInside_readProposition (.of_isInfix hp hi)
  · trivial

theorem actionAndArguments_asks : (actionAndArguments text).AsksInside text := by
  refine .option fun ⟨name, list⟩ h => .guarded ?_
  exact .bind ((propositionList_asks list).mono (splitFirst?_inside h).2.1) fun _ => trivial

theorem preconfirmed_asks : (preconfirmed setting text).AsksInside text := by
  have hb := splitPolarity_isInfix text
  refine .option fun inner h => ?_
  exact .bind ((actionAndArguments_asks inner).mono ((call?_inside h).1.trans hb)) fun _ => trivial

theorem prereported_asks : (prereported setting text).AsksInside text :=
  .call fun inner h => .bind ((actionAndArguments_asks inner).mono h.1) fun _ => trivial

theorem goalProposition_asks : (goalProposition setting text).AsksInside text := by
  have hb := splitPolarity_isInfix text
  refine .option fun inner h => ?_
  exact .bind ((goal_asks setting inner).mono ((call?_inside h).1.trans hb)) fun _ => trivial

theorem rejection_isInfix : (rejection text).1 <:+: text := by
  unfold rejection
  split
  · rename_i h
    exact (splitFirst?_inside h).1.1
  · exact List.infix_rfl

theorem rejected_asks : (rejected setting text).AsksInside text :=
  .call fun inner h => .guarded (.object (.of_isInfix (rejection_isInfix inner) h) fun _ => trivial)

theorem two?_mem {pieces : List Text} {a b : Text} (h : two? pieces = some (a, b)) :
    a ∈ pieces ∧ b ∈ pieces := by
  unfold two? at h
  split at h
  · obtain ⟨rfl, rfl⟩ := Prod.mk.injEq .. ▸ Option.some.inj h
    simp
  · cases h

theorem implication_asks : (implication setting text).AsksInside text := by
  refine .call fun inner hi => .option fun ⟨a, c⟩ h => ?_
  obtain ⟨ha, hc⟩ := two?_mem h
  exact .proposition (.of_isInfix (splitTopLevel_isInfix ha) hi) fun _ =>
    .proposition (.of_isInfix (splitTopLevel_isInfix hc) hi) fun _ => trivial

theorem argument_asks (p : Predicate) : (argument setting p t).AsksInside text :=
  .ite (.ite trivial trivial) (.map (individual_asks setting text))

theorem predication_asks : (predication setting text).AsksInside text :=
  .option fun _ _ => .bind (predicate_asks setting text) fun p =>
    .bind (argument_asks setting text p) fun _ => asksInside_ofOntology

theorem understanding_asks : (understanding setting text).AsksInside text := by
  have hb := splitPolarity_isInfix text
  refine .option fun inner h => .option fun ⟨token, content⟩ hs => .option fun _ _ => .guarded ?_
  have hi := ((splitFirst?_inside hs).2.trans_isInfix (call?_inside h).1).trans_isInfix hb
  exact .object hi fun _ => trivial

theorem resolvedness_asks : (resolvedness setting text).AsksInside text :=
  .option fun _ h => .object (nonemptyCall?_inside text h) fun _ => trivial

theorem knowledgePrecondition_asks : (knowledgePrecondition setting text).AsksInside text := by
  have hb := splitPolarity_isInfix text
  exact .option fun _ h => .object ((nonemptyCall?_inside _ h).trans_isInfix hb) fun _ => trivial

theorem status_asks : (status t).AsksInside text :=
  .ite trivial trivial

theorem actionStatusProposition_asks : (actionStatusProposition setting text).AsksInside text :=
  .call fun _ _ => .option fun _ _ => .bind (action_asks setting text) fun _ =>
    .bind (status_asks text) fun _ => trivial

theorem oldSpelling_asks : (oldSpelling text).AsksInside text := by
  unfold oldSpelling
  split
  · trivial
  · split <;> trivial

theorem proposition_asks : (proposition setting text).AsksInside text := by
  refine Meets.orElse (Meets.firstOf fun r hr => ?_) (oldSpelling_asks text)
  obtain ⟨form, hf, rfl⟩ := List.mem_map.mp hr
  simp only [forms, List.mem_cons, List.not_mem_nil, or_false] at hf
  rcases hf with rfl | rfl | rfl | rfl | rfl | rfl | rfl | rfl | rfl | rfl | rfl | rfl
  · exact AsksInside.option fun _ _ => trivial
  · exact AsksInside.option fun _ _ => trivial
  · exact preconfirmed_asks setting text
  · exact prereported_asks setting text
  · exact goalProposition_asks setting text
  · exact rejected_asks setting text
  · exact implication_asks setting text
  · exact predication_asks setting text
  · exact understanding_asks setting text
  · exact resolvedness_asks setting text
  · exact knowledgePrecondition_asks setting text
  · exact actionStatusProposition_asks setting text

theorem propositionSet_asks : (propositionSet text).AsksInside text := by
  have hb := splitPolarity_isInfix text
  refine .option fun inner h => .guarded (.bind (.items fun piece hp => ?_) fun _ => trivial)
  have hi := (call?_inside h).trans_isInfix hb
  have hl : (bracketed? inner).getD inner <:+: inner := by
    cases hi : bracketed? inner with
    | none => exact List.infix_rfl
    | some list => exact (bracketed?_inside hi).1
  exact asksInside_readProposition (.of_isInfix (hp.trans hl) hi)

/-- A candidate for the end of a move and what follows it make up the text, and a comma or nothing
follows. -/
theorem commaCuts_append {cut : Text × Text} (h : cut ∈ commaCuts text) :
    text = cut.1 ++ cut.2 ∧ (cut.2 = [] ∨ ∃ rest, cut.2 = ',' :: rest) := by
  induction text generalizing cut with
  | nil =>
    obtain rfl : cut = ([], []) := by simpa [commaCuts] using h
    simp
  | cons c text ih =>
    have hl : ∀ later ∈ commaCuts text, c :: text = c :: later.1 ++ later.2 ∧
        (later.2 = [] ∨ ∃ rest, later.2 = ',' :: rest) := by
      intro later hm
      obtain ⟨he, hr⟩ := ih hm
      exact ⟨congrArg (List.cons c) he, hr⟩
    simp only [commaCuts] at h
    split at h
    · rename_i hc
      rcases List.mem_cons.mp h with rfl | h
      · exact ⟨rfl, .inr ⟨text, hc ▸ rfl⟩⟩
      · obtain ⟨later, hm, rfl⟩ := List.mem_map.mp h
        exact hl later hm
    · obtain ⟨later, hm, rfl⟩ := List.mem_map.mp h
      exact hl later hm

theorem mem_commaCuts {s rest : Text} (h : rest = [] ∨ ∃ tail, rest = ',' :: tail) :
    (s, rest) ∈ commaCuts (s ++ rest) := by
  induction s with
  | nil =>
    rcases h with rfl | ⟨tail, rfl⟩
    · exact List.mem_singleton_self _
    · exact List.mem_cons_self
  | cons c s ih =>
    simp only [List.cons_append, commaCuts]
    split
    · exact List.mem_cons_of_mem _ (List.mem_map.mpr ⟨(s, rest), ih, rfl⟩)
    · exact List.mem_map.mpr ⟨(s, rest), ih, rfl⟩

theorem commaCuts_isInfix {cut : Text × Text} (h : cut ∈ commaCuts text) : cut.1 <:+: text := by
  rw [(commaCuts_append text h).1]
  exact (List.prefix_append ..).isInfix

theorem probeMove_asks {cuts : List (Text × Text)} (h : ∀ cut ∈ cuts, cut.1.Inside text) :
    (probeMove cuts).AsksInside text := by
  induction cuts with
  | nil => trivial
  | cons cut more ih =>
    have hm := ih fun c hc => h c (List.mem_cons_of_mem cut hc)
    unfold probeMove
    split
    · exact hm
    · exact ⟨h cut List.mem_cons_self, hm, fun o _ => AsksInside.ite trivial hm⟩

theorem decoratedMove_asks : (decoratedMove setting text).AsksInside text := by
  refine .call fun inner hi => .bind (probeMove_asks text fun cut hc => ?_) fun _ => ?_
  · exact .of_isInfix (commaCuts_isInfix inner hc) hi
  · exact .ite trivial (.bind asksInside_ofExcept fun _ => trivial)

theorem issueMove_asks {kind : IcmKind} {shape : IcmShape}
    (h : ∀ content, shape.content = some content → content.Inside text) :
    (issueMove kind shape).AsksInside text := by
  refine .guarded ?_
  split
  · trivial
  · exact .object (h _ ‹_›) fun _ => trivial

theorem groundingMove_asks {kind : IcmKind} {shape : IcmShape}
    (h : ∀ content, shape.content = some content → content.Inside text) :
    (groundingMove kind shape).AsksInside text := by
  have hc : ∀ content, shape.content = some content →
      (groundingContent kind content).AsksInside text := by
    intro content hs
    refine .ite trivial ?_
    split
    · trivial
    · exact .map (asksInside_readObject (h content hs))
  refine .bind asksInside_ofOption fun _ => ?_
  split
  · trivial
  · exact .bind (hc _ ‹_›) fun _ => trivial

theorem splitContentSpeaker_isInfix : (splitContentSpeaker text).2 <:+: text := by
  unfold splitContentSpeaker
  split
  · rename_i token rest h
    split
    · exact (Text.cut?_inside h).2.1
    · exact List.infix_rfl
  · exact List.infix_rfl

theorem understandingMove_asks {kind : IcmKind} {shape : IcmShape}
    (h : ∀ content, shape.content = some content → content.Inside text) :
    (understandingMove kind shape).AsksInside text := by
  refine .bind asksInside_ofOption fun _ => ?_
  split
  · trivial
  · exact .object (.of_isInfix (splitContentSpeaker_isInfix _) (h _ ‹_›)) fun _ => trivial

theorem icm_asks : (icm text).AsksInside text := by
  refine .option fun shape hs => .option fun kind _ => .guarded ?_
  have hc : ∀ content, shape.content = some content → content.Inside text :=
    fun _ => IcmShape.content_inside hs
  cases kind
  case loadPlan => exact .guarded trivial
  case reraise | accommodate | resume => exact issueMove_asks text hc
  case perception | acceptance => exact groundingMove_asks text hc
  case semantic | understanding => exact understandingMove_asks text hc

theorem splitDecoration_isInfix : (splitDecoration text).1 <:+: text := by
  unfold splitDecoration
  cases h : splitFirst? ',' text with
  | none => exact Text.trim_isInfix text
  | some halves => exact (splitFirst?_inside h).1.1

theorem decoratedIcm_asks : (decoratedIcm setting text).AsksInside text := by
  refine .call fun inner hi => ?_
  have hs := (splitDecoration_isInfix inner).trans hi.1
  generalize splitDecoration inner = halves at hs ⊢
  obtain ⟨head, block⟩ := halves
  refine .bind ((icm_asks head).mono hs) fun _ => .ite trivial ?_
  exact .bind asksInside_ofExcept fun _ => trivial

theorem moveRules_asks {rule : Rule} (h : rule ∈ moveRules) :
    (rule setting text).AsksInside text := by
  simp only [moveRules, List.mem_cons, List.not_mem_nil, or_false] at h
  rcases h with rfl | rfl | rfl | rfl | rfl | rfl | rfl | rfl | rfl
  · exact decoratedMove_asks setting text
  · exact AsksInside.option fun _ _ => trivial
  · exact AsksInside.call fun _ _ => .bind (action_asks setting text) fun _ => trivial
  · exact AsksInside.call fun _ h => .bind ((question_asks _).mono h.1) fun _ => trivial
  · exact AsksInside.call fun _ h => .object h fun _ => trivial
  · exact AsksInside.call fun _ h => .object h fun _ => trivial
  · exact AsksInside.call fun _ h => .bind ((actionAndArguments_asks _).mono h.1) fun _ => trivial
  · exact decoratedIcm_asks setting text
  · exact AsksInside.bind (icm_asks text) fun _ => trivial

theorem questionOf_asks (keyword : Text) : (questionOf keyword text).AsksInside text :=
  .call fun _ h => (question_asks _).mono h.1

theorem contentOf_asks (keyword : Text) : (contentOf keyword text).AsksInside text :=
  .call fun _ h => asksInside_readObject h

theorem propositionOf_asks (keyword : Text) : (propositionOf keyword text).AsksInside text :=
  .call fun _ h => asksInside_readProposition h

theorem branch_asks (h : t.Inside text) : (branch t).AsksInside text :=
  .ite trivial (.object (.of_isInfix (Text.trim_isInfix t) h) fun _ => trivial)

theorem ifThenElse_asks : (ifThenElse setting text).AsksInside text := by
  refine .option fun shape hs => ?_
  obtain ⟨hcondition, hconsequent, halternative⟩ := ConditionalShape.parts_inside hs
  exact .proposition hcondition fun _ => .bind (branch_asks text hconsequent) fun _ =>
    .bind (branch_asks text halternative) fun _ => trivial

theorem serviceQuery_asks (keyword : Text) : (serviceQuery keyword setting text).AsksInside text :=
  .option fun _ h => .guarded (.object (nonemptyCall?_inside text h) fun _ => trivial)

theorem serviceAction_asks (keyword : Text) :
    (serviceAction keyword setting text).AsksInside text :=
  .call fun _ _ => .option fun _ _ => .option fun _ _ => .guarded (.bind asksInside_ofExcept
    fun _ => trivial)

theorem planRules_asks {rule : Rule} (h : rule ∈ planRules) :
    (rule setting text).AsksInside text := by
  simp only [planRules, List.mem_cons, List.not_mem_nil, or_false] at h
  rcases h with rfl | rfl | rfl | rfl | rfl | rfl | rfl | rfl | rfl | rfl | rfl | rfl | rfl | rfl |
    rfl | rfl | rfl | rfl | rfl | rfl | rfl | rfl
  · exact AsksInside.bind (questionOf_asks text _) fun _ => trivial
  · exact AsksInside.call fun _ _ => .bind (action_asks setting text) fun _ => trivial
  · exact AsksInside.bind (questionOf_asks text _) fun _ => trivial
  · exact AsksInside.bind (questionOf_asks text _) fun _ => trivial
  · exact AsksInside.bind (questionOf_asks text _) fun _ => trivial
  · exact AsksInside.bind (questionOf_asks text _) fun _ => trivial
  · exact ifThenElse_asks setting text
  · exact AsksInside.call fun _ h => .bind ((goal_asks setting _).mono h.1) fun _ => trivial
  · exact AsksInside.ite trivial trivial
  · exact AsksInside.bind (contentOf_asks text _) fun _ => trivial
  · exact AsksInside.bind (propositionOf_asks text _) fun _ => trivial
  · exact AsksInside.bind (propositionOf_asks text _) fun _ => trivial
  · exact AsksInside.ite trivial trivial
  · exact AsksInside.option fun _ _ => trivial
  · exact AsksInside.map (goal_asks setting text)
  · exact AsksInside.bind (contentOf_asks text _) fun _ => trivial
  · exact AsksInside.call fun _ _ => .option fun _ _ => .guarded trivial
  · exact AsksInside.bind (contentOf_asks text _) fun _ => trivial
  · exact serviceQuery_asks setting text _
  · exact serviceQuery_asks setting text _
  · exact serviceAction_asks setting text _
  · exact serviceAction_asks setting text _

theorem lambdaPredicate_asks : (lambdaPredicate setting text).AsksInside text := by
  refine .option fun name _ => .ite trivial ?_
  exact .guarded (.bind asksInside_ofOntology fun _ => trivial)

theorem lambdaImplication_asks : (lambdaImplication setting text).AsksInside text := by
  refine .call fun inner hi => .option fun ⟨antecedent, consequent⟩ h => .option fun _ _ => ?_
  have ha := (splitLast?_inside h).1.trans_isInfix hi.1
  exact .guarded (.proposition ha fun _ => .bind asksInside_ofOntology fun _ => trivial)

theorem three?_mem {pieces : List Text} {a b c : Text} (h : three? pieces = some (a, b, c)) :
    a ∈ pieces ∧ b ∈ pieces ∧ c ∈ pieces := by
  unfold three? at h
  split at h
  · simp only [Option.some.injEq, Prod.mk.injEq] at h
    obtain ⟨rfl, rfl, rfl⟩ := h
    simp
  · cases h

theorem serviceResult_asks : (serviceResult setting text).AsksInside text := by
  refine .call fun inner hi => .option fun ⟨name, list, ending⟩ h => .guarded ?_
  obtain ⟨-, hlist, hending⟩ := three?_mem h
  refine .bind ((propositionList_asks list).mono ?_) fun _ => .bind ?_ fun _ => trivial
  · exact (splitTopLevel_isInfix hlist).trans hi.1
  · refine .object (.of_isInfix (splitTopLevel_isInfix hending) hi) fun o => ?_
    split <;> trivial

theorem propositionRules_asks {rule : Rule} (h : rule ∈ propositionRules) :
    (rule setting text).AsksInside text := by
  simp only [propositionRules, List.mem_cons, List.not_mem_nil, or_false] at h
  rcases h with rfl | rfl | rfl | rfl | rfl | rfl | rfl | rfl | rfl
  · exact AsksInside.map (question_asks text)
  · exact AsksInside.ite trivial trivial
  · exact lambdaPredicate_asks setting text
  · exact lambdaImplication_asks setting text
  · exact serviceResult_asks setting text
  · exact AsksInside.ite trivial trivial
  · exact AsksInside.call fun _ _ => .guarded trivial
  · exact AsksInside.map (status_asks text)
  · exact AsksInside.map (proposition_asks setting text)

theorem valueRules_asks {rule : Rule} (h : rule ∈ valueRules) :
    (rule setting text).AsksInside text := by
  have hitems : ∀ {inner : Text}, inner.Inside text → (items readObject inner).AsksInside text :=
    fun hi => .items fun _ hp => asksInside_readObject (.of_isInfix hp hi)
  simp only [valueRules, List.mem_cons, List.not_mem_nil, or_false] at h
  rcases h with rfl | rfl | rfl | rfl | rfl | rfl | rfl | rfl
  · exact AsksInside.ite trivial (.ite trivial trivial)
  · exact AsksInside.bind (propositionSet_asks text) fun _ => trivial
  · exact AsksInside.map (predicate_asks setting text)
  · exact AsksInside.map (action_asks setting text)
  · exact AsksInside.map (individual_asks setting text)
  · exact AsksInside.map asksInside_ofOption
  · exact AsksInside.option fun _ h => .bind (hitems (braced?_inside h)) fun _ => trivial
  · exact AsksInside.option fun _ h => .bind (hitems (bracketed?_inside h)) fun _ => trivial

theorem rules_asks {rule : Rule} (h : rule ∈ rules) : (rule setting text).AsksInside text := by
  simp only [rules, List.mem_append] at h
  rcases h with ((h | h) | h) | h
  · exact moveRules_asks setting text h
  · exact planRules_asks setting text h
  · exact propositionRules_asks setting text h
  · exact valueRules_asks setting text h

theorem valueGrammars_asks {key : Text} {grammar : ValueGrammar}
    (h : valueGrammars.get? key = some grammar) : (grammar setting text).AsksInside text := by
  have hlist : ∀ {α β : Type} {read : Text → Reading α} {g : List α → β},
      (∀ piece, (read piece).AsksInside piece) → (do
        let inner ← ofOption (bracketed? text)
        return g (← items read inner)).AsksInside text :=
    fun hr => .option fun _ hb => .bind (.items fun piece hp =>
      (hr piece).mono (hp.trans (bracketed?_inside hb).1)) fun _ => trivial
  have htruth : (truthValue setting text).AsksInside text := .map asksInside_ofOption
  have hnumber : (naturalNumber setting text).AsksInside text := .map asksInside_ofOption
  have hquestion : (singleQuestion setting text).AsksInside text := .map (question_asks text)
  have hquestions : (questionList setting text).AsksInside text := hlist question_asks
  have hpredicates : (predicateList setting text).AsksInside text :=
    hlist fun piece => predicate_asks setting piece
  have hm := Table.mem_of_get? h
  simp only [valueGrammars, List.mem_cons, List.not_mem_nil, or_false, Prod.mk.injEq] at hm
  rcases hm with ⟨-, rfl⟩ | ⟨-, rfl⟩ | ⟨-, rfl⟩ | ⟨-, rfl⟩ | ⟨-, rfl⟩ | ⟨-, rfl⟩ | ⟨-, rfl⟩ |
    ⟨-, rfl⟩ | ⟨-, rfl⟩ | ⟨-, rfl⟩ | ⟨-, rfl⟩ | ⟨-, rfl⟩ | ⟨-, rfl⟩ | ⟨-, rfl⟩ | ⟨-, rfl⟩ |
    ⟨-, rfl⟩ | ⟨-, rfl⟩ | ⟨-, rfl⟩
  · exact .ite trivial (.ite trivial trivial)
  · exact .ite trivial (.ite trivial trivial)
  · exact htruth
  · exact htruth
  · exact htruth
  · exact htruth
  · exact .bind (propositionSet_asks text) fun _ => trivial
  · exact hquestion
  · exact hquestion
  · trivial
  · trivial
  · exact hquestions
  · exact hquestions
  · exact hpredicates
  · exact hpredicates
  · exact .ite trivial trivial
  · exact hnumber
  · exact hnumber

end Grammar

end Parley
