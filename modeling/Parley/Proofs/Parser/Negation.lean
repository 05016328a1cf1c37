import Parley.Proofs.Grammar.Negation
import Parley.Proofs.Parser.Session

/-! # Negated propositions

No rule but those for propositions and for values reads a text behind the mark of negation.
The mark therefore leads to no other rule: it turns the proposition of a text into its
negation. Where the individuals of an ontology have words as names, nothing reads two marks.
-/

namespace Parley

namespace Grammar

open Reading

variable {m : Meaning} {s : Setting} {text : Text} {rule : Rule} {p : Proposition}

theorem moveRules_planRules_marked (hr : rule ∈ moveRules ++ planRules) :
    rule s ('~' :: text) = .declined := by
  have hopenings : ∀ opens ∈ moveOpenings ++ planOpenings, ∀ opening ∈ opens,
      opening.1.head? ≠ some '~' := by
    decide
  have hhead : (Text.opening ('~' :: text)).1.head? = some '~' := rfl
  apply declined_of_opening hr
  intro opens ho hmem
  exact hopenings opens ho _ hmem hhead

/-- What stands behind the mark is a proposition, a set of alternatives or a value. -/
theorem firstOf_rules_marked :
    Rule.firstOf rules s ('~' :: text) =
      (propositionRule s ('~' :: text)).orElse
        ((propositionSetRule s ('~' :: text)).orElse
          (Rule.firstOf literalRules s ('~' :: text))) := by
  apply firstOf_rules_of_declined fun rule hr => moveRules_planRules_marked hr
  simp only [propositionRules, List.dropLast, List.cons_append, List.nil_append, List.mem_cons,
    List.not_mem_nil, or_false]
  rintro rule (rfl | rfl | rfl | rfl | rfl | rfl | rfl | rfl | rfl | rfl | rfl) <;> rfl

theorem serviceResult_unsigned :
    (serviceResult s text).Meets {} fun o => ∀ p, o = .proposition p → p.isSigned = false :=
  serviceResult_makes fun _ _ _ _ => rfl

theorem unmarked_of_denote {form : Form}
    (hform : ∀ rest, (form s ('~' :: rest)).Meets {} fun p => p.isSigned = true → p.polarity = .neg)
    (hv : (form s text).denote m = .value p) (hsigned : p.isSigned = true)
    (hpos : p.polarity = .pos) : splitPolarity text = (.pos, text) := by
  apply splitPolarity_of_unmarked
  rintro rest rfl
  have hneg := (hform rest).value (.default m) hv hsigned
  rw [hpos] at hneg
  cases hneg

theorem proposition_negated (hv : (proposition s text).denote m = .value p)
    (hsigned : p.isSigned = true) (hpos : p.polarity = .pos) :
    (proposition s ('~' :: text)).denote m = .value (p.withPolarity .neg) := by
  have hs := unmarked_of_denote (fun _ => proposition_marked) hv hsigned hpos
  have hcall : '(' ∈ text := by
    by_contra hn
    have hunsigned := (proposition_unmarked hs hn).value (.default m) hv
    rw [hsigned] at hunsigned
    cases hunsigned
  exact (proposition_negates hs hcall).value p hv hsigned

/-- Alternatives that no form reads are not read by a form behind the mark either. -/
theorem propositionSet_negated (hd : (proposition s text).denote m = .declined)
    (hv : (propositionSetForm s text).denote m = .value p) (hsigned : p.isSigned = true)
    (hpos : p.polarity = .pos) :
    (proposition s ('~' :: text)).denote m = .declined ∧
      (propositionSetForm s ('~' :: text)).denote m = .value (p.withPolarity .neg) := by
  have hs := unmarked_of_denote
    (fun rest => (propositionSetForm_signed.polarity s rest).mono fun _ h _ => h) hv hsigned hpos
  have hcall : '(' ∈ text := by
    by_contra hn
    rw [propositionSetForm_signed.call s text hs hn] at hv
    cases hv
  constructor
  · exact (proposition_negates hs hcall).declined hd
  · rw [propositionSetForm_signed.negated s text hs hcall, denote_map, hv]

theorem firstOf_rules_negated
    (hv : (Rule.firstOf rules s text).denote m = .value (.proposition p))
    (hsigned : p.isSigned = true) (hpos : p.polarity = .pos) :
    (Rule.firstOf rules s ('~' :: text)).denote m =
      .value (.proposition (p.withPolarity .neg)) := by
  rw [firstOf_rules_marked, denote_orElse, propositionRule, denote_map]
  rcases firstOf_rules_proposition hv with ⟨-, hp⟩ | ⟨-, hresult | ⟨hd, hset⟩⟩
  · rw [proposition_negated hp hsigned hpos]
  · have hunsigned := serviceResult_unsigned.value (.default m) hresult p rfl
    rw [hsigned] at hunsigned
    cases hunsigned
  · rw [propositionSetRule_eq] at hset
    obtain ⟨found, hfound, he⟩ := denote_map_eq_value_iff.mp hset
    obtain rfl := Object.proposition.inj he
    obtain ⟨hdeclined, hnegated⟩ := propositionSet_negated hd hfound hsigned hpos
    rw [hdeclined, denote_orElse, propositionSetRule_eq, denote_map, hnegated]

theorem value?_marked (hnames : ∀ entry ∈ s.ontology.individuals, isWord entry.1 = true)
    (text : Text) : value? s ('~' :: text) = none := by
  rw [Option.eq_none_iff_forall_ne_some]
  intro v hv
  rcases value?_cases hv with ⟨hd, -⟩ | ⟨hd, -⟩ | ⟨_, hq, -⟩ | he | ⟨_, hc, -⟩ | ⟨_, hc, -⟩
  · rw [isDecimal_cons rfl (by decide)] at hd
    cases hd
  · cases hd
  · cases hq
  · obtain ⟨-, sort, hg, -⟩ := enumerated?_eq_some he
    have hw := hnames _ (Table.mem_of_get? hg)
    cases hw
  · cases hc
  · cases hc

theorem firstOf_rules_marked_twice
    (hnames : ∀ entry ∈ s.ontology.individuals, isWord entry.1 = true) :
    Rule.firstOf rules s ('~' :: '~' :: text) = .declined := by
  have hproposition : propositionRule s ('~' :: '~' :: text) = .declined := by
    rw [propositionRule, proposition_marked_twice]
    rfl
  have hset : propositionSetRule s ('~' :: '~' :: text) = .declined := by
    rw [propositionSetRule_eq, propositionSetForm_signed.once]
    rfl
  have hindividual : individualRule s ('~' :: '~' :: text) = .declined := by
    have hsplit : splitPolarity ('~' :: '~' :: text) = (.neg, '~' :: text) := rfl
    simp only [individualRule, individual, hsplit, value?_marked hnames]
    rfl
  have hliteral : Rule.firstOf literalRules s ('~' :: '~' :: text) = .declined := by
    apply Rule.firstOf_of_declined
    intro rule hr
    simp only [literalRules, List.mem_cons, List.not_mem_nil, or_false] at hr
    rcases hr with rfl | rfl | rfl | rfl
    · exact hindividual
    all_goals rfl
  rw [firstOf_rules_marked, hproposition, hset, hliteral]
  rfl

end Grammar

namespace Parser

variable {ontology : Ontology} {config : Config} {p q : Parser}

/-- In every state, the mark before the text of an affirmed proposition negates the proposition and
leaves everything else in it as it was, in all forms that have a negation. Where the individuals of
the ontology have words as names, a second mark makes every text unreadable. -/
theorem parse_negation (hp : Reachable ontology config p) (hq : Reachable ontology config q) :
    (∀ text proposition, (p.parse text).1 = .ok (.proposition proposition) →
        proposition.isSigned = true → proposition.polarity = .pos →
        (q.parse ('~' :: text)).1 = .ok (.proposition (proposition.withPolarity .neg))) ∧
      ((∀ entry ∈ ontology.individuals, isWord entry.1 = true) →
        ∀ text, (q.parse ('~' :: '~' :: text)).1 =
          .error (.through (.noRuleMatched ontology.describe) ['~' :: '~' :: text])) := by
  constructor
  · intro text proposition hv hsigned hpos
    rw [hp.parse_ok_iff] at hv
    rw [hq.parse_ok_iff]
    exact Grammar.firstOf_rules_negated hv hsigned hpos
  · intro hnames text
    apply hq.parse_declined
    rw [Grammar.firstOf_rules_marked_twice hnames]
    rfl

/-- The mark before a predicate with the name of another form, whose argument is negated itself,
before a set of alternatives of which one is negated, and twice before a predicate. -/
theorem parse_negation_goal :
    let city : Sortal := .custom "city"
    let ontology : Ontology :=
      { name := "travel", predicates := [("goal", city), ("visa", .boolean)],
        individuals := [("paris", city)] }
    let p : Parser := ⟨ontology, {}, {}⟩
    let q := (performAll p [.parse "visa", .parse "~visa"]).2
    let goal : Predicate := ⟨"travel", "goal", city⟩
    let visa : Predicate := ⟨"travel", "visa", .boolean⟩
    let paris : Individual := ⟨"travel", .enumerated "paris", city, .neg⟩
    let members : List Proposition :=
      [.predicate visa none .neg, .predicate goal (some paris) .pos]
    (q.parse "~goal(~paris)").1 = .ok (.proposition (.predicate goal (some paris) .neg)) ∧
      (q.parse "~set([~visa, goal(~paris)])").1 = .ok (.proposition (.set members .neg)) ∧
      (q.parse "~~visa()").1 =
        .error (.through (.noRuleMatched "Ontology(travel)") ["~~visa()"]) := by
  intro city ontology p q goal visa paris members
  have hp : Reachable ontology {} p := ⟨[], rfl⟩
  have hq : Reachable ontology {} q := ⟨[.parse "visa", .parse "~visa"], rfl⟩
  have hnames : ∀ entry ∈ ontology.individuals, isWord entry.1 = true := by decide
  have hgoal : (p.parse "goal(~paris)").1 =
      .ok (.proposition (.predicate goal (some paris) .pos)) := rfl
  have hset : (p.parse "set([~visa, goal(~paris)])").1 =
      .ok (.proposition (.set members .pos)) := rfl
  obtain ⟨hnegated, htwice⟩ := parse_negation hp hq
  exact ⟨hnegated _ _ hgoal rfl rfl, hnegated _ _ hset rfl rfl, htwice hnames "visa()"⟩

end Parser

end Parley
