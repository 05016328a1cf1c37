import Parley.Proofs.Grammar.Order
import Parley.Proofs.Surface.Call

/-! # Calls that nothing reads

A call by the keyword of a plan item is no value, and it is no predication unless its
argument is an individual. Where the rule of the keyword declines it, no rule after that
one reads it either. Nothing reads a call by the keyword of a rule whose brackets and
quotes do not match.
-/

namespace Parley.Grammar

open Reading

variable {s : Setting} {keyword inner text : Text} {rule : Rule}

theorem opening_call (hk : keyword.mark = none) :
    (Text.call keyword inner).opening = (keyword, some '(') := by
  rw [Text.call, List.append_assoc]
  exact opening_append_cons hk rfl

theorem mark_call (hk : keyword.mark = none) : (Text.call keyword inner).mark = some '(' :=
  congrArg Prod.snd (opening_call hk)

theorem not_isWord_call (hk : keyword.mark = none) :
    isWord (Text.call keyword inner) ≠ true := by
  intro hw
  cases (mark_call hk).symm.trans (mark_of_isWord hw)

theorem value?_call (hnames : ∀ entry ∈ s.ontology.individuals, isWord entry.1 = true)
    (hk : keyword.mark = none) {v : Value} (h : value? s (Text.call keyword inner) = some v) :
    keyword ∈ [("person_name" : Text), "datetime"] := by
  have hnone : (Text.call keyword inner).mark ≠ none := by simp [mark_call hk]
  have hcall : ∀ {other found : Text}, other.mark = none →
      nonemptyCall? other (Text.call keyword inner) = some found → keyword = other := by
    intro other found ho hc
    have hopens := opens_of_call ho (Option.filter_eq_some_iff.mp hc).1
    rw [Text.Opens, opening_call hk] at hopens
    exact congrArg Prod.fst (List.mem_singleton.mp hopens)
  rcases value?_cases h with ⟨hd, -⟩ | ⟨hd, -⟩ | ⟨found, hq, -⟩ | he | ⟨found, hc, -⟩ |
    ⟨found, hc, -⟩
  · exact absurd (mark_of_isDecimal hd) hnone
  · exact absurd (mark_of_isDigits hd) hnone
  · have hmark := mark_of_unquote hq
    simp [mark_call hk] at hmark
  · obtain ⟨-, sort, hg, -⟩ := enumerated?_eq_some he
    exact absurd (mark_of_isWord (hnames _ (Table.mem_of_get? hg))) hnone
  · simp [hcall rfl hc]
  · simp [hcall rfl hc]

theorem individual_of_call (hnames : ∀ entry ∈ s.ontology.individuals, isWord entry.1 = true)
    (hk : keyword.mark = none) (hne : keyword ∉ [("person_name" : Text), "datetime"])
    (ht : (splitPolarity text).2 = Text.call keyword inner) : individual s text = .declined := by
  apply individual_of_value?_none
  rw [ht, Option.eq_none_iff_forall_ne_some]
  intro v hv
  exact hne (value?_call hnames hk hv)

/-- A call by another keyword, negated or not, is no individual, string or container. -/
theorem literalRules_call (hnames : ∀ entry ∈ s.ontology.individuals, isWord entry.1 = true)
    (hk : keyword.mark = none) (hne : keyword ∉ [("person_name" : Text), "datetime"])
    (ht : (splitPolarity text).2 = Text.call keyword inner) :
    ∀ rule ∈ literalRules, rule s text = .declined := by
  have hindividual : individualRule s text = .declined := by
    rw [individualRule, individual_of_call hnames hk hne ht]
    rfl
  have hmark : text.mark ∈ [none, some '('] := by
    obtain ⟨sign, hs, he⟩ := exists_sign text
    rw [he, ht, mark_append, hs, Option.none_or, mark_call hk]
    simp
  exact List.forall_mem_cons.mpr ⟨hindividual, fun rule hr => containerRules_of_mark hmark hr⟩

theorem cut?_call (hk : keyword.mark = none) :
    Text.cut? '(' (Text.call keyword inner) = some (keyword, inner ++ [')']) := by
  refine Text.cut?_eq_some_iff.mpr ⟨by simp [Text.call], fun hm => ?_⟩
  exact absurd (mark_eq_none_iff.mp hk _ hm) (by decide)

theorem predication_call (hk : keyword.mark = none) (hb : isBalanced inner = true)
    (hs : splitPolarity (Text.call keyword inner) = (.pos, Text.call keyword inner))
    (hn : inner ≠ []) (hi : individual s inner = .declined) :
    predication s (Text.call keyword inner) = .declined := by
  have happlication : application? .pos (Text.call keyword inner) = some (keyword, inner) := by
    rw [application?, cut?_call hk]
    simp [call?_call hb]
  have hargument : ∀ p, argument s p inner = .declined := by
    intro p
    rw [argument, if_neg (by simpa using hn), hi]
    rfl
  simp only [predication, hs, happlication, ofOption]
  change predicate s keyword >>= (fun p => argument s p inner >>= _) = .declined
  simp only [hargument]
  change (predicate s keyword >>= fun _ => .declined) = .declined
  rw [predicate]
  cases isWord keyword <;> cases s.ontology.predicate keyword <;> rfl

theorem predication_of_undeclared (hk : keyword.mark = none)
    (hn : s.ontology.predicates.get? keyword = none)
    (ht : (splitPolarity text).2 = Text.call keyword inner) : predication s text = .declined := by
  have hpredicate : predicate s keyword = .declined := by
    rw [predicate, Ontology.predicate, hn]
    cases isWord keyword <;> rfl
  simp only [predication, application?, ht, cut?_call hk]
  cases call? keyword (Text.call keyword inner) with
  | none => rfl
  | some found =>
    change (predicate s keyword >>= _ : Reading Proposition) = _
    rw [hpredicate]
    rfl

theorem nameRules_call (hk : keyword.mark = none) (hr : rule ∈ [predicateRule, actionRule]) :
    rule s (Text.call keyword inner) = .declined := by
  have hword : isWord (Text.call keyword inner) = false :=
    Bool.eq_false_iff.mpr (not_isWord_call hk)
  rcases List.mem_pair.mp hr with rfl | rfl
  · rw [predicateRule, predicate, hword]
    rfl
  · rw [actionRule, action, hword]
    rfl

/-- What else than a proposition, a set of alternatives or a literal a call can be is told by its
keyword. -/
theorem firstOf_rules_call (hk : keyword.mark = none)
    (hopens : ∀ opens ∈ moveOpenings ++ planOpenings, (keyword, some '(') ∉ opens)
    (h : ∀ rule ∈ propositionRules.dropLast ++ [yesNo],
      rule s (Text.call keyword inner) = .declined) :
    Rule.firstOf rules s (Text.call keyword inner) =
      (propositionRule s (Text.call keyword inner)).orElse
        ((propositionSetRule s (Text.call keyword inner)).orElse
          (Rule.firstOf literalRules s (Text.call keyword inner))) := by
  rw [List.forall_mem_append, List.forall_mem_singleton] at h
  apply firstOf_rules_of_declined
  · intro rule hr
    apply declined_of_opening hr
    rw [opening_call hk]
    exact hopens
  · refine List.forall_mem_append.mpr ⟨h.1, ?_⟩
    simp only [List.mem_cons, List.not_mem_nil, or_false]
    rintro rule (rfl | rfl | rfl)
    · exact h.2
    · exact nameRules_call hk (by simp)
    · exact nameRules_call hk (by simp)

section Unbalanced

variable (hk : keyword.mark = none) (hb : isBalanced inner = false)

include hb

theorem call?_of_unbalanced : call? keyword (Text.call keyword inner) = none := by
  rw [Option.eq_none_iff_forall_ne_some]
  intro found hc
  obtain ⟨he, hfound⟩ := call?_eq_some_iff.mp hc
  obtain rfl : inner = found := by simpa [Text.call] using he
  cases hb.symm.trans hfound

include hk

theorem not_plain_of_unbalanced : ¬ Plain (Text.call keyword inner) := by
  intro hp
  rw [Text.call, List.append_assoc] at hp
  obtain ⟨-, found, he, hfound⟩ := Plain.of_mark hk rfl hp
  obtain rfl : inner = found := by simpa using he
  cases hb.symm.trans hfound

/-- The rule that reads calls by the keyword finds none here, and no other rule is left. -/
theorem firstOf_rules_unbalanced {reader : Rule} {f : Text → Reading Object}
    (hnames : ∀ entry ∈ s.ontology.individuals, isWord entry.1 = true)
    (hreader : (reader, [(keyword, some '(')]) ∈
      (moveRules ++ planRules).zip (moveOpenings ++ planOpenings))
    (hform : ∀ text, reader s text = ofOption (call? keyword text) >>= f)
    (hne : keyword ∉ [("person_name" : Text), "datetime"])
    (hs : splitPolarity (Text.call keyword inner) = (.pos, Text.call keyword inner)) :
    Rule.firstOf rules s (Text.call keyword inner) = .declined := by
  have hopens : (Text.call keyword inner).Opens [(keyword, some '(')] :=
    List.mem_singleton.mpr (opening_call hk)
  rw [rules_eq]
  apply Rule.firstOf_of_declined
  refine List.forall_mem_append.mpr ⟨fun rule hr => ?_, List.forall_mem_cons.mpr ⟨?_,
    List.forall_mem_append.mpr ⟨fun rule hr => ?_,
      literalRules_call hnames hk hne (congrArg Prod.snd hs)⟩⟩⟩
  · rcases declined_or_eq hreader hopens hr with hd | rfl
    · exact hd
    · rw [hform, call?_of_unbalanced hb]
      rfl
  · exact questionRule_readsOnly s _ (by simp [mark_call hk])
  · exact namingRules_readsOnly hr s _ (not_plain_of_unbalanced hk hb)

end Unbalanced

/-- The keywords of plan items that decline some texts of their form. -/
def decliningKeywords : List Text :=
  ["assume", "assume_shared", "invoke_service_query", "dev_query"]

section Declining

variable (hk : keyword ∈ decliningKeywords)

include hk

theorem mark_of_mem_decliningKeywords : keyword.mark = none := by
  simp only [decliningKeywords, List.mem_cons, List.not_mem_nil, or_false] at hk
  rcases hk with rfl | rfl | rfl | rfl <;> rfl

theorem splitPolarity_declining (inner : Text) :
    splitPolarity (Text.call keyword inner) = (.pos, Text.call keyword inner) := by
  simp only [decliningKeywords, List.mem_cons, List.not_mem_nil, or_false] at hk
  rcases hk with rfl | rfl | rfl | rfl <;> rfl

/-- Of the forms of propositions, only that of predications is not told apart by its keyword. -/
theorem proposition_declining :
    proposition s (Text.call keyword inner) =
      ((predication s (Text.call keyword inner)).orElse .declined).orElse .declined := by
  simp only [decliningKeywords, List.mem_cons, List.not_mem_nil, or_false] at hk
  rcases hk with rfl | rfl | rfl | rfl <;> rfl

/-- No rule after those for moves and plan items reads a call by one of the keywords whose argument
is no individual. -/
theorem call_unread (hnames : ∀ entry ∈ s.ontology.individuals, isWord entry.1 = true)
    (hb : isBalanced inner = true) (hn : inner ≠ []) (hi : individual s inner = .declined)
    (hr : rule ∈ questionRule :: (namingRules ++ literalRules)) :
    rule s (Text.call keyword inner) = .declined := by
  have hm := mark_of_mem_decliningKeywords hk
  have hs := splitPolarity_declining hk inner
  have hproposition : propositionRule s (Text.call keyword inner) = .declined := by
    rw [propositionRule, proposition_declining hk, predication_call hm hb hs hn hi]
    rfl
  have hpredicate : predicateRule s (Text.call keyword inner) = .declined :=
    nameRules_call hm (by simp)
  have haction : actionRule s (Text.call keyword inner) = .declined := nameRules_call hm (by simp)
  have hliteral : ∀ rule ∈ literalRules, rule s (Text.call keyword inner) = .declined := by
    have hne : ∀ k ∈ decliningKeywords, k ∉ [("person_name" : Text), "datetime"] := by decide
    exact literalRules_call hnames hm (hne _ hk) (congrArg Prod.snd hs)
  rw [← List.cons_append, List.mem_append] at hr
  rcases hr with hr | hr
  · simp only [namingRules, propositionRules, List.tail_cons, List.mem_append, List.mem_cons,
      List.not_mem_nil, or_false] at hr
    simp only [decliningKeywords, List.mem_cons, List.not_mem_nil, or_false] at hk
    rcases hr with rfl | (rfl | rfl | rfl | rfl | rfl | rfl | rfl | rfl) | rfl | rfl | rfl | rfl
    -- What is left is told apart by its first letters.
    all_goals first
      | assumption
      | rcases hk with rfl | rfl | rfl | rfl <;> rfl
  · exact hliteral rule hr

end Declining

end Parley.Grammar
