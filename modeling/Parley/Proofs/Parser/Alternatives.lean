import Parley.Proofs.Parser.Listing
import Parley.Proofs.Parser.Negation

/-! # The brackets of alternatives

The list of propositions in `set(..)` may stand between brackets or not. Only one pair of
brackets is taken off, and without a look at what they enclose, so that a list which itself
starts with one and ends with one must have them. Otherwise both spellings are read alike:
they are the same set, or fail for the same reason.
-/

namespace Parley

theorem bracketed?_eq_none {text : Text}
    (h : ¬ (text.head? = some '[' ∧ text.getLast? = some ']')) : bracketed? text = none := by
  rw [Option.eq_none_iff_forall_ne_some]
  intro inner hb
  obtain rfl := bracketed?_eq_some_iff.mp hb
  exact h ⟨rfl, List.getLast?_concat⟩

namespace Grammar

open Reading

variable {m : Meaning} {s : Setting} {inner : Text} {said : List Proposition}

theorem alternativesIn_of_not_bracketed (h : bracketed? inner = none) :
    alternativesIn inner =
      (guard (!inner.isBlankText) >>= fun _ => items readProposition inner) := by
  rw [alternativesIn, h]
  rfl

theorem alternativesIn_denote_iff (h : bracketed? inner = none) :
    (alternativesIn inner).denote m = .value said ↔ inner.isBlankText = false ∧
      List.Forall₂ (fun item p => m.proposition item = .value p) (splitTopLevel ',' inner)
        said := by
  rw [alternativesIn_of_not_bracketed h]
  cases inner.isBlankText with
  | true =>
    change denote m .declined = _ ↔ _
    simp [denote]
  | false =>
    change (items readProposition inner).denote m = _ ↔ _
    simp only [items, denote_each_eq_value_iff, denote_readProposition, true_and]

theorem firstOf_rules_set (hnames : ∀ entry ∈ s.ontology.individuals, isWord entry.1 = true)
    (hs : s.ontology.predicates.get? "set" = none) (polarity : Polarity)
    (hb : isBalanced inner = true) :
    Rule.firstOf rules s (polarity.mark ++ Text.call "set" inner) =
      (fun members => .proposition (.set members polarity)) <$> alternativesIn inner := by
  have hrules : Rule.firstOf rules s (polarity.mark ++ Text.call "set" inner) =
      (propositionRule s (polarity.mark ++ Text.call "set" inner)).orElse
        ((propositionSetRule s (polarity.mark ++ Text.call "set" inner)).orElse
          (Rule.firstOf literalRules s (polarity.mark ++ Text.call "set" inner))) := by
    cases polarity with
    | pos => exact firstOf_rules_listing (by simp [listKeywords]) s inner
    | neg => exact firstOf_rules_marked
  have hsplit : (splitPolarity (polarity.mark ++ Text.call "set" inner)).2 =
      Text.call "set" inner := by
    cases polarity <;> rfl
  have hliteral : Rule.firstOf literalRules s (polarity.mark ++ Text.call "set" inner) =
      .declined :=
    Rule.firstOf_of_declined (literalRules_call hnames rfl (by decide) hsplit)
  rw [hrules, propositionRule_alternatives hs, hliteral, orElse_declined,
    propositionSetRule_alternatives polarity hb]
  rfl

end Grammar

namespace Parser

open Reading

variable {ontology : Ontology} {config : Config} {p q : Parser}

/-- Two texts of which the rules make the same denote the same object, or fail with the same cause
and the same trail up to the texts themselves. -/
theorem parse_of_same_reading {text text' : Text} (hp : Reachable ontology config p)
    (hq : Reachable ontology config q)
    (h : Rule.firstOf Grammar.rules ⟨ontology, config.domainName⟩ text =
      Rule.firstOf Grammar.rules ⟨ontology, config.domainName⟩ text') :
    (∃ o, (p.parse text).1 = .ok o ∧ (q.parse text').1 = .ok o) ∨
      ∃ err : GrammarError, (p.parse text).1 = .error (err.within text) ∧
        (q.parse text').1 = .error (err.within text') := by
  cases hd : (Rule.firstOf Grammar.rules ⟨ontology, config.domainName⟩ text).denote
      (engine ⟨ontology, config, {}⟩).meaning with
  | value o => exact .inl ⟨o, hp.parse_ok_iff.mpr hd, hq.parse_ok_iff.mpr (h ▸ hd)⟩
  | declined => exact .inr ⟨{ cause := _ }, hp.parse_declined hd, hq.parse_declined (h ▸ hd)⟩
  | error err => exact .inr ⟨err, hp.parse_error hd, hq.parse_error (h ▸ hd)⟩

/-- Where there is no predicate `set` and individuals have words as names, the brackets in
`set([..])` and `~set([..])` may be left out around every balanced text that does not itself start
and end with brackets: in every state both spellings denote the same alternatives, which are what
the items of the text denote, or both fail with the same cause and the same trail inside them. -/
theorem parse_alternatives (hnames : ∀ entry ∈ ontology.individuals, isWord entry.1 = true)
    (hs : ontology.predicates.get? "set" = none) (hp : Reachable ontology config p)
    (hq : Reachable ontology config q) (polarity : Polarity) (inner : Text)
    (hb : isBalanced inner = true)
    (hi : ¬ (inner.head? = some '[' ∧ inner.getLast? = some ']')) :
    let bare := polarity.mark ++ Text.call "set" inner
    let bracketed := polarity.mark ++ Text.call "set" ('[' :: inner ++ [']'])
    (∀ members, (p.parse bare).1 = .ok (.proposition (.set members polarity)) ↔
      inner.isBlankText = false ∧ List.Forall₂ p.Accepts (splitTopLevel ',' inner) members) ∧
    ((∃ members, (p.parse bare).1 = .ok (.proposition (.set members polarity)) ∧
        (q.parse bracketed).1 = .ok (.proposition (.set members polarity))) ∨
      ∃ err : GrammarError, (p.parse bare).1 = .error (err.within bare) ∧
        (q.parse bracketed).1 = .error (err.within bracketed)) := by
  intro bare bracketed
  have hnone : bracketed? inner = none := bracketed?_eq_none hi
  have hbalanced : isBalanced ('[' :: inner ++ [']']) = true :=
    isBalanced_enclosed [] (by simp) (by simp) hb
  have hbare := Grammar.firstOf_rules_set (s := ⟨ontology, config.domainName⟩) hnames hs polarity hb
  have hbracketed := Grammar.firstOf_rules_set (s := ⟨ontology, config.domainName⟩) hnames hs
    polarity hbalanced
  rw [Grammar.alternativesIn_bracketed,
    ← Grammar.alternativesIn_of_not_bracketed hnone] at hbracketed
  constructor
  · intro members
    have haccepts : p.Accepts = fun item said =>
        (engine ⟨ontology, config, {}⟩).meaning.proposition item = .value said :=
      funext₂ fun item said => propext hp.continues.accepts_iff
    rw [haccepts, ← Grammar.alternativesIn_denote_iff hnone, hp.parse_ok_iff, hbare,
      denote_map_eq_value_iff]
    simp
  · rcases parse_of_same_reading hp hq (hbare.trans hbracketed.symm) with ⟨o, ho, ho'⟩ | herror
    · have hmade := ho
      rw [hp.parse_ok_iff, hbare, denote_map_eq_value_iff] at hmade
      obtain ⟨members, -, rfl⟩ := hmade
      exact .inl ⟨members, ho, ho'⟩
    · exact .inr herror

/-- Negated alternatives, and a list that ends with a bracket and fails inside its first item. -/
theorem parse_alternatives_visa :
    let ontology : Ontology := { name := "travel", predicates := [("visa", .boolean)] }
    let p : Parser := ⟨ontology, {}, {}⟩
    let q := (performAll p [.parse "visa()", .parse "set(visa())"]).2
    let visa : Predicate := ⟨"travel", "visa", .boolean⟩
    let members : List Proposition := [.predicate visa none .pos, .predicate visa none .neg]
    ((p.parse "~set(visa(), ~visa)").1 = .ok (.proposition (.set members .neg)) ∧
        (q.parse "~set([visa(), ~visa])").1 = .ok (.proposition (.set members .neg))) ∧
      (p.parse "set(resolved(rome), [visa])").1 =
        .error (.through (.noRuleMatched "Ontology(travel)")
          ["rome", "set(resolved(rome), [visa])"]) ∧
      (q.parse "set([resolved(rome), [visa]])").1 =
        .error (.through (.noRuleMatched "Ontology(travel)")
          ["rome", "set([resolved(rome), [visa]])"]) := by
  intro ontology p q visa members
  have hp : Reachable ontology {} p := ⟨[], rfl⟩
  have hq : Reachable ontology {} q := ⟨[.parse "visa()", .parse "set(visa())"], rfl⟩
  have hnames : ∀ entry ∈ ontology.individuals, isWord entry.1 = true := by simp [ontology]
  obtain ⟨hread, hsame⟩ := parse_alternatives hnames rfl hp hq .neg "visa(), ~visa" (by decide)
    (by decide)
  obtain ⟨-, hsame'⟩ := parse_alternatives hnames rfl hp hq .pos "resolved(rome), [visa]"
    (by decide) (by decide)
  have hbare : (p.parse "~set(visa(), ~visa)").1 = .ok (.proposition (.set members .neg)) :=
    (hread members).mpr ⟨rfl, .cons rfl (.cons rfl .nil)⟩
  have hfails : (p.parse "set(resolved(rome), [visa])").1 =
      .error (.through (.noRuleMatched "Ontology(travel)")
        ["rome", "set(resolved(rome), [visa])"]) := rfl
  constructor
  · rcases hsame with ⟨found, hfound, hbracketed⟩ | ⟨err, herror, -⟩
    · cases hbare.symm.trans hfound
      exact ⟨hbare, hbracketed⟩
    · cases hbare.symm.trans herror
  · rcases hsame' with ⟨found, hfound, -⟩ | ⟨err, herror, hbracketed⟩
    · cases hfails.symm.trans hfound
    · injection hfails.symm.trans herror with he
      injection he with hcause htrail
      have hinner : [("rome" : Text)] = err.trail := List.append_cancel_right htrail
      refine ⟨hfails, hbracketed.trans ?_⟩
      rw [GrammarError.within, ← hcause, ← hinner]
      rfl

end Parser

end Parley
