import Mathlib.Data.Nat.Digits.Defs
import Parley.Proofs.Grammar.Display
import Parley.Proofs.Grammar.Negation
import Parley.Proofs.Parser.Session
import Parley.Proofs.Surface.Management

/-! # Bare words

A few words belong to the constructs of the language. All others are left to the ontology:
no construct is a single word, so that a word is the name of a predicate, of an action or
of an individual, or it is a number. The first of these that applies decides, and a number
that is too large is nothing else.
-/

namespace Parley

/-- The number that a run of digits stands for in the decimal system. -/
def Text.decimalValue (text : Text) : Nat :=
  Nat.ofDigits 10 (text.reverse.map fun c => c.toNat - '0'.toNat)

theorem ofDigitChars_eq_decimalValue (text : Text) :
    Nat.ofDigitChars 10 text 0 = text.decimalValue := by
  rw [Text.decimalValue, Nat.ofDigits_eq_foldr, List.foldr_map, List.foldr_reverse,
    Nat.ofDigitChars_eq_foldl]
  simp only [Nat.cast_id, Nat.add_comm]

theorem digitsBelow?_eq {bound : Nat} {text : Text} (h : isDigits text = true) :
    digitsBelow? bound text =
      if text.decimalValue < bound then some text.decimalValue else none := by
  simp [digitsBelow?, h, ofDigitChars_eq_decimalValue]

theorem Ontology.individual_enumerated {o : Ontology} {name : Text} {sort : Sortal}
    (hg : o.individuals.get? name = some sort) (hs : sort ≠ .string) :
    o.individual (.enumerated name) = .ok ⟨o.name, .enumerated name, sort, .pos⟩ := by
  have hsort : o.sortOf (.enumerated name) = .ok sort := by
    change o.individualSort name = _
    rw [Ontology.individualSort, hg]
  rw [Ontology.individual, hsort]
  change (if _ then _ else _) = _
  rw [if_neg (by simp [hs])]

/-- What a word stands for that belongs to no construct: a predicate, an action, a number below
`2 ^ 63`, or an individual of a sort that is neither that of strings nor that of reals. -/
def Ontology.wordObject? (o : Ontology) (word : Text) : Option Object :=
  match o.predicates.get? word with
  | some sort => some (.predicate ⟨o.name, word, sort⟩)
  | none =>
    if word ∈ o.actions then some (.action ⟨o.name, word⟩)
    else if isDigits word then
      if word.decimalValue < Nat.pow 2 63 then
        some (.individual ⟨o.name, .integer word.decimalValue, .integer, .pos⟩)
      else none
    else
      match o.individuals.get? word with
      | some sort =>
        if sort = .string ∨ sort = .real then none
        else some (.individual ⟨o.name, .enumerated word, sort, .pos⟩)
      | none => none

namespace Grammar

open Reading

variable {s : Setting} {word : Text} {rule : Rule} {form : Form}

def reservedWords : List Text :=
  ["greet", "mute", "unmute", "quit", "thank_you", "thank_you_response", "forget_all",
    "signal_action_completion", "done", "yes", "no"]

theorem splitPolarity_of_isWord (h : isWord word = true) : splitPolarity word = (.pos, word) := by
  apply splitPolarity_of_unmarked
  rintro rest rfl
  exact not_mem_of_isWord h rfl List.mem_cons_self

theorem forms_not_word (h : form ∈ forms) : ReadsOnly (isWord · = false) form := by
  intro s word hw
  rw [Bool.not_eq_false] at hw
  have hcall : '(' ∉ word := not_mem_of_isWord hw rfl
  have hs := splitPolarity_of_isWord hw
  have hplain : ∀ (keyword : Text) {f : Text → Reading Proposition},
      ofOption (call? keyword word) >>= f = .declined := by
    intro keyword f
    rw [call?_of_not_mem hcall]
    rfl
  have hnonempty : ∀ (keyword : Text) {f : Text → Reading Proposition},
      ofOption (nonemptyCall? keyword word) >>= f = .declined := by
    intro keyword f
    rw [nonemptyCall?_of_not_mem hcall]
    rfl
  simp only [forms, List.mem_cons, List.not_mem_nil, or_false] at h
  rcases h with rfl | rfl | rfl | rfl | rfl | rfl | rfl | rfl | rfl | rfl | rfl | rfl
  · exact hnonempty "service_action_terminated"
  · exact hnonempty "service_action_started"
  · exact preconfirmed_signed.call s word hs hcall
  · exact hplain "prereported"
  · exact goalProposition_signed.call s word hs hcall
  · exact hplain "rejected"
  · exact hplain "implies"
  · exact predication_signed.call s word hs hcall
  · exact understanding_signed.call s word hs hcall
  · exact hnonempty "resolved"
  · exact knowledgePrecondition_signed.call s word hs hcall
  · exact hplain "action_status"

theorem proposition_not_word : ReadsOnly (isWord · = false) proposition := by
  intro s word hw
  have hforms := ReadsOnly.firstOf (fun form hf => forms_not_word hf) s word hw
  rw [Bool.not_eq_false] at hw
  have hcall : '(' ∉ word := not_mem_of_isWord hw rfl
  simp only at hforms
  rw [proposition, hforms]
  simp only [orElse, oldSpelling, nonemptyCall?, call?_of_not_mem hcall, Option.filter_none]

theorem moveRules_planRules_word (hw : isWord word = true) (hr : word ∉ reservedWords)
    (h : rule ∈ moveRules ++ planRules) : rule s word = .declined := by
  have hreserved : ∀ opens ∈ moveOpenings ++ planOpenings, ∀ opening ∈ opens,
      opening.2 = none → opening.1 ∈ reservedWords := by
    decide
  apply declined_of_opening h
  intro opens ho hmem
  rw [opening_of_mark_none (mark_of_isWord hw)] at hmem
  exact hr (hreserved opens ho _ hmem rfl)

theorem propositionRules_word (hw : isWord word = true) (hr : word ∉ reservedWords)
    (h : rule ∈ propositionRules) : rule s word = .declined := by
  have hcall : '(' ∉ word := not_mem_of_isWord hw rfl
  have hbetween : between? "X." "(X)" word = none := by
    rw [Option.eq_none_iff_forall_ne_some]
    intro inner hb
    obtain rfl := between?_eq_some_iff.mp hb
    simp at hcall
  simp only [propositionRules, List.mem_cons, List.not_mem_nil, or_false] at h
  rcases h with rfl | rfl | rfl | rfl | rfl | rfl | rfl | rfl | rfl
  · exact questionRule_readsOnly s word (by simp [mark_of_isWord hw])
  · apply if_neg
    rintro rfl
    cases hw
  · rw [lambdaPredicate, hbetween]
    rfl
  · rw [lambdaImplication, call?_of_not_mem hcall]
    rfl
  · rw [serviceResult, call?_of_not_mem hcall]
    rfl
  · apply if_neg
    rintro rfl
    cases hw
  · rw [failedServiceAction, call?_of_not_mem hcall]
    rfl
  · have hdone : word ≠ "done" := by
      rintro rfl
      simp [reservedWords] at hr
    rw [actionStatus, status, if_neg hdone]
    rfl
  · rw [propositionRule, proposition_not_word s word (by simp [hw])]
    rfl

theorem yesNo_word (hr : word ∉ reservedWords) : yesNo s word = .declined := by
  have hyes : word ≠ "yes" := by
    rintro rfl
    simp [reservedWords] at hr
  have hno : word ≠ "no" := by
    rintro rfl
    simp [reservedWords] at hr
  rw [yesNo, if_neg hyes, if_neg hno]

theorem propositionSetRule_word (hw : isWord word = true) :
    propositionSetRule s word = .declined := by
  have hform := propositionSetForm_signed.call s word (splitPolarity_of_isWord hw)
    (not_mem_of_isWord hw rfl)
  rw [propositionSetRule_eq, hform]
  rfl

theorem constructs_word (hw : isWord word = true) (hr : word ∉ reservedWords) :
    ∀ rule ∈ (moveRules ++ planRules) ++ propositionRules ++ [yesNo, propositionSetRule],
      rule s word = .declined := by
  intro rule h
  simp only [List.mem_append, List.mem_cons, List.not_mem_nil, or_false] at h
  rcases h with (h | h) | rfl | rfl
  · exact moveRules_planRules_word hw hr (List.mem_append.mpr h)
  · exact propositionRules_word hw hr h
  · exact yesNo_word hr
  · exact propositionSetRule_word hw

/-- A word but a number has a value only as the name of an individual. -/
theorem value?_word (hw : isWord word = true) (hd : isDigits word = false) :
    value? s word = enumerated? s word := by
  have hpoint : '.' ∉ word := not_mem_of_isWord hw rfl
  have hcall : '(' ∉ word := not_mem_of_isWord hw rfl
  have hquoted : unquote? word = none := unquote?_of_mark (by simp [mark_of_isWord hw])
  rw [value?, isDecimal_of_not_mem hpoint, hd, hquoted]
  simp only [nonemptyCall?_of_not_mem hcall, Bool.false_eq_true, if_false, Option.map_none,
    Option.or_none]

theorem individual_number (hw : isWord word = true) (hd : isDigits word = true) :
    individual s word = ofOption (if word.decimalValue < Nat.pow 2 63 then
      some ⟨s.ontology.name, .integer word.decimalValue, .integer, .pos⟩ else none) := by
  have hvalue : value? s (splitPolarity word).2 =
      (digitsBelow? (Nat.pow 2 63) word).map fun n => .integer n := by
    rw [splitPolarity_of_isWord hw, value?_of_isDigits hd]
  rw [digitsBelow?_eq hd] at hvalue
  split
  · rename_i hlt
    rw [if_pos hlt] at hvalue
    refine individual_eq_done_iff.mpr ⟨hvalue, rfl, ?_⟩
    rw [splitPolarity_of_isWord hw]
  · rename_i hge
    rw [if_neg hge] at hvalue
    exact individual_of_value?_none hvalue

theorem individual_name (hw : isWord word = true) (hd : isDigits word = false) :
    individual s word = ofOption (match s.ontology.individuals.get? word with
      | some sort => if sort = .string ∨ sort = .real then none
          else some ⟨s.ontology.name, .enumerated word, sort, .pos⟩
      | none => none) := by
  have hvalue : value? s (splitPolarity word).2 = enumerated? s word := by
    rw [splitPolarity_of_isWord hw, value?_word hw hd]
  rw [enumerated?, Ontology.individualSort] at hvalue
  cases hg : s.ontology.individuals.get? word with
  | none =>
    rw [hg] at hvalue
    exact individual_of_value?_none hvalue
  | some sort =>
    simp only [hg, Bool.or_eq_true, decide_eq_true_eq] at hvalue ⊢
    split
    · rename_i hsort
      rw [if_pos hsort] at hvalue
      exact individual_of_value?_none hvalue
    · rename_i hsort
      rw [if_neg hsort] at hvalue
      refine individual_eq_done_iff.mpr ⟨hvalue, ?_, ?_⟩
      · exact Ontology.individual_enumerated hg fun he => hsort (.inl he)
      · rw [splitPolarity_of_isWord hw]

theorem firstOf_rules_word (hw : isWord word = true) (hr : word ∉ reservedWords) :
    Rule.firstOf rules s word = ofOption (s.ontology.wordObject? word) := by
  have hrules : rules = ((moveRules ++ planRules) ++ propositionRules ++
      [yesNo, propositionSetRule]) ++ predicateRule :: actionRule :: individualRule ::
        [string, set, sequence] := rfl
  have hcontainers : Rule.firstOf [string, set, sequence] s word = .declined :=
    Rule.firstOf_of_declined fun rule h =>
      containerRules_of_mark (by simp [mark_of_isWord hw]) h
  rw [hrules, Rule.firstOf_append_of_declined (constructs_word hw hr)]
  change (predicateRule s word).orElse ((actionRule s word).orElse ((individualRule s word).orElse
    (Rule.firstOf [string, set, sequence] s word))) = _
  rw [hcontainers, orElse_declined, predicateRule, actionRule, individualRule, predicate, action,
    hw, Ontology.predicate, Ontology.action, Ontology.wordObject?]
  cases hp : s.ontology.predicates.get? word with
  | some sort => rfl
  | none =>
    by_cases ha : word ∈ s.ontology.actions
    · simp only [ha, List.contains_eq_mem, decide_true, if_true]
      rfl
    · simp only [ha, List.contains_eq_mem, decide_false, if_false]
      change Object.individual <$> individual s word = _
      cases hd : isDigits word with
      | true =>
        rw [individual_number hw hd]
        simp only [if_true]
        split <;> rfl
      | false =>
        rw [individual_name hw hd]
        cases hg : s.ontology.individuals.get? word with
        | none => rfl
        | some sort =>
          simp only [Bool.false_eq_true, if_false]
          split <;> rfl

end Grammar

namespace Parser

variable {ontology : Ontology} {config : Config} {p : Parser} {word : Text}

/-- In every state a word that belongs to no construct denotes the predicate with this name, or
else the action, or else the number below `2 ^ 63` that its digits stand for, or else the individual
of a sort that is neither that of strings nor that of reals. No rule matches any other word, a
number that is too large among them, whatever the individuals are. -/
theorem parse_word (hp : Reachable ontology config p) (hw : isWord word = true)
    (hr : word ∉ Grammar.reservedWords) :
    (p.parse word).1 = match ontology.wordObject? word with
      | some o => .ok o
      | none => .error (.through (.noRuleMatched ontology.describe) [word]) := by
  have hread := Grammar.firstOf_rules_word (s := ⟨ontology, config.domainName⟩) hw hr
  cases ho : ontology.wordObject? word with
  | some o =>
    rw [hp.parse_ok_iff, hread, ho]
    rfl
  | none =>
    apply hp.parse_declined
    rw [hread, ho]
    rfl

/-- A predicate that is also an action and an individual, a number with leading zeros and one that
is too large, both also declared as individuals, and names of individuals of two sorts. -/
theorem parse_word_visa :
    let city : Sortal := .custom "city"
    let ontology : Ontology :=
      { name := "travel", predicates := [("visa", .boolean)], actions := ["visa", "book"],
        individuals := [("visa", city), ("007", city), ("9223372036854775808", city),
          ("málaga", city), ("note", .string)] }
    let p : Parser := ⟨ontology, {}, {}⟩
    (p.parse "visa").1 = .ok (.predicate ⟨"travel", "visa", .boolean⟩) ∧
      (p.parse "book").1 = .ok (.action ⟨"travel", "book"⟩) ∧
      (p.parse "007").1 = .ok (.individual ⟨"travel", .integer 7, .integer, .pos⟩) ∧
      (p.parse "9223372036854775808").1 =
        .error (.through (.noRuleMatched "Ontology(travel)") ["9223372036854775808"]) ∧
      (p.parse "málaga").1 = .ok (.individual ⟨"travel", .enumerated "málaga", city, .pos⟩) ∧
      (p.parse "note").1 = .error (.through (.noRuleMatched "Ontology(travel)") ["note"]) := by
  intro city ontology p
  have hp : Reachable ontology {} p := ⟨[], rfl⟩
  refine ⟨?_, ?_, ?_, ?_, ?_, ?_⟩
  · exact parse_word hp rfl (by decide)
  · exact parse_word hp rfl (by decide)
  · exact parse_word hp rfl (by decide)
  · exact parse_word hp rfl (by decide)
  · exact parse_word hp rfl (by decide)
  · exact parse_word hp rfl (by decide)

end Parser

end Parley
