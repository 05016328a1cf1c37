import Parley.Proofs.Grammar.Embedded
import Parley.Proofs.Parser.Question
import Parley.Proofs.Surface.Conditional

/-! # Propositions inside plan items

Plan items that assume a proposition, and conditionals, do not read it as an object of its
own: they try the forms of propositions alone. A text that denotes a proposition with a form
gives them this proposition. The result of a service and a set of alternatives have no form,
so that no rule matches a plan item around them.
-/

namespace Parley

/-- The plan items that hold a proposition. A conditional has two empty branches. -/
inductive PropositionForm
  | assume
  | assumeShared
  | conditional

/-- The last places are those behind the condition, whatever the condition holds. -/
theorem ConditionalShape.scan?_empty {condition : Text} (hn : condition ≠ []) :
    scan? ("if " ++ condition ++ " then  else ") = some ⟨condition, [], []⟩ := by
  have hblanks : (" then  else " : Text) = " then" ++ [' '] ++ " else" ++ [' '] := rfl
  refine scan?_eq_some_iff.mpr ⟨hn, ⟨[' '], [' '], ?_, .inl rfl, .inl rfl⟩, by decide, by decide⟩
  rw [hblanks]
  simp only [List.append_assoc]

namespace PropositionForm

def write : PropositionForm → Text → Text
  | assume, t => Text.call "assume" t
  | assumeShared, t => Text.call "assume_shared" t
  | conditional, t => "if " ++ t ++ " then  else "

def make : PropositionForm → Proposition → Object
  | assume, p => .planItem (.assume p)
  | assumeShared, p => .planItem (.assumeShared p)
  | conditional, p => .planItem (.ifThenElse p [] [])

def rule : PropositionForm → Rule
  | assume => Grammar.assume
  | assumeShared => Grammar.assumeShared
  | conditional => Grammar.ifThenElse

def opening : PropositionForm → Text × Option Char
  | assume => ("assume", some '(')
  | assumeShared => ("assume_shared", some '(')
  | conditional => ("if", some ' ')

open Reading Grammar

variable {m : Meaning} {s : Setting} {text : Text} {p : Proposition}

theorem rule_mem_zip (form : PropositionForm) :
    (form.rule, [form.opening]) ∈
      (moveRules ++ planRules).zip (moveOpenings ++ planOpenings) := by
  cases form with
  | assume => exact List.mem_of_getElem? (i := 19) rfl
  | assumeShared => exact List.mem_of_getElem? (i := 20) rfl
  | conditional => exact List.mem_of_getElem? (i := 15) rfl

theorem opening_write (form : PropositionForm) (text : Text) :
    (form.write text).opening = form.opening := by
  cases form with
  | assume | assumeShared => exact opening_call rfl
  | conditional => exact @opening_append_cons "if" (text ++ " then  else ") ' ' rfl rfl

theorem rule_write (form : PropositionForm) (hb : isBalanced text = true) (hn : text ≠ []) :
    form.rule s (form.write text) = readProposition text >>= fun p => return form.make p := by
  cases form with
  | assume =>
    change Grammar.assume s (Text.call "assume" text) = _
    rw [Grammar.assume, propositionOf, call?_call hb]
    rfl
  | assumeShared =>
    change Grammar.assumeShared s (Text.call "assume_shared" text) = _
    rw [Grammar.assumeShared, propositionOf, call?_call hb]
    rfl
  | conditional =>
    change ifThenElse s ("if " ++ text ++ " then  else ") = _
    rw [ifThenElse, ConditionalShape.scan?_empty hn]
    rfl

theorem unread (hnames : ∀ entry ∈ s.ontology.individuals, isWord entry.1 = true)
    (form : PropositionForm) (hb : isBalanced text = true) (hn : text ≠ [])
    (hi : individual s text = .declined) {rule : Rule}
    (hr : rule ∈ questionRule :: (namingRules ++ literalRules)) :
    rule s (form.write text) = .declined := by
  cases form with
  | assume => exact call_unread (by decide) hnames hb hn hi hr
  | assumeShared => exact call_unread (by decide) hnames hb hn hi hr
  | conditional =>
    have hmark : (conditional.write text).mark = some ' ' :=
      congrArg Prod.snd (opening_write conditional text)
    simp only [List.mem_cons, List.mem_append, literalRules, List.not_mem_nil, or_false] at hr
    rcases hr with rfl | hr | rfl | rfl | rfl | rfl
    · exact questionRule_readsOnly s _ (by simp [hmark])
    · refine namingRules_readsOnly hr s _ fun hp => ?_
      have hm := hp.mark_mem
      simp [hmark] at hm
    · rw [individualRule, individual_of_mark hnames (by simp [hmark])]
      rfl
    · rfl
    · rfl
    · rfl

theorem firstOf_rules (form : PropositionForm) (hb : isBalanced text = true) (hn : text ≠ [])
    (hp : m.proposition text = .value p) :
    (Rule.firstOf rules s (form.write text)).denote m = .value (form.make p) := by
  apply firstOf_rules_denote form.rule (List.of_mem_zip form.rule_mem_zip).1
  rw [rule_write form hb hn, readProposition]
  change (Reading.proposition text _).denote m = _
  rw [denote, hp]
  rfl

theorem firstOf_rules_declined
    (hnames : ∀ entry ∈ s.ontology.individuals, isWord entry.1 = true)
    (form : PropositionForm) (hb : isBalanced text = true) (hn : text ≠ [])
    (hp : m.proposition text = .declined) (hi : individual s text = .declined) :
    (Rule.firstOf rules s (form.write text)).denote m = .declined := by
  have hrule : (form.rule s (form.write text)).denote m = .declined := by
    rw [rule_write form hb hn, readProposition]
    change (Reading.proposition text _).denote m = _
    rw [denote, hp]
    rfl
  have hall : ∀ rule ∈ rules, (rule s (form.write text)).denote m = .declined := by
    rw [rules_eq, List.forall_mem_append]
    constructor
    · intro rule hr
      have hopens : (form.write text).Opens [form.opening] :=
        List.mem_singleton.mpr (opening_write form text)
      rcases declined_or_eq form.rule_mem_zip hopens hr with hd | rfl
      · rw [hd]
        rfl
      · exact hrule
    · intro rule hr
      rw [unread hnames form hb hn hi hr]
      rfl
  exact firstOf_denote_declined hall

end PropositionForm

namespace Parser

variable {ontology : Ontology} {config : Config} {p q : Parser}

/-- In every state a plan item around a text that denotes a proposition holds the proposition, if
it has a form; around the result of a service and a set of alternatives, no rule matches it. -/
theorem parse_embedded (hnames : ∀ entry ∈ ontology.individuals, isWord entry.1 = true)
    (hp : Reachable ontology config p) (hq : Reachable ontology config q) (form : PropositionForm)
    {text : Text} {said : Proposition} (h : (q.parse text).1 = .ok (.proposition said)) :
    (said.isFormed = true → (p.parse (form.write text)).1 = .ok (form.make said)) ∧
      (said.isFormed = false → (p.parse (form.write text)).1 =
        .error (.through (.noRuleMatched ontology.describe) [form.write text])) := by
  have hfits := fits_of_object ((hq.continues.parse text).1 ▸ h)
  have hplain : Plain text := hfits
  have hb : isBalanced ([] ++ text) = true := hplain.isBalanced_append (by simp)
  have hn := hplain.ne_nil
  obtain ⟨hformed, hnone⟩ := Grammar.proposition_denote hnames (hq.parse_ok_iff.mp h)
  have hmeaning := (engine_descends ⟨ontology, config, {}⟩).meaning_proposition text
  constructor
  · intro hf
    rw [hp.parse_ok_iff]
    exact form.firstOf_rules hb hn (hmeaning.trans (hformed hf))
  · intro hf
    obtain ⟨hd, hi⟩ := hnone hf
    exact hp.parse_declined (form.firstOf_rules_declined hnames hb hn (hmeaning.trans hd) hi)

/-- A conditional on an implication, the assumption of a proposition about a conditional, and the
assumption of alternatives. -/
theorem parse_embedded_implication :
    let ontology : Ontology :=
      { name := "travel", predicates := [("visa", .boolean), ("abroad", .boolean)] }
    let config : Config := { domainName := some "trips" }
    let q : Parser := ⟨ontology, config, {}⟩
    let p := (performAll q [.parse "visa()", .clear, .parse "~abroad"]).2
    let visa : Proposition := .predicate ⟨"travel", "visa", .boolean⟩ none .pos
    let abroad : Proposition := .predicate ⟨"travel", "abroad", .boolean⟩ none .pos
    let choice : Object := .planItem (.ifThenElse visa [] [])
    (p.parse "if implies(abroad(), visa()) then  else ").1 =
        .ok (.planItem (.ifThenElse (.implication abroad visa) [] [])) ∧
      (p.parse "assume_shared(~und(USR, if visa() then else))").1 =
        .ok (.planItem (.assumeShared (.understanding (some .user) choice .neg))) ∧
      (p.parse "assume(~set(visa(), abroad()))").1 =
        .error
          (.through (.noRuleMatched "Ontology(travel)") ["assume(~set(visa(), abroad()))"]) := by
  intro ontology config q p visa abroad choice
  have hnames : ∀ entry ∈ ontology.individuals, isWord entry.1 = true := by simp [ontology]
  have hq : Reachable ontology config q := ⟨[], rfl⟩
  have hp : Reachable ontology config p := ⟨[.parse "visa()", .clear, .parse "~abroad"], rfl⟩
  have himplies : (q.parse "implies(abroad(), visa())").1 =
      .ok (.proposition (.implication abroad visa)) := rfl
  have hund : (q.parse "~und(USR, if visa() then else)").1 =
      .ok (.proposition (.understanding (some .user) choice .neg)) := rfl
  have hset : (q.parse "~set(visa(), abroad())").1 =
      .ok (.proposition (.set [visa, abroad] .neg)) := rfl
  refine ⟨?_, ?_, ?_⟩
  · exact (parse_embedded hnames hp hq .conditional himplies).1 rfl
  · exact (parse_embedded hnames hp hq .assumeShared hund).1 rfl
  · exact (parse_embedded hnames hp hq .assume hset).2 rfl

/-- The result of a service and a set of alternatives are propositions, and no plan item takes
them. -/
theorem parse_embedded_result :
    let ontology : Ontology := { name := "travel", predicates := [("visa", .boolean)] }
    let q : Parser := ⟨ontology, {}, {}⟩
    let visa : Proposition := .predicate ⟨"travel", "visa", .boolean⟩ none .pos
    (∀ entry ∈ ontology.individuals, isWord entry.1 = true) ∧
      (q.parse "ServiceResultProposition(book, [visa()], SuccessfulServiceAction())").1 =
        .ok (.proposition (.serviceResult "travel" "book" [visa] .successful)) ∧
      (q.parse "assume(ServiceResultProposition(book, [visa()], SuccessfulServiceAction()))").1 =
        .error (.through (.noRuleMatched "Ontology(travel)")
          ["assume(ServiceResultProposition(book, [visa()], SuccessfulServiceAction()))"]) ∧
      (q.parse "set(visa())").1 = .ok (.proposition (.set [visa] .pos)) ∧
      (q.parse "if set(visa()) then  else ").1 =
        .error (.through (.noRuleMatched "Ontology(travel)") ["if set(visa()) then  else "]) := by
  refine ⟨by simp, rfl, rfl, rfl, rfl⟩

end Parser

end Parley
