import Parley.Proofs.Grammar.Unread
import Parley.Proofs.Parser.Question

/-! # Old spellings of goals

Goals were once written `action(..)` and `issue(..)`. These spellings fail, and the error
suggests the spelling of today, made from the text between the brackets as it stands. The
suggestion holds what it promises: it is read as the goal to perform the action, or to
resolve the question.
-/

namespace Parley

namespace Grammar

open Reading

variable {m : Meaning} {s : Setting} {keyword inner name : Text} {cause : Cause}

def oldKeywords : List Text :=
  ["action", "issue"]

/-- Where a keyword is the name of no predicate, nothing comes before the objection to the old
spelling. -/
theorem firstOf_rules_old (hk : keyword ∈ oldKeywords)
    (hn : s.ontology.predicates.get? keyword = none)
    (ho : oldSpelling (Text.call keyword inner) = .failed cause) :
    Rule.firstOf rules s (Text.call keyword inner) = .failed cause := by
  have hmark : ∀ k ∈ oldKeywords, Text.mark k = none := by decide
  have hopenings : ∀ k ∈ oldKeywords, ∀ opens ∈ moveOpenings ++ planOpenings,
      (k, some '(') ∉ opens := by
    decide
  have hsplit : (splitPolarity (Text.call keyword inner)).2 = Text.call keyword inner := by
    simp only [oldKeywords, List.mem_cons, List.not_mem_nil, or_false] at hk
    rcases hk with rfl | rfl <;> rfl
  have hforms : proposition s (Text.call keyword inner) =
      ((predication s (Text.call keyword inner)).orElse .declined).orElse
        (oldSpelling (Text.call keyword inner)) := by
    simp only [oldKeywords, List.mem_cons, List.not_mem_nil, or_false] at hk
    rcases hk with rfl | rfl <;> rfl
  have hproposition : propositionRule s (Text.call keyword inner) = .failed cause := by
    rw [propositionRule, hforms, predication_of_undeclared (hmark keyword hk) hn hsplit, ho]
    rfl
  rw [firstOf_rules_call (hmark keyword hk) (hopenings keyword hk), hproposition]
  · rfl
  · simp only [propositionRules, List.dropLast, List.cons_append, List.nil_append, List.mem_cons,
      List.not_mem_nil, or_false]
    simp only [oldKeywords, List.mem_cons, List.not_mem_nil, or_false] at hk
    -- The keywords are told apart from those of the rules by their first letters.
    rcases hk with rfl | rfl <;>
      rintro rule (rfl | rfl | rfl | rfl | rfl | rfl | rfl | rfl | rfl) <;> rfl

theorem isBalanced_of_isWord (hw : isWord name = true) : isBalanced name = true :=
  isBalanced_of_not_delimiter (not_delimiter_of_mark (mark_of_isWord hw))

theorem oldSpelling_action (hw : isWord name = true) :
    oldSpelling (Text.call "action" name) = .failed (.deprecated (Text.call "action" name)
      (Text.call "goal" (Text.call "perform" name)) "proposition") := by
  have hsuggestion : Text.concat ["goal(perform(", name, "))"] =
      Text.call "goal" (Text.call "perform" name) := by
    simp [Text.concat, Text.call]
  rw [oldSpelling, call?_call (isBalanced_of_isWord hw), Option.filter_some, if_pos hw,
    ← hsuggestion]

theorem oldSpelling_issue (hb : isBalanced inner = true) (hn : inner ≠ []) :
    oldSpelling (Text.call "issue" inner) = .failed (.deprecated (Text.call "issue" inner)
      (Text.call "goal" (Text.call "resolve" inner)) "proposition") := by
  have hsuggestion : Text.concat ["goal(resolve(", inner, "))"] =
      Text.call "goal" (Text.call "resolve" inner) := by
    simp [Text.concat, Text.call]
  have haction : call? "action" (Text.call "issue" inner) = none := rfl
  have hissue : nonemptyCall? "issue" (Text.call "issue" inner) = some inner := by
    simp [nonemptyCall?, call?_call hb, hn]
  rw [oldSpelling, haction, Option.filter_none, hissue, ← hsuggestion]

theorem goal_denote_perform (hw : isWord name = true) (ha : name ∈ s.ontology.actions) :
    (goal s (Text.call "perform" name)).denote m = .value (.perform ⟨s.ontology.name, name⟩) := by
  have hgoal : goal s (Text.call "perform" name) =
      (performGoal s (Text.call "perform" name)).orElse .declined := rfl
  rw [hgoal, orElse_declined, performGoal, call_denote (isBalanced_of_isWord hw), action, hw,
    Ontology.action]
  simp only [List.contains_eq_mem, ha, decide_true, if_true]
  rfl

end Grammar

namespace Parser

open Reading

variable {ontology : Ontology} {config : Config} {p q : Parser}

theorem parse_old {keyword inner text : Text} {g : Goal} (hk : keyword ∈ Grammar.oldKeywords)
    (hn : ontology.predicates.get? keyword = none) (hp : Reachable ontology config p)
    (hq : Reachable ontology config q)
    (ho : Grammar.oldSpelling (Text.call keyword inner) =
      .failed (.deprecated (Text.call keyword inner) (Text.call "goal" text) "proposition"))
    (hb : isBalanced text = true)
    (hg : (Grammar.goal ⟨ontology, config.domainName⟩ text).denote
      (engine ⟨ontology, config, {}⟩).meaning = .value g) :
    ∃ suggestion,
      (p.parse (Text.call keyword inner)).1 =
        .error (.through (.deprecated (Text.call keyword inner) suggestion "proposition")
          [Text.call keyword inner]) ∧
      (q.parse suggestion).1 = .ok (.proposition (.goal g .pos)) := by
  refine ⟨Text.call "goal" text, ?_, ?_⟩
  · have hfails : (Rule.firstOf Grammar.rules ⟨ontology, config.domainName⟩
        (Text.call keyword inner)).denote (engine ⟨ontology, config, {}⟩).meaning =
        .error
          { cause :=
              .deprecated (Text.call keyword inner) (Text.call "goal" text) "proposition" } := by
      rw [Grammar.firstOf_rules_old hk hn ho]
      rfl
    exact hp.parse_error hfails
  · rw [hq.parse_ok_iff]
    exact Grammar.firstOf_rules_goal hb hg

/-- Where there is no predicate `action` or `issue`, in every state the old spelling of a goal to
perform an action, or to resolve a question, fails as deprecated, and what the error suggests
denotes this goal, affirmed. -/
theorem parse_deprecated (haction : ontology.predicates.get? "action" = none)
    (hissue : ontology.predicates.get? "issue" = none) (hp : Reachable ontology config p)
    (hq : Reachable ontology config q) :
    (∀ name ∈ ontology.actions, isWord name = true → ∃ suggestion,
      (p.parse (Text.call "action" name)).1 =
        .error (.through (.deprecated (Text.call "action" name) suggestion "proposition")
          [Text.call "action" name]) ∧
      (q.parse suggestion).1 =
        .ok (.proposition (.goal (.perform ⟨ontology.name, name⟩) .pos))) ∧
    ∀ text asked, (p.parse text).1 = .ok (.question asked) → ∃ suggestion,
      (p.parse (Text.call "issue" text)).1 =
        .error (.through (.deprecated (Text.call "issue" text) suggestion "proposition")
          [Text.call "issue" text]) ∧
      (q.parse suggestion).1 = .ok (.proposition (.goal (.resolve asked .system) .pos)) := by
  constructor
  · intro name ha hw
    have hb : isBalanced (Text.call "perform" name) = true :=
      isBalanced_call (not_delimiter_of_all rfl) (Grammar.isBalanced_of_isWord hw)
    exact parse_old (by simp [Grammar.oldKeywords]) haction hp hq (Grammar.oldSpelling_action hw) hb
      (Grammar.goal_denote_perform hw ha)
  · intro text asked h
    have hfits := fits_of_object ((hp.continues.parse text).1 ▸ h)
    obtain ⟨inner, rfl⟩ : ∃ inner, text = '?' :: inner := hfits
    obtain ⟨o, ho, hc⟩ := Grammar.content_of_question (hp.parse_ok_iff.mp h)
    obtain ⟨hb, hd⟩ := question_of_content ho hc
    have hresolve : isBalanced (Text.call "resolve" ('?' :: inner)) = true :=
      isBalanced_call (not_delimiter_of_all rfl) hb
    exact parse_old (by simp [Grammar.oldKeywords]) hissue hp hq
      (Grammar.oldSpelling_issue hb (List.cons_ne_nil _ _)) hresolve
      (Grammar.goal_denote_resolve hb hd)

/-- The old spellings of performing an action and of resolving a question about alternatives, where
the text of another question is also the name of an individual. -/
theorem parse_deprecated_book :
    let ontology : Ontology :=
      { name := "travel", predicates := [("visa", .boolean)], actions := ["book"],
        individuals := [("?visa", .custom "city")] }
    let p : Parser := ⟨ontology, {}, {}⟩
    let q := (performAll p [.parse "action(book)", .clear, .parse "?visa"]).2
    let visa : Proposition := .predicate ⟨"travel", "visa", .boolean⟩ none .pos
    (∃ suggestion,
      (p.parse "action(book)").1 =
        .error (.through (.deprecated "action(book)" suggestion "proposition") ["action(book)"]) ∧
      (q.parse suggestion).1 = .ok (.proposition (.goal (.perform ⟨"travel", "book"⟩) .pos))) ∧
    (∃ suggestion,
      (p.parse "issue(?visa)").1 =
        .error (.through (.deprecated "issue(?visa)" suggestion "proposition") ["issue(?visa)"]) ∧
      (q.parse suggestion).1 =
        .ok (.proposition (.goal (.resolve (.yesNo visa) .system) .pos))) ∧
    ∃ suggestion,
      (p.parse "issue(?~set(visa(), visa()))").1 =
        .error (.through (.deprecated "issue(?~set(visa(), visa()))" suggestion "proposition")
          ["issue(?~set(visa(), visa()))"]) ∧
      (q.parse suggestion).1 =
        .ok (.proposition (.goal (.resolve (.alternative [visa, visa] .neg) .system) .pos)) := by
  intro ontology p q visa
  have hp : Reachable ontology {} p := ⟨[], rfl⟩
  have hq : Reachable ontology {} q := ⟨[.parse "action(book)", .clear, .parse "?visa"], rfl⟩
  obtain ⟨hperform, hresolve⟩ := parse_deprecated rfl rfl hp hq
  refine ⟨?_, ?_, ?_⟩
  · exact hperform "book" (by simp [ontology]) rfl
  · exact hresolve "?visa" (.yesNo visa) rfl
  · exact hresolve "?~set(visa(), visa())" (.alternative [visa, visa] .neg) rfl

end Parser

end Parley
