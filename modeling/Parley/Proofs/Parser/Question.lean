import Parley.Proofs.Grammar.Order
import Parley.Proofs.Grammar.Question
import Parley.Proofs.Parser.Session

/-! # Questions and the constructs that hold them

What a question asks is decided by the object behind its mark. The constructs that hold a
question do not read it as an object of its own: they look for the mark and read what
stands behind it. They hold the same question all the same, since the text of a question
is balanced and no rule but theirs comes first.
-/

namespace Parley

/-- The constructs that hold a question. -/
inductive QuestionForm
  | ask
  | findout
  | raise
  | bind
  | respond
  | consultDB
  | resolve
  | resolveUser
  | jumpToResolve
  | goalResolve

namespace QuestionForm

def write : QuestionForm → Text → Text
  | ask, t => Text.call "ask" t
  | findout, t => Text.call "findout" t
  | raise, t => Text.call "raise" t
  | bind, t => Text.call "bind" t
  | respond, t => Text.call "respond" t
  | consultDB, t => Text.call "consultDB" t
  | resolve, t => Text.call "resolve" t
  | resolveUser, t => Text.call "resolve_user" t
  | jumpToResolve, t => Text.call "jumpto" (Text.call "resolve" t)
  | goalResolve, t => Text.call "goal" (Text.call "resolve" t)

def make (domain : Option Text) : QuestionForm → Question → Object
  | ask, q => .move (.ask q) none
  | findout, q => .planItem (.findout domain q)
  | raise, q => .planItem (.raise domain q)
  | bind, q => .planItem (.bind q)
  | respond, q => .planItem (.respond q)
  | consultDB, q => .planItem (.consultDB q)
  | resolve, q => .goal (.resolve q .system)
  | resolveUser, q => .goal (.resolve q .user)
  | jumpToResolve, q => .planItem (.jumpTo (.resolve q .system))
  | goalResolve, q => .proposition (.goal (.resolve q .system) .pos)

end QuestionForm

namespace Grammar

open Reading

variable {m : Meaning} {s : Setting} {text : Text} {q : Question} {o : Object}

/-- Whatever names the individuals have, the object behind the mark decides what is asked. -/
theorem content_of_question (h : (Rule.firstOf rules s ('?' :: text)).denote m =
    .value (.question q)) : ∃ o, m.object text = .ok o ∧ classify o = some q := by
  have hliteral : (Rule.firstOf literalRules s ('?' :: text)).Meets {} (∀ q, · ≠ .question q) := by
    refine .firstOf fun r hr => ?_
    obtain ⟨rule, hrule, rfl⟩ := List.mem_map.mp hr
    exact literalRules_not_question hrule
  rw [firstOf_rules_queried, denote_orElse] at h
  cases hd : (questionRule s ('?' :: text)).denote m with
  | declined =>
    rw [hd] at h
    exact absurd rfl (hliteral.value (.default m) h q)
  | error err =>
    rw [hd] at h
    cases h
  | value found =>
    rw [hd] at h
    obtain rfl := Outcome.value.inj h
    obtain ⟨asked, hasked, ⟨⟩⟩ := denote_map_eq_value_iff.mp hd
    change (readObject text >>= fun content => ofOption (classify content)).denote m = _ at hasked
    obtain ⟨o, ho, hc⟩ := denote_bind_eq_value_iff.mp hasked
    exact ⟨o, denote_readObject_eq_value_iff.mp ho, denote_ofOption_eq_value_iff.mp hc⟩

/-- What a rule for moves or plan items makes of a text that it does not decline is what all rules
make of it. -/
theorem firstOf_rules_denote_eq (rule : Rule) (hr : rule ∈ moveRules ++ planRules)
    (h : (rule s text).denote m ≠ .declined) :
    (Rule.firstOf rules s text).denote m = (rule s text).denote m := by
  have hne : rule s text ≠ .declined := by
    intro hd
    rw [hd] at h
    exact h rfl
  obtain ⟨r, hr⟩ := firstOf_rules_of_ne_declined hr hne
  rw [hr, denote_orElse]
  cases hd : (rule s text).denote m with
  | declined => exact absurd hd h
  | value | error => rfl

theorem firstOf_rules_denote (rule : Rule) (hr : rule ∈ moveRules ++ planRules)
    (h : (rule s text).denote m = .value o) : (Rule.firstOf rules s text).denote m = .value o := by
  rw [firstOf_rules_denote_eq rule hr (by simp [h]), h]

theorem call_denote {α : Type} {keyword : Text} {f : Text → Reading α}
    (hb : isBalanced text = true) :
    (ofOption (call? keyword (Text.call keyword text)) >>= f).denote m = (f text).denote m := by
  rw [call?_call hb]
  rfl

theorem firstOf_rules_questionOf (rule : Rule) {keyword : Text} {f : Question → Object}
    (hr : rule ∈ moveRules ++ planRules)
    (hrule : rule s (Text.call keyword text) =
      questionOf keyword (Text.call keyword text) >>= fun q => return f q)
    (hb : isBalanced text = true) (hq : (question text).denote m = .value q) :
    (Rule.firstOf rules s (Text.call keyword text)).denote m = .value (f q) := by
  apply firstOf_rules_denote rule hr
  rw [hrule, denote_bind, questionOf, call_denote hb, hq]
  rfl

theorem resolveGoal_denote {keyword : Text} {speaker : Speaker} (hb : isBalanced text = true)
    (hq : (question text).denote m = .value q) :
    (resolveGoal keyword speaker (Text.call keyword text)).denote m =
      .value (.resolve q speaker) := by
  rw [resolveGoal, call_denote hb, denote_bind, hq]
  rfl

theorem goal_denote_resolve (hb : isBalanced text = true)
    (hq : (question text).denote m = .value q) :
    (goal s (Text.call "resolve" text)).denote m = .value (.resolve q .system) := by
  rw [goal, firstOf, denote_orElse, resolveGoal_denote hb hq]

theorem goal_denote_resolveUser (hb : isBalanced text = true)
    (hq : (question text).denote m = .value q) :
    (goal s (Text.call "resolve_user" text)).denote m = .value (.resolve q .user) := by
  have hother : resolveGoal "resolve" .system (Text.call "resolve_user" text) = .declined := rfl
  rw [goal, firstOf, hother, firstOf, denote_orElse]
  simp only [denote]
  rw [denote_orElse, resolveGoal_denote hb hq]

/-- The proposition of a goal comes after forms and rules that all decline it. -/
theorem firstOf_rules_goal {inner : Text} {g : Goal} (hb : isBalanced inner = true)
    (hg : (goal s inner).denote m = .value g) :
    (Rule.firstOf rules s (Text.call "goal" inner)).denote m =
      .value (.proposition (.goal g .pos)) := by
  have hopening : Text.opening (Text.call "goal" inner) = (↑"goal", some '(') := by
    rw [Text.call, List.append_assoc]
    exact opening_append_cons rfl rfl
  have hbefore : ∀ rule ∈ moveRules ++ planRules,
      rule s (Text.call "goal" inner) = .declined := by
    intro rule h
    refine declined_of_opening h ?_
    rw [hopening]
    decide
  have hform : (goalProposition s (Text.call "goal" inner)).denote m = .value (.goal g .pos) := by
    change (ofOption (call? "goal" (Text.call "goal" inner)) >>= _).denote m = _
    rw [call_denote hb, denote_bind, hg]
    rfl
  have hproposition : (proposition s (Text.call "goal" inner)).denote m =
      .value (.goal g .pos) := by
    change ((goalProposition s (Text.call "goal" inner)).orElse _ |>.orElse _).denote m = _
    rw [denote_orElse, denote_orElse, hform]
  rw [rules_eq, Rule.firstOf_append_of_declined hbefore]
  -- The rules between them and the one for propositions decline it by its first letter.
  change ((Object.proposition <$> proposition s (Text.call "goal" inner)).orElse _).denote m = _
  rw [denote_orElse, denote_map, hproposition]

theorem firstOf_rules_write (form : QuestionForm) (hb : isBalanced text = true)
    (hq : (question text).denote m = .value q) :
    (Rule.firstOf rules s (form.write text)).denote m =
      .value (form.make s.domainName q) := by
  have hresolve : isBalanced (Text.call "resolve" text) = true :=
    isBalanced_call (not_delimiter_of_all rfl) hb
  cases form with
  | ask =>
    have hrule : askMove s (Text.call "ask" text) =
        questionOf "ask" (Text.call "ask" text) >>= fun q => return .move (.ask q) none :=
      (Reading.bind_assoc ..).symm
    exact firstOf_rules_questionOf askMove (by simp [moveRules]) hrule hb hq
  | findout => exact firstOf_rules_questionOf findout (by simp [planRules]) rfl hb hq
  | raise => exact firstOf_rules_questionOf raise (by simp [planRules]) rfl hb hq
  | bind => exact firstOf_rules_questionOf Grammar.bind (by simp [planRules]) rfl hb hq
  | respond => exact firstOf_rules_questionOf respond (by simp [planRules]) rfl hb hq
  | consultDB => exact firstOf_rules_questionOf consultDB (by simp [planRules]) rfl hb hq
  | resolve =>
    apply firstOf_rules_denote goalRule (by simp [planRules])
    rw [QuestionForm.write, goalRule, denote_map, goal_denote_resolve hb hq]
    rfl
  | resolveUser =>
    apply firstOf_rules_denote goalRule (by simp [planRules])
    rw [QuestionForm.write, goalRule, denote_map, goal_denote_resolveUser hb hq]
    rfl
  | jumpToResolve =>
    apply firstOf_rules_denote jumpTo (by simp [planRules])
    rw [QuestionForm.write, jumpTo, call_denote hresolve, denote_bind, goal_denote_resolve hb hq]
    rfl
  | goalResolve => exact firstOf_rules_goal hresolve (goal_denote_resolve hb hq)

end Grammar

namespace Parser

open Reading

variable {ontology : Ontology} {config : Config} {p q : Parser}

theorem fits_of_object {text : Text} {o : Object}
    (h : (engine ⟨ontology, config, {}⟩).meaning.object text = .ok o) : o.Fits text := by
  have hfirst : (Rule.firstOf Grammar.rules ⟨ontology, config.domainName⟩ text).Meets {}
      (·.Fits text) := by
    refine .firstOf fun r hr => ?_
    obtain ⟨rule, hrule, rfl⟩ := List.mem_map.mp hr
    exact Grammar.rules_fit hrule
  have hgrants := Contract.Grants.default (engine ⟨ontology, config, {}⟩).meaning
  exact hfirst.value hgrants ((engine_descends _).object_eq_ok_iff.mp h)

theorem parse_question_iff (hnames : ∀ entry ∈ ontology.individuals, isWord entry.1 = true)
    (hp : Reachable ontology config p) {text : Text} {asked : Question} :
    (p.parse ('?' :: text)).1 = .ok (.question asked) ↔
      ∃ o, (engine ⟨ontology, config, {}⟩).meaning.object text = .ok o ∧
        Grammar.classify o = some asked := by
  rw [hp.parse_ok_iff, Grammar.firstOf_rules_question hnames, denote]
  cases (engine ⟨ontology, config, {}⟩).meaning.object text with
  | error err => simp
  | ok o =>
    cases hc : Grammar.classify o with
    | none => simp [hc, ofOption, denote_map, denote]
    | some found => simp [hc, ofOption, denote_map, denote]

theorem question_of_content {inner : Text} {o : Object} {asked : Question}
    (ho : (engine ⟨ontology, config, {}⟩).meaning.object inner = .ok o)
    (hc : Grammar.classify o = some asked) :
    isBalanced ('?' :: inner) = true ∧
      (Grammar.question ('?' :: inner)).denote (engine ⟨ontology, config, {}⟩).meaning =
        .value asked := by
  constructor
  · change isBalanced (['?'] ++ inner) = true
    exact ((fits_of_object ho).plain hc).isBalanced_append (not_delimiter_of_all rfl)
  · change (readObject inner >>= fun content => ofOption (Grammar.classify content)).denote _ = _
    rw [denote_bind]
    simp only [readObject, denote, ho, hc]
    rfl

/-- A text that denotes a question is balanced, and is read as the question by the constructs that
look for its mark. -/
theorem question_of_parse (hnames : ∀ entry ∈ ontology.individuals, isWord entry.1 = true)
    (hp : Reachable ontology config p) {text : Text} {asked : Question}
    (h : (p.parse text).1 = .ok (.question asked)) :
    isBalanced text = true ∧
      (Grammar.question text).denote (engine ⟨ontology, config, {}⟩).meaning = .value asked := by
  -- Only a text with a question mark in front can have given a question.
  have hfits := fits_of_object ((hp.continues.parse text).1 ▸ h)
  obtain ⟨inner, rfl⟩ : ∃ inner, text = '?' :: inner := hfits
  obtain ⟨o, ho, hc⟩ := (parse_question_iff hnames hp).mp h
  exact question_of_content ho hc

/-- In every state a question is decided by the object behind its mark, and the constructs around a
text that denotes a question hold this question. -/
theorem parse_question (hnames : ∀ entry ∈ ontology.individuals, isWord entry.1 = true)
    (hp : Reachable ontology config p) (hq : Reachable ontology config q) :
    (∀ text,
      (∀ asked, (p.parse ('?' :: text)).1 = .ok (.question asked) ↔
        ∃ o, (q.parse text).1 = .ok o ∧ Grammar.classify o = some asked) ∧
      (∀ err, (q.parse text).1 = .error err →
        (p.parse ('?' :: text)).1 = .error (err.within ('?' :: text))) ∧
      ∀ o, (q.parse text).1 = .ok o → Grammar.classify o = none →
        (p.parse ('?' :: text)).1 =
          .error (.through (.noRuleMatched ontology.describe) ['?' :: text])) ∧
    ∀ (form : QuestionForm) text asked, (q.parse text).1 = .ok (.question asked) →
      (p.parse (form.write text)).1 = .ok (form.make config.domainName asked) := by
  constructor
  · intro text
    rw [(hq.continues.parse text).1]
    refine ⟨fun asked => parse_question_iff hnames hp, fun err he => ?_, fun o ho hc => ?_⟩
    · refine hp.parse_error ?_
      rw [Grammar.firstOf_rules_question hnames, denote, he]
    · refine hp.parse_declined ?_
      rw [Grammar.firstOf_rules_question hnames, denote, ho]
      simp only [hc]
      rfl
  · intro form text asked h
    obtain ⟨hb, hd⟩ := question_of_parse hnames hq h
    rw [hp.parse_ok_iff]
    exact Grammar.firstOf_rules_write form hb hd

/-- A question about alternatives, the goal to resolve it, and two texts behind a question mark that
make none: an individual, and a word that is not known. -/
theorem parse_question_alternatives :
    let ontology : Ontology :=
      { name := "travel", predicates := [("dest", .custom "city")],
        individuals := [("paris", .custom "city")] }
    let config : Config := { domainName := some "trips" }
    let q : Parser := ⟨ontology, config, {}⟩
    let p := (performAll q [.parse "set([dest(paris)])", .clear, .parse "paris"]).2
    let dest : Predicate := ⟨"travel", "dest", .custom "city"⟩
    let paris : Individual := ⟨"travel", .enumerated "paris", .custom "city", .pos⟩
    let asked : Question := .alternative [.predicate dest (some paris) .pos] .neg
    (p.parse "?~set([dest(paris)])").1 = .ok (.question asked) ∧
      (p.parse "findout(?~set([dest(paris)]))").1 =
        .ok (.planItem (.findout (some "trips") asked)) ∧
      (p.parse "goal(resolve(?~set([dest(paris)])))").1 =
        .ok (.proposition (.goal (.resolve asked .system) .pos)) ∧
      (p.parse "?paris").1 = .error (.through (.noRuleMatched "Ontology(travel)") ["?paris"]) ∧
      (p.parse "?rome").1 =
        .error (.through (.noRuleMatched "Ontology(travel)") ["rome", "?rome"]) := by
  intro ontology config q p dest paris asked
  have hnames : ∀ entry ∈ ontology.individuals, isWord entry.1 = true := by decide
  have hq : Reachable ontology config q := ⟨[], rfl⟩
  have hp : Reachable ontology config p :=
    ⟨[.parse "set([dest(paris)])", .clear, .parse "paris"], rfl⟩
  obtain ⟨hmark, hforms⟩ := parse_question hnames hp hq
  have hset : (q.parse "~set([dest(paris)])").1 =
      .ok (.proposition (.set [.predicate dest (some paris) .pos] .neg)) := rfl
  have hquestion : (q.parse "?~set([dest(paris)])").1 = .ok (.question asked) := rfl
  have hparis : (q.parse "paris").1 = .ok (.individual paris) := rfl
  have hrome : (q.parse "rome").1 =
      .error (.through (.noRuleMatched "Ontology(travel)") ["rome"]) := rfl
  refine ⟨?_, ?_, ?_, ?_, ?_⟩
  · exact ((hmark "~set([dest(paris)])").1 asked).mpr ⟨_, hset, rfl⟩
  · exact hforms .findout "?~set([dest(paris)])" asked hquestion
  · exact hforms .goalResolve "?~set([dest(paris)])" asked hquestion
  · exact (hmark "paris").2.2 _ hparis rfl
  · exact (hmark "rome").2.1 _ hrome

end Parser

end Parley
