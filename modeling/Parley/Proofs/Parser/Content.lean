import Parley.Proofs.Grammar.Order
import Parley.Proofs.Parser.Session
import Parley.Proofs.Surface.Call

/-! # Constructs that hold an object

Five constructs hold whatever object the text between their brackets denotes. Each is
read by its own rule alone, also where the ontology has a predicate of the same name,
and an error of the text inside passes through it with one more text in its trail.
-/

namespace Parley

/-- The constructs that hold an object of any kind. -/
inductive ContentForm
  | answer
  | report
  | forget
  | forgetIssue
  | assumeIssue

namespace ContentForm

def keyword : ContentForm → Text
  | answer => "answer"
  | report => "report"
  | forget => "forget"
  | forgetIssue => "forget_issue"
  | assumeIssue => "assume_issue"

def write (form : ContentForm) (text : Text) : Text :=
  Text.call form.keyword text

def make : ContentForm → Object → Object
  | answer, o => .move (.answer o) none
  | report, o => .move (.report o) none
  | forget, o => .planItem (.forget o)
  | forgetIssue, o => .planItem (.forgetIssue o)
  | assumeIssue, o => .planItem (.assumeIssue o)

def rule : ContentForm → Rule
  | answer => Grammar.answerMove
  | report => Grammar.reportMove
  | forget => Grammar.forget
  | forgetIssue => Grammar.forgetIssue
  | assumeIssue => Grammar.assumeIssue

open Reading

variable {s : Setting} {text : Text}

theorem rule_mem (form : ContentForm) : form.rule ∈ Grammar.moveRules ++ Grammar.planRules := by
  cases form <;> simp [rule, Grammar.moveRules, Grammar.planRules]

theorem rule_eq (form : ContentForm) (s : Setting) (text : Text) :
    form.rule s text =
      ofOption (call? form.keyword text) >>= fun inner => form.make <$> readObject inner := by
  cases form with
  | answer | report => rfl
  | forget | forgetIssue | assumeIssue => exact Reading.bind_assoc ..

theorem rule_write (form : ContentForm) (h : isBalanced text = true) :
    form.rule s (form.write text) = .object text fun o => .done (form.make o) := by
  rw [rule_eq, write, call?_call h]
  rfl

theorem rule_write_ne_declined (form : ContentForm) (h : isBalanced text = true) :
    form.rule s (form.write text) ≠ .declined := by
  rw [form.rule_write h]
  rintro ⟨⟩

theorem firstOf_rules (form : ContentForm) (h : isBalanced text = true) :
    Rule.firstOf Grammar.rules s (form.write text) =
      .object text fun o => .done (form.make o) := by
  obtain ⟨r, hr⟩ :=
    Grammar.firstOf_rules_of_ne_declined form.rule_mem (form.rule_write_ne_declined h)
  rw [hr, form.rule_write h]
  rfl

/-- Around a balanced text, no rule but that of the construct has a say. -/
theorem decides (form : ContentForm) (h : isBalanced text = true) :
    Rule.Decides Grammar.rules form.rule s (form.write text) := by
  obtain ⟨before, after, he, hb⟩ :=
    Grammar.exists_before_of_ne_declined form.rule_mem (form.rule_write_ne_declined h)
  refine ⟨before, after, he, fun r hr => Rule.passes_of_eq_declined (hb r hr), ?_⟩
  intro nested cache
  rw [form.rule_write h, run]
  rcases nested.object text cache with ⟨_ | o, cache'⟩ <;> rintro ⟨⟩

end ContentForm

namespace Parser

variable {ontology : Ontology} {config : Config} {p q : Parser}

/-- In every state a construct around a balanced text holds the object of the text, or it fails with
the error of the text, which has the construct as one more text in its trail. No other rule than
that of the construct decides this. -/
theorem parse_content (hp : Reachable ontology config p) (hq : Reachable ontology config q)
    (form : ContentForm) (text : Text) (hb : isBalanced text = true) :
    (∀ o, (q.parse text).1 = .ok o → (p.parse (form.write text)).1 = .ok (form.make o)) ∧
      (∀ err, (q.parse text).1 = .error err →
        (p.parse (form.write text)).1 = .error (err.within (form.write text))) ∧
      Rule.Decides Grammar.rules form.rule ⟨ontology, config.domainName⟩ (form.write text) := by
  rw [(hq.continues.parse text).1]
  refine ⟨fun o ho => ?_, fun err he => ?_, form.decides hb⟩
  · rw [hp.parse_ok_iff, form.firstOf_rules hb]
    simp only [Reading.denote, ho]
  · refine hp.parse_error ?_
    rw [form.firstOf_rules hb]
    simp only [Reading.denote, he]

/-- Constructs around a negated string with a bracket in it and around a word that is not known,
over an ontology with a predicate of the name of a construct. -/
theorem parse_content_report :
    let ontology : Ontology :=
      { name := "travel", predicates := [("report", .string), ("comment", .string)] }
    let config : Config := {}
    let q : Parser := ⟨ontology, config, {}⟩
    let p := (performAll q [.parse "report(\"a\")", .parse "paris"]).2
    let string : Object := .individual ⟨"travel", .string "a) b", .string, .neg⟩
    (p.parse "report(~\"a) b\")").1 = .ok (.move (.report string) none) ∧
      (p.parse "forget_issue(report(paris))").1 =
        .error (.through (.noRuleMatched "Ontology(travel)")
          ["paris", "report(paris)", "forget_issue(report(paris))"]) ∧
      Rule.Decides Grammar.rules Grammar.reportMove ⟨ontology, none⟩ "report(paris)" := by
  intro ontology config q p string
  have hq : Reachable ontology config q := ⟨[], rfl⟩
  have hp : Reachable ontology config p := ⟨[.parse "report(\"a\")", .parse "paris"], rfl⟩
  obtain ⟨hstring, -, -⟩ := parse_content hp hq .report "~\"a) b\"" rfl
  obtain ⟨-, herror, hdecides⟩ := parse_content hq hq .report "paris" rfl
  obtain ⟨-, hforget, -⟩ := parse_content hp hq .forgetIssue "report(paris)" rfl
  exact ⟨hstring string rfl, hforget _ (herror _ rfl), hdecides⟩

end Parser

end Parley
