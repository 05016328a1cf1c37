import Parley.Proofs.Parser.Boundary
import Parley.Proofs.Parser.Container
import Parley.Proofs.Parser.Content

/-! # Quotations

A quotation is read in two places: the grammar of values takes the sign of negation away
and then the quotes, and the scanner of brackets and quotes passes over what stands
between them. Both see the same quotes where these are double or where no sign stands
before them. After a sign the scanner takes an apostrophe for a letter, and then the
commas and brackets of the quotation count as if no quotes stood around them.
-/

namespace Parley

structure Quotation where
  polarity : Polarity
  quote : Char
  inner : Text
  quote_mem : quote ∈ ['"', '\'']
  not_mem : quote ∉ inner

namespace Quotation

open Nesting

variable (v : Quotation)

def body : Text :=
  v.quote :: (v.inner ++ [v.quote])

def written : Text :=
  v.polarity.mark ++ v.body

theorem quote_cases : v.quote = '"' ∨ v.quote = '\'' := by
  simpa using v.quote_mem

theorem isPlainChar_quote : isPlainChar v.quote = false := by
  rcases v.quote_cases with h | h <;> rw [h] <;> rfl

theorem isBlank_quote : isBlank v.quote = false := by
  rcases v.quote_cases with h | h <;> rw [h] <;> rfl

theorem mark_body : v.body.mark = some v.quote :=
  mark_cons v.isPlainChar_quote _

theorem mark_written : v.written.mark = some v.quote := by
  have hs : v.polarity.mark.mark = none := by cases v.polarity <;> rfl
  rw [written, mark_append, hs, mark_body]
  rfl

theorem trim_written : v.written.trim = v.written := by
  have hb := v.isBlank_quote
  unfold written body
  cases v.polarity with
  | pos => exact Text.trim_enclosed hb hb v.inner
  | neg => exact Text.trim_enclosed (c := '~') rfl hb (v.quote :: v.inner)

theorem splitPolarity_written : splitPolarity v.written = (v.polarity, v.body) := by
  have h := v.isPlainChar_quote
  unfold written
  cases v.polarity with
  | neg => rfl
  | pos =>
    change splitPolarity (v.quote :: (v.inner ++ [v.quote])) = _
    rw [splitPolarity.eq_def]
    split
    · rename_i rest he
      rw [(List.cons.inj he).1] at h
      cases h
    · rfl

theorem unquote?_body : unquote? v.body = some v.inner := by
  have hquoted : quotedBy? v.quote v.body = some v.inner :=
    quotedBy?_eq_some_iff.mpr ⟨rfl, v.not_mem⟩
  rcases v.quote_cases with h | h
  · rw [h] at hquoted
    rw [unquote?, hquoted]
    rfl
  · have hother : quotedBy? '"' v.body = none := by
      rw [Option.eq_none_iff_forall_ne_some]
      intro inner hi
      have he := (quotedBy?_eq_some_iff.mp hi).1
      have hq : v.quote = '"' := (List.cons.inj he).1
      simp [hq] at h
    rw [h] at hquoted
    rw [unquote?, hother, hquoted]
    rfl

/-- The scanner takes the quotes for quotes where they are double or no sign precedes them. -/
theorem opens (h : v.polarity = .pos ∨ v.quote = '"') :
    (feedAll {} v.polarity.mark).quote = none ∧
      (v.quote = '"' ∨ v.quote = '\'' ∧ (feedAll {} v.polarity.mark).atTokenStart = true) := by
  constructor
  · cases v.polarity <;> rfl
  · rcases h with h | h
    · rw [h]
      exact v.quote_cases.imp_right fun hq => ⟨hq, rfl⟩
    · exact .inl h

theorem isBalanced_written (h : v.polarity = .pos ∨ v.quote = '"') :
    isBalanced v.written = true := by
  obtain ⟨hnone, ho⟩ := v.opens h
  rw [isBalanced, written, feedAll_append, body, feedAll_quoted hnone ho v.not_mem]
  cases v.polarity <;> rfl

theorem undivided_written (h : v.polarity = .pos ∨ v.quote = '"') :
    splitFirst? ',' v.written = none := by
  obtain ⟨hnone, ho⟩ := v.opens h
  have hs : v.quote ≠ ',' := by
    rcases v.quote_cases with hq | hq <;> rw [hq] <;> decide
  have hcut := cutFirst?_quoted hs hnone ho v.not_mem
  rw [splitFirst?, Option.map_eq_none_iff, written]
  cases hp : v.polarity with
  | pos =>
    rw [hp] at hcut
    exact hcut
  | neg =>
    rw [hp] at hcut
    change (cutFirst? ',' (feedAll {} ['~']) v.body).map _ = none
    rw [Option.map_eq_none_iff]
    exact hcut

end Quotation

namespace Grammar

open Reading

variable {s : Setting}

theorem individual_quotation (hs : s.ontology.hasSort .string = true) (v : Quotation) :
    individual s v.written =
      .done ⟨s.ontology.name, .string v.inner, .string, v.polarity⟩ := by
  have hplain : ¬ Plain v.body := by
    intro h
    have hm := h.mark_mem
    rw [v.mark_body] at hm
    rcases v.quote_cases with hq | hq <;> simp [hq] at hm
  have hdecimal : isDecimal v.body = false :=
    Bool.eq_false_iff.mpr fun h => hplain (.of_isDecimal h)
  have hdigits : isDigits v.body = false :=
    Bool.eq_false_iff.mpr fun h => hplain (.of_isDigits h)
  have hvalue : value? s v.body = some (.string v.inner) := by
    simp [value?, hdecimal, hdigits, v.unquote?_body, hs]
  have hfound : s.ontology.individual (.string v.inner) =
      .ok ⟨s.ontology.name, .string v.inner, .string, .pos⟩ := by
    change (if _ then _ else _) = _
    simp [hs]
  simp only [individual, v.splitPolarity_written, hvalue]
  change ofOntology (s.ontology.individual (.string v.inner)) >>= _ = _
  rw [hfound]
  cases v.polarity <;> rfl

theorem firstOf_rules_quotation (hs : s.ontology.hasSort .string = true) (v : Quotation) :
    Rule.firstOf rules s v.written =
      .done (.individual ⟨s.ontology.name, .string v.inner, .string, v.polarity⟩) := by
  have hm : v.written.mark ∉ constructMarks := by
    rw [v.mark_written]
    rcases v.quote_cases with hq | hq <;> rw [hq] <;> decide
  rw [firstOf_rules_of_mark hm]
  simp only [Rule.firstOf, literalRules, List.map_cons, individualRule, individual_quotation hs]
  rfl

theorem firstOf_rules_answer {inner : Text} (h : isBalanced inner = true) :
    Rule.firstOf rules s ("answer" ++ '(' :: inner ++ [')']) =
      readObject inner >>= fun content => return .move (.answer content) none :=
  ContentForm.answer.firstOf_rules h

end Grammar

namespace Parser

open Reading

variable {ontology : Ontology} {config : Config} {p : Parser}

theorem parse_singleton_iff (hnames : ∀ entry ∈ ontology.individuals, isWord entry.1 = true)
    (hp : Reachable ontology config p) {text : Text} {o : Object} (h : (p.parse text).1 = .ok o)
    (ht : text.trim = text) :
    (p.parse ('[' :: text ++ [']'])).1 = .ok (.sequence [o]) ↔ splitFirst? ',' text = none := by
  have hn : text.isBlankText = false := (shaped_of_parse hnames hp h).not_blank
  rw [(hp.continues.parse text).1] at h
  rw [hp.parse_ok_iff, Grammar.firstOf_rules_bracketed hnames, denote_map, items]
  constructor
  · intro hs
    rw [← length_splitTopLevel_eq_one_iff hn]
    split at hs
    · rename_i found hr
      have hone : found = [o] := Object.sequence.inj (Outcome.value.inj hs)
      rw [← length_of_denote_each hr, hone]
      rfl
    · cases hs
    · cases hs
  · intro hs
    have htexts : splitTopLevel ',' text = [text] := by
      rw [splitTopLevel_of_undivided hn hs, ht]
    rw [htexts, denote_each (.cons h .nil)]

theorem parse_answer_iff (hnames : ∀ entry ∈ ontology.individuals, isWord entry.1 = true)
    (hp : Reachable ontology config p) {text : Text} {o : Object} (h : (p.parse text).1 = .ok o) :
    (p.parse ("answer" ++ '(' :: text ++ [')'])).1 = .ok (.move (.answer o) none) ↔
      isBalanced text = true := by
  constructor
  · intro ha
    have hshaped := shaped_of_parse hnames hp ha
    rw [List.append_assoc] at hshaped
    obtain ⟨inner, he, hb⟩ := Shaped.of_call rfl hshaped
    rwa [List.append_left_injective _ he]
  · intro hb
    rw [(hp.continues.parse text).1] at h
    rw [hp.parse_ok_iff, Grammar.firstOf_rules_answer hb, denote_bind]
    simp only [readObject, denote, h]
    rfl

/-- A quotation denotes its string as an individual, and inside a sequence or an answer it denotes
the same where the scanner finds no comma in it at its top level, or finds it balanced. Whatever
stands between the quotes, both is so for double quotes and for quotations without a sign. -/
theorem parse_quotation (hnames : ∀ entry ∈ ontology.individuals, isWord entry.1 = true)
    (hs : ontology.hasSort .string = true) (hp : Reachable ontology config p) (v : Quotation) :
    let individual : Object :=
      .individual ⟨ontology.name, .string v.inner, .string, v.polarity⟩
    (p.parse v.written).1 = .ok individual ∧
      ((p.parse ('[' :: v.written ++ [']'])).1 = .ok (.sequence [individual]) ↔
        splitFirst? ',' v.written = none) ∧
      ((p.parse ("answer" ++ '(' :: v.written ++ [')'])).1 =
          .ok (.move (.answer individual) none) ↔ isBalanced v.written = true) ∧
      (v.polarity = .pos ∨ v.quote = '"' →
        splitFirst? ',' v.written = none ∧ isBalanced v.written = true) := by
  intro individual
  have hv : (p.parse v.written).1 = .ok individual := by
    rw [hp.parse_ok_iff, Grammar.firstOf_rules_quotation hs]
    rfl
  refine ⟨hv, parse_singleton_iff hnames hp hv v.trim_written, parse_answer_iff hnames hp hv, ?_⟩
  intro h
  exact ⟨v.undivided_written h, v.isBalanced_written h⟩

/-- A negated quotation with commas, brackets and an apostrophe between double quotes. -/
theorem parse_quotation_double :
    let ontology : Ontology := { name := "travel", predicates := [("comment", .string)] }
    let p := (performAll ⟨ontology, {}, {}⟩ [.parse "comment"]).2
    let individual : Object := .individual ⟨"travel", .string "a, (b'c]", .string, .neg⟩
    (p.parse "~\"a, (b'c]\"").1 = .ok individual ∧
      (p.parse "[~\"a, (b'c]\"]").1 = .ok (.sequence [individual]) ∧
      (p.parse "answer(~\"a, (b'c]\")").1 = .ok (.move (.answer individual) none) := by
  intro ontology p individual
  have hnames : ∀ entry ∈ ontology.individuals, isWord entry.1 = true := by simp [ontology]
  have hp : Reachable ontology {} p := ⟨[.parse "comment"], rfl⟩
  let v : Quotation := ⟨.neg, '"', "a, (b'c]", by decide, by decide⟩
  obtain ⟨halone, hsequence, hanswer, hopens⟩ := parse_quotation hnames (by decide) hp v
  obtain ⟨hundivided, hbalanced⟩ := hopens (.inr rfl)
  exact ⟨halone, hsequence.mpr hundivided, hanswer.mpr hbalanced⟩

/-- After a sign the comma and the bracket between apostrophes count. -/
theorem parse_negated_apostrophes :
    let p : Parser := ⟨{ name := "travel", predicates := [("comment", .string)] }, {}, {}⟩
    let string (t : Text) : Object := .individual ⟨"travel", .string t, .string, .neg⟩
    (p.parse "~'a, b'").1 = .ok (string "a, b") ∧
      (p.parse "[~'a, b']").1 =
        .error (.through (.noRuleMatched "Ontology(travel)") ["~'a", "[~'a, b']"]) ∧
      (p.parse "~'a)'").1 = .ok (string "a)") ∧
      (p.parse "answer(~'a)')").1 =
        .error (.through (.noRuleMatched "Ontology(travel)") ["answer(~'a)')"]) :=
  ⟨rfl, rfl, rfl, rfl⟩

end Parser

end Parley
