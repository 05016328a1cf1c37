import Parley.Proofs.Grammar.Unread
import Parley.Proofs.Parser.Question

/-! # Queries of services

A query of a service looks at the text of its issue before it reads it: a text with a
comma anywhere is declined, also where the comma stands inside brackets that belong to the
issue. A question without a comma becomes the issue of the query; a question with one is
held by the other constructs, and by no query.
-/

namespace Parley

namespace Grammar

open Reading

variable {m : Meaning} {s : Setting} {keyword text : Text} {o : Object}

def queryKeywords : List Text :=
  ["invoke_service_query", "dev_query"]

theorem mem_decliningKeywords_of_query (hk : keyword ∈ queryKeywords) :
    keyword ∈ decliningKeywords := by
  have h : ∀ k ∈ queryKeywords, k ∈ decliningKeywords := by decide
  exact h keyword hk

theorem serviceQuery_mem_zip (hk : keyword ∈ queryKeywords) :
    (serviceQuery keyword, [(keyword, some '(')]) ∈
      (moveRules ++ planRules).zip (moveOpenings ++ planOpenings) := by
  simp only [queryKeywords, List.mem_cons, List.not_mem_nil, or_false] at hk
  rcases hk with rfl | rfl
  · exact List.mem_of_getElem? (i := 27) rfl
  · exact List.mem_of_getElem? (i := 28) rfl

theorem serviceQuery_call (hb : isBalanced text = true) (hn : text ≠ []) :
    serviceQuery keyword s (Text.call keyword text) =
      guard (!text.contains ',') >>= fun _ => readObject text >>= fun issue =>
        return .planItem (.invokeServiceQuery issue 1 1) := by
  have hcall : nonemptyCall? keyword (Text.call keyword text) = some text := by
    rw [nonemptyCall?, call?_call hb, Option.filter_some, if_pos (by simpa using hn)]
  rw [serviceQuery, hcall]
  rfl

theorem firstOf_rules_serviceQuery (hk : keyword ∈ queryKeywords) (hb : isBalanced text = true)
    (hn : text ≠ []) (hc : ',' ∉ text) (ho : m.object text = .ok o) :
    (Rule.firstOf rules s (Text.call keyword text)).denote m =
      .value (.planItem (.invokeServiceQuery o 1 1)) := by
  have hcomma : List.contains text ',' = false := by simpa using hc
  apply firstOf_rules_denote (serviceQuery keyword) (List.of_mem_zip (serviceQuery_mem_zip hk)).1
  rw [serviceQuery_call hb hn, hcomma]
  change (readObject text >>= fun issue => return _).denote m = _
  rw [denote_bind, readObject]
  simp only [denote, ho]
  rfl

/-- A text with a comma that is no individual is no issue. -/
theorem firstOf_rules_serviceQuery_comma
    (hnames : ∀ entry ∈ s.ontology.individuals, isWord entry.1 = true)
    (hk : keyword ∈ queryKeywords) (hb : isBalanced text = true) (hn : text ≠ [])
    (hc : ',' ∈ text) (hi : individual s text = .declined) :
    Rule.firstOf rules s (Text.call keyword text) = .declined := by
  have hm := mem_decliningKeywords_of_query hk
  have hquery : serviceQuery keyword s (Text.call keyword text) = .declined := by
    have hcomma : List.contains text ',' = true := by simpa using hc
    rw [serviceQuery_call hb hn, hcomma]
    rfl
  have hopens : (Text.call keyword text).Opens [(keyword, some '(')] :=
    List.mem_singleton.mpr (opening_call (mark_of_mem_decliningKeywords hm))
  apply Rule.firstOf_of_declined
  rw [rules_eq, List.forall_mem_append]
  constructor
  · intro rule hr
    rcases declined_or_eq (serviceQuery_mem_zip hk) hopens hr with hd | rfl
    · exact hd
    · exact hquery
  · intro rule hr
    exact call_unread hm hnames hb hn hi hr

end Grammar

namespace Parser

variable {ontology : Ontology} {config : Config} {p q : Parser}

/-- In every state a text that denotes a question is the issue of a query, in both spellings, if
there is no comma in it. With a comma, inside brackets or not, no rule matches the query, though
the question is found out by a plan item as any other. -/
theorem parse_serviceQuery (hnames : ∀ entry ∈ ontology.individuals, isWord entry.1 = true)
    (hp : Reachable ontology config p) (hq : Reachable ontology config q) {keyword text : Text}
    {asked : Question} (hk : keyword ∈ Grammar.queryKeywords)
    (h : (q.parse text).1 = .ok (.question asked)) :
    (p.parse (Text.call "findout" text)).1 =
        .ok (.planItem (.findout config.domainName asked)) ∧
      (p.parse (Text.call keyword text)).1 =
        if ',' ∈ text then
          .error (.through (.noRuleMatched ontology.describe) [Text.call keyword text])
        else .ok (.planItem (.invokeServiceQuery (.question asked) 1 1)) := by
  obtain ⟨hb, hd⟩ := question_of_parse hnames hq h
  have ho := (hq.continues.parse text).1 ▸ h
  obtain ⟨inner, rfl⟩ : ∃ inner, text = '?' :: inner := fits_of_object ho
  constructor
  · rw [hp.parse_ok_iff]
    exact Grammar.firstOf_rules_write .findout hb hd
  · split
    · rename_i hc
      refine hp.parse_declined ?_
      have hmark : Text.mark ('?' :: inner) = some '?' := mark_cons rfl inner
      have hi : Grammar.individual ⟨ontology, config.domainName⟩ ('?' :: inner) = .declined :=
        Grammar.individual_of_mark hnames (by simp [hmark])
      rw [Grammar.firstOf_rules_serviceQuery_comma hnames hk hb (by simp) hc hi]
      rfl
    · rename_i hc
      rw [hp.parse_ok_iff]
      exact Grammar.firstOf_rules_serviceQuery hk hb (by simp) hc ho

/-- Two alternatives, which a comma separates, and one. -/
theorem parse_serviceQuery_alternatives :
    let ontology : Ontology :=
      { name := "travel", predicates := [("dest", .custom "city")],
        individuals := [("paris", .custom "city"), ("rome", .custom "city")] }
    let config : Config := { domainName := some "trips" }
    let q : Parser := ⟨ontology, config, {}⟩
    let p := (performAll q [.parse "dest(rome)", .clear, .parse "?dest(paris)"]).2
    let dest (name : Text) : Proposition :=
      .predicate ⟨"travel", "dest", .custom "city"⟩
        (some ⟨"travel", .enumerated name, .custom "city", .pos⟩) .pos
    (p.parse "findout(?set([dest(paris), dest(rome)]))").1 =
        .ok (.planItem (.findout (some "trips")
          (.alternative [dest "paris", dest "rome"] .pos))) ∧
      (p.parse "dev_query(?set([dest(paris), dest(rome)]))").1 =
        .error (.through (.noRuleMatched "Ontology(travel)")
          ["dev_query(?set([dest(paris), dest(rome)]))"]) ∧
      (p.parse "invoke_service_query(?set([dest(paris)]))").1 =
        .ok (.planItem (.invokeServiceQuery
          (.question (.alternative [dest "paris"] .pos)) 1 1)) := by
  intro ontology config q p dest
  have hnames : ∀ entry ∈ ontology.individuals, isWord entry.1 = true := by decide
  have hq : Reachable ontology config q := ⟨[], rfl⟩
  have hp : Reachable ontology config p :=
    ⟨[.parse "dest(rome)", .clear, .parse "?dest(paris)"], rfl⟩
  have htwo : (q.parse "?set([dest(paris), dest(rome)])").1 =
      .ok (.question (.alternative [dest "paris", dest "rome"] .pos)) := rfl
  have hone : (q.parse "?set([dest(paris)])").1 =
      .ok (.question (.alternative [dest "paris"] .pos)) := rfl
  have hold : ("dev_query" : Text) ∈ Grammar.queryKeywords := by decide
  have hnew : ("invoke_service_query" : Text) ∈ Grammar.queryKeywords := by decide
  obtain ⟨hfindout, hcomma⟩ := parse_serviceQuery hnames hp hq hold htwo
  exact ⟨hfindout, hcomma, (parse_serviceQuery hnames hp hq hnew hone).2⟩

/-- The comma between two alternatives belongs to the question, as in the plan item that finds it
out, and the query of a service fails on it. -/
theorem parse_serviceQuery_comma :
    let ontology : Ontology :=
      { name := "travel", predicates := [("dest", .custom "city")],
        individuals := [("paris", .custom "city"), ("rome", .custom "city")] }
    let q : Parser := ⟨ontology, {}, {}⟩
    (∀ entry ∈ ontology.individuals, isWord entry.1 = true) ∧
      (∃ asked, (q.parse "?set([dest(paris), dest(rome)])").1 = .ok (.question asked) ∧
        (q.parse "findout(?set([dest(paris), dest(rome)]))").1 =
          .ok (.planItem (.findout none asked))) ∧
      (q.parse "invoke_service_query(?set([dest(paris), dest(rome)]))").1 =
        .error (.through (.noRuleMatched "Ontology(travel)")
          ["invoke_service_query(?set([dest(paris), dest(rome)]))"]) := by
  refine ⟨by decide, ⟨_, rfl, rfl⟩, rfl⟩

end Parser

end Parley
