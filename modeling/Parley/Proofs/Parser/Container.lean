import Parley.Proofs.Grammar.Opening
import Parley.Proofs.Object.Sameness
import Parley.Proofs.Parser.Session
import Parley.Proofs.Surface.Split

/-! # Containers

Where the individuals of an ontology have words as names, only the rule for sequences
takes a text that opens with a bracket, and only the rule for sets one that opens with a
brace. A container therefore denotes what its items denote, and it fails as the first of
its items does that fails.
-/

namespace Parley

namespace Grammar

open Reading

variable {s : Setting}

/-- Only the rules for containers take a text that opens with a bracket or a brace. -/
theorem firstOf_rules_of_left (hnames : ∀ entry ∈ s.ontology.individuals, isWord entry.1 = true)
    {left : Char} (hl : left ∈ ['[', '{']) (rest : Text) :
    Rule.firstOf rules s (left :: rest) =
      (set s (left :: rest)).orElse (sequence s (left :: rest)) := by
  simp only [List.mem_cons, List.not_mem_nil, or_false] at hl
  have hm : Text.mark (left :: rest) = some left := by
    rcases hl with rfl | rfl <;> exact mark_cons rfl rest
  have hconstruct : Text.mark (left :: rest) ∉ constructMarks := by
    rw [hm]
    rcases hl with rfl | rfl <;> decide
  have hi : individual s (left :: rest) = .declined := by
    apply individual_of_mark hnames
    rw [hm]
    rcases hl with rfl | rfl <;> decide
  have hq : unquote? (left :: rest) = none := by rcases hl with rfl | rfl <;> rfl
  rw [firstOf_rules_of_mark hconstruct]
  simp only [Rule.firstOf, literalRules, List.map_cons, List.map_nil, individualRule, string, hi,
    hq, firstOf, orElse_declined]
  rfl

theorem firstOf_rules_bracketed
    (hnames : ∀ entry ∈ s.ontology.individuals, isWord entry.1 = true) (inner : Text) :
    Rule.firstOf rules s ('[' :: inner ++ [']']) = .sequence <$> items readObject inner := by
  have hbrace : braced? ('[' :: inner ++ [']']) = none := rfl
  have hbracket : bracketed? ('[' :: inner ++ [']']) = some inner :=
    bracketed?_eq_some_iff.mpr rfl
  rw [List.cons_append] at hbrace hbracket ⊢
  rw [firstOf_rules_of_left hnames (by simp), set, sequence, hbrace, hbracket, map_eq_pure_bind]
  rfl

theorem firstOf_rules_braced
    (hnames : ∀ entry ∈ s.ontology.individuals, isWord entry.1 = true) (inner : Text) :
    Rule.firstOf rules s ('{' :: inner ++ ['}']) =
      (fun found => .set (Collection.ofList found)) <$> items readObject inner := by
  have hbrace : braced? ('{' :: inner ++ ['}']) = some inner := braced?_eq_some_iff.mpr rfl
  have hbracket : bracketed? ('{' :: inner ++ ['}']) = none := rfl
  rw [List.cons_append] at hbrace hbracket ⊢
  rw [firstOf_rules_of_left hnames (by simp), set, sequence, hbrace, hbracket, map_eq_pure_bind]
  exact orElse_declined _

end Grammar

namespace Parser

open Reading

variable {ontology : Ontology} {config : Config} {p q : Parser}

/-- A text whose items are read one after the other denotes what is made of their objects, and it
fails as the first item does that fails. -/
theorem parse_of_items {make : List Object → Object} {text : Text} {texts : List Text}
    (hr : Rule.firstOf Grammar.rules ⟨ontology, config.domainName⟩ text =
      make <$> each readObject texts)
    (hp : Reachable ontology config p) (hq : Reachable ontology config q) :
    (∀ objects, List.Forall₂ (fun t o => (p.parse t).1 = .ok o) texts objects →
      (q.parse text).1 = .ok (make objects)) ∧
    ∀ before t after err, texts = before ++ t :: after →
      (∀ t ∈ before, ∃ o, (p.parse t).1 = .ok o) → (p.parse t).1 = .error err →
      (q.parse text).1 = .error (err.within text) := by
  have hparse : ∀ t, (p.parse t).1 = (engine ⟨ontology, config, {}⟩).meaning.object t :=
    fun t => (hp.continues.parse t).1
  simp only [hparse]
  constructor
  · intro objects h
    rw [hq.parse_ok_iff, hr, denote_map, denote_each h]
  · rintro before t after err rfl hb he
    apply hq.parse_error
    rw [hr, denote_map, denote_each_error hb he]

/-- A sequence denotes the objects of its items in their order, and a set denotes exactly these
objects, whatever blanks stand around the items. If some item denotes nothing, then the first such
item gives the cause of the error and its trail, to which the container is added. -/
theorem parse_container (hnames : ∀ entry ∈ ontology.individuals, isWord entry.1 = true)
    (hp : Reachable ontology config p) (hq : Reachable ontology config q) (items : List Item) :
    let sequence := '[' :: Item.list items ++ [']']
    let set := '{' :: Item.list items ++ ['}']
    (∀ objects, List.Forall₂ (fun item o => (p.parse item.text).1 = .ok o) items objects →
      (q.parse sequence).1 = .ok (.sequence objects) ∧
        ∃ members, (q.parse set).1 = .ok (.set members) ∧
          Collection.IsSetOf members objects) ∧
    ∀ before item after err, items = before ++ item :: after →
      (∀ i ∈ before, ∃ o, (p.parse i.text).1 = .ok o) →
      (p.parse item.text).1 = .error err →
      (q.parse sequence).1 = .error (err.within sequence) ∧
        (q.parse set).1 = .error (err.within set) := by
  intro sequence set
  have hsequence := Grammar.firstOf_rules_bracketed (s := ⟨ontology, config.domainName⟩) hnames
    (Item.list items)
  have hset := Grammar.firstOf_rules_braced (s := ⟨ontology, config.domainName⟩) hnames
    (Item.list items)
  rw [Reading.items, Item.splitTopLevel_list] at hsequence hset
  obtain ⟨hsequence, hsequence'⟩ := parse_of_items hsequence hp hq
  obtain ⟨hset, hset'⟩ := parse_of_items hset hp hq
  constructor
  · intro objects h
    have htexts : List.Forall₂ (fun t o => (p.parse t).1 = .ok o) (items.map Item.text) objects :=
      List.forall₂_map_left_iff.mpr h
    exact ⟨hsequence objects htexts, _, hset objects htexts, Collection.isSetOf_ofList objects⟩
  · rintro before item after err rfl hb he
    have hmap : (before ++ item :: after).map Item.text =
        before.map Item.text ++ item.text :: after.map Item.text := by simp
    have hbefore : ∀ t ∈ before.map Item.text, ∃ o, (p.parse t).1 = .ok o :=
      List.forall_mem_map.mpr hb
    exact ⟨hsequence' _ _ _ err hmap hbefore he, hset' _ _ _ err hmap hbefore he⟩

/-- A sequence and a set of a name and of a set in which an item is repeated, and a sequence whose
second and third items denote nothing. -/
theorem parse_container_nested :
    let ontology : Ontology := { name := "travel", individuals := [("paris", .custom "city")] }
    let p : Parser := ⟨ontology, {}, {}⟩
    let q := (performAll p [.parse "paris"]).2
    let paris : Object := .individual ⟨"travel", .enumerated "paris", .custom "city", .pos⟩
    (q.parse "[paris , {no,no}]").1 = .ok (.sequence [paris, .set [.no]]) ∧
      (∃ members, (q.parse "{paris , {no,no}}").1 = .ok (.set members) ∧
        Collection.IsSetOf members [paris, .set [.no]]) ∧
      (q.parse "[paris,%,?%]").1 =
        .error (.through (.noRuleMatched "Ontology(travel)") ["%", "[paris,%,?%]"]) := by
  intro ontology p q paris
  have hnames : ∀ entry ∈ ontology.individuals, isWord entry.1 = true := by decide
  have hp : Reachable ontology {} p := ⟨[], rfl⟩
  have hq : Reachable ontology {} q := ⟨[.parse "paris"], rfl⟩
  let name : Item := ⟨"paris", [], [' '], by decide, rfl, rfl, rfl, by simp, by simp [isBlank]⟩
  let bare : Item := ⟨"paris", [], [], by decide, rfl, rfl, rfl, by simp, by simp⟩
  let pair : Item := ⟨"{no,no}", [' '], [], by decide, rfl, rfl, rfl, by simp [isBlank], by simp⟩
  let sign : Item := ⟨"%", [], [], by decide, rfl, rfl, rfl, by simp, by simp⟩
  let question : Item := ⟨"?%", [], [], by decide, rfl, rfl, rfl, by simp, by simp⟩
  obtain ⟨hok, -⟩ := parse_container hnames hp hq [name, pair]
  obtain ⟨-, herror⟩ := parse_container hnames hp hq [bare, sign, question]
  obtain ⟨hsequence, hset⟩ := hok [paris, .set [.no]] (.cons rfl (.cons rfl .nil))
  refine ⟨hsequence, hset, ?_⟩
  refine (herror [bare] sign [question] (.through (.noRuleMatched "Ontology(travel)") ["%"])
    rfl ?_ rfl).1
  exact List.forall_mem_singleton.mpr ⟨paris, rfl⟩

end Parser

end Parley
