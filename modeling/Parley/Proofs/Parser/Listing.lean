import Parley.Proofs.Grammar.Negation
import Parley.Proofs.Grammar.Unread
import Parley.Proofs.Object.Listing
import Parley.Proofs.Parser.Container
import Parley.Proofs.Parser.Question

/-! # Listings of objects and of propositions

Sets, and the arguments of `prereported`, are equal whatever the order and the repetition
of the items that are written. All other listings keep their items as they are written, so
they are equal only if the items are equal one by one.
-/

namespace Parley

/-- The constructs that list propositions; most of them name an action of a service. -/
inductive ListForm
  | preconfirmed (name : Text)
  | prereported (name : Text)
  | prereport (name : Text)
  | alternatives

namespace ListForm

def keyword : ListForm → Text
  | preconfirmed _ => "preconfirmed"
  | prereported _ => "prereported"
  | prereport _ => "prereport"
  | alternatives => "set"

/-- The name of the action, if there is one. -/
def name? : ListForm → Option Text
  | preconfirmed name | prereported name | prereport name => some name
  | alternatives => none

def isOrdered : ListForm → Bool
  | prereported _ => false
  | preconfirmed _ | prereport _ | alternatives => true

def arguments (form : ListForm) (list : Text) : Text :=
  match form.name? with
  | some name => name ++ ", " ++ ('[' :: list ++ [']'])
  | none => '[' :: list ++ [']']

def write (form : ListForm) (list : Text) : Text :=
  Text.call form.keyword (form.arguments list)

/-- A construct around propositions, over an ontology with a given name. -/
def make (ontology : Text) : ListForm → List Proposition → Object
  | preconfirmed name, said => .proposition (.preconfirmation ontology name said .pos)
  | prereported name, said => .proposition (.prereport ontology name (Collection.ofList said))
  | prereport name, said => .move (.prereport ontology name said) none
  | alternatives, said => .proposition (.set said .pos)

/-- The name of an action is a word, and there is at least one alternative. -/
structure Admits (form : ListForm) (items : List Item) : Prop where
  name : ∀ name ∈ form.name?, isWord name = true
  nonempty : form = alternatives → items ≠ []

theorem make_beq_iff {form : ListForm} (h : form.isOrdered = true) {ontology : Text}
    {said said' : List Proposition} :
    (form.make ontology said == form.make ontology said') = true ↔ SameList said said' := by
  cases form with
  | preconfirmed name => exact Object.preconfirmation_beq_iff
  | prereported name => cases h
  | prereport name => exact Object.prereport_move_beq_iff
  | alternatives => exact Object.alternatives_beq_iff

end ListForm

namespace Grammar

open Reading

variable {m : Meaning} {s : Setting} {name list inner keyword : Text} {said : List Proposition}

theorem actionAndArguments_denote (hw : isWord name = true)
    (h : (items readProposition list).denote m = .value said) :
    (actionAndArguments (name ++ ", " ++ ('[' :: list ++ [']']))).denote m =
      .value (name, said) := by
  have htrim : Text.trim ('[' :: list ++ [']']) = '[' :: list ++ [']'] :=
    Text.trim_enclosed rfl rfl list
  have hbracketed : bracketed? ('[' :: list ++ [']']) = some list := bracketed?_eq_some_iff.mpr rfl
  rw [actionAndArguments, splitFirst?_name (mark_of_isWord hw), htrim]
  change (guard (isWord name) >>= _ : Reading (Text × List Proposition)).denote m = _
  rw [hw]
  change (propositionList ('[' :: list ++ [']']) >>= _ : Reading _).denote m = _
  rw [propositionList, htrim, hbracketed, denote_bind, h]
  rfl

theorem call_actionAndArguments_denote {α : Type} (keyword : Text)
    {f : Text × List Proposition → Reading α} (hw : isWord name = true)
    (hb : isBalanced list = true) (h : (items readProposition list).denote m = .value said) :
    (ofOption (call? keyword (Text.call keyword (name ++ ", " ++ ('[' :: list ++ [']'])))) >>=
      fun inner => actionAndArguments inner >>= f).denote m = (f (name, said)).denote m := by
  have hbalanced : isBalanced (name ++ ", " ++ ('[' :: list ++ [']'])) = true := by
    rw [isBalanced_name (mark_of_isWord hw)]
    exact isBalanced_enclosed [] (by simp) (by simp) hb
  rw [call_denote hbalanced, denote_bind, actionAndArguments_denote hw h]

/-- The keywords of listings that are propositions. -/
def listKeywords : List Text :=
  ["preconfirmed", "prereported", "set"]

/-- Only the rules for propositions, for alternatives and for literals read a call by one of the
keywords. -/
theorem firstOf_rules_listing (hk : keyword ∈ listKeywords) (s : Setting) (inner : Text) :
    Rule.firstOf rules s (Text.call keyword inner) =
      (propositionRule s (Text.call keyword inner)).orElse
        ((propositionSetRule s (Text.call keyword inner)).orElse
          (Rule.firstOf literalRules s (Text.call keyword inner))) := by
  have hmark : ∀ k ∈ listKeywords, Text.mark k = none := by decide
  have hopenings : ∀ k ∈ listKeywords, ∀ opens ∈ moveOpenings ++ planOpenings,
      (k, some '(') ∉ opens := by
    decide
  apply firstOf_rules_call (hmark keyword hk) (hopenings keyword hk)
  simp only [propositionRules, List.dropLast, List.cons_append, List.nil_append, List.mem_cons,
    List.not_mem_nil, or_false]
  simp only [listKeywords, List.mem_cons, List.not_mem_nil, or_false] at hk
  -- The keywords are told apart from those of the rules by their first letters.
  rcases hk with rfl | rfl | rfl <;>
    rintro rule (rfl | rfl | rfl | rfl | rfl | rfl | rfl | rfl | rfl) <;> rfl

theorem firstOf_rules_of_proposition (keyword : Text) (hk : keyword ∈ listKeywords)
    {p : Proposition}
    (h : (proposition s (Text.call keyword inner)).denote m = .value p) :
    (Rule.firstOf rules s (Text.call keyword inner)).denote m = .value (.proposition p) := by
  rw [firstOf_rules_listing hk, denote_orElse, propositionRule, denote_map, h]

theorem proposition_denote_of_form {text : Text} {r others old : Reading Proposition}
    {p : Proposition} (h : r.denote m = .value p)
    (hr : proposition s text = (r.orElse others).orElse old) :
    (proposition s text).denote m = .value p := by
  rw [hr, denote_orElse, denote_orElse, h]

/-- Where there is no predicate `set`, no form of proposition reads alternatives. -/
theorem propositionRule_alternatives (hs : s.ontology.predicates.get? "set" = none)
    (polarity : Polarity) (inner : Text) :
    propositionRule s (polarity.mark ++ Text.call "set" inner) = .declined := by
  have hsplit : (splitPolarity (polarity.mark ++ Text.call "set" inner)).2 =
      Text.call "set" inner := by
    cases polarity <;> rfl
  have hforms : proposition s (polarity.mark ++ Text.call "set" inner) =
      ((predication s (polarity.mark ++ Text.call "set" inner)).orElse .declined).orElse
        .declined := by
    cases polarity <;> rfl
  rw [propositionRule, hforms, predication_of_undeclared rfl hs hsplit]
  rfl

theorem propositionSetRule_alternatives (polarity : Polarity) (hb : isBalanced inner = true) :
    propositionSetRule s (polarity.mark ++ Text.call "set" inner) =
      (fun members => .proposition (.set members polarity)) <$> alternativesIn inner := by
  have hsplit : splitPolarity (polarity.mark ++ Text.call "set" inner) =
      (polarity, Text.call "set" inner) := by
    cases polarity <;> rfl
  simp only [propositionSetRule, propositionSet, hsplit, call?_call hb, alternativesIn,
    map_eq_pure_bind, LawfulMonad.bind_assoc]
  rfl

theorem alternativesIn_bracketed (list : Text) :
    alternativesIn ('[' :: list ++ [']']) =
      (guard (!list.isBlankText) >>= fun _ => items readProposition list) := by
  rw [alternativesIn, bracketed?_eq_some_iff.mpr rfl]
  rfl

theorem firstOf_rules_alternatives (hs : s.ontology.predicates.get? "set" = none)
    (hb : isBalanced list = true) (hn : list.isBlankText = false)
    (h : (items readProposition list).denote m = .value said) :
    (Rule.firstOf rules s (Text.call "set" ('[' :: list ++ [']']))).denote m =
      .value (.proposition (.set said .pos)) := by
  have hbalanced : isBalanced ('[' :: list ++ [']']) = true :=
    isBalanced_enclosed [] (by simp) (by simp) hb
  have hmembers : (alternativesIn ('[' :: list ++ [']'])).denote m = .value said := by
    rw [alternativesIn_bracketed, hn]
    exact h
  have hset : (propositionSetRule s (Text.call "set" ('[' :: list ++ [']']))).denote m =
      .value (.proposition (.set said .pos)) := by
    refine (congrArg (denote m) (propositionSetRule_alternatives .pos hbalanced)).trans ?_
    rw [denote_map, hmembers]
  have hrule : propositionRule s (Text.call "set" ('[' :: list ++ [']'])) = .declined :=
    propositionRule_alternatives hs .pos _
  rw [firstOf_rules_listing (by simp [listKeywords]), hrule]
  change ((propositionSetRule s _).orElse _).denote m = _
  rw [denote_orElse, hset]

theorem items_readProposition_denote {texts : List Item}
    (h : List.Forall₂ (fun item p => m.proposition item.text = .value p) texts said) :
    (items readProposition (Item.list texts)).denote m = .value said := by
  rw [items, Item.splitTopLevel_list]
  simp only [denote_each_eq_value_iff, denote_readProposition]
  exact List.forall₂_map_left_iff.mpr h

end Grammar

namespace ListForm

open Grammar Reading

variable {m : Meaning} {s : Setting} {items : List Item} {said : List Proposition}

/-- A construct around items that are accepted as propositions is read as the construct around
these propositions. -/
theorem firstOf_rules (form : ListForm) (ha : form.Admits items)
    (hs : s.ontology.predicates.get? "set" = none)
    (h : List.Forall₂ (fun item p => m.proposition item.text = .value p) items said) :
    (Rule.firstOf rules s (form.write (Item.list items))).denote m =
      .value (form.make s.ontology.name said) := by
  have hlist := items_readProposition_denote h
  have hbalanced : isBalanced (Item.list items) = true :=
    isBalanced_join (List.forall_mem_map.mpr fun item _ => item.isEntry_written.balanced)
  cases form with
  | preconfirmed name =>
    have hform : (Grammar.preconfirmed s ((preconfirmed name).write (Item.list items))).denote m =
        .value (.preconfirmation s.ontology.name name said .pos) :=
      call_actionAndArguments_denote "preconfirmed" (ha.name name rfl) hbalanced hlist
    exact firstOf_rules_of_proposition "preconfirmed" (by simp [listKeywords])
      (proposition_denote_of_form hform rfl)
  | prereported name =>
    have hform : (Grammar.prereported s ((prereported name).write (Item.list items))).denote m =
        .value (.prereport s.ontology.name name (Collection.ofList said)) :=
      call_actionAndArguments_denote "prereported" (ha.name name rfl) hbalanced hlist
    exact firstOf_rules_of_proposition "prereported" (by simp [listKeywords])
      (proposition_denote_of_form hform rfl)
  | prereport name =>
    apply firstOf_rules_denote prereportMove (by simp [moveRules])
    exact call_actionAndArguments_denote "prereport" (ha.name name rfl) hbalanced hlist
  | alternatives =>
    obtain ⟨item, rest, rfl⟩ := List.exists_cons_of_ne_nil (ha.nonempty rfl)
    exact firstOf_rules_alternatives hs hbalanced
      (isBlankText_join _ _ item.isEntry_written) hlist

end ListForm

namespace Parser

open Reading

variable {ontology : Ontology} {config : Config} {p q : Parser}

/-- The forms of propositions accept a text in the state of a parser. -/
def Accepts (p : Parser) (text : Text) (said : Proposition) : Prop :=
  (p.engine.read (Grammar.proposition p.setting text) text p.cache).1 = .value said

theorem Continues.accepts_iff (h : p.Continues q) {text : Text} {said : Proposition} :
    q.Accepts text said ↔ p.engine.meaning.proposition text = .value said := by
  have hread := (q.engine_descends.read (Grammar.proposition_asks q.setting text) h.coherent).1
  have hmeaning := q.engine_descends.meaning_proposition text
  rw [Accepts, hread, ← h.engine, hmeaning]
  rfl

theorem parse_set (hnames : ∀ entry ∈ ontology.individuals, isWord entry.1 = true)
    (hp : Reachable ontology config p) (hq : Reachable ontology config q) {items : List Item}
    {objects : List Object}
    (h : List.Forall₂ (fun item o => (p.parse item.text).1 = .ok o) items objects) :
    (q.parse ('{' :: Item.list items ++ ['}'])).1 = .ok (.set (Collection.ofList objects)) := by
  have hset := Grammar.firstOf_rules_braced (s := ⟨ontology, config.domainName⟩) hnames
    (Item.list items)
  rw [Reading.items, Item.splitTopLevel_list] at hset
  exact (parse_of_items hset hp hq).1 objects (List.forall₂_map_left_iff.mpr h)

theorem parse_sequence (hnames : ∀ entry ∈ ontology.individuals, isWord entry.1 = true)
    (hp : Reachable ontology config p) (hq : Reachable ontology config q) {items : List Item}
    {objects : List Object}
    (h : List.Forall₂ (fun item o => (p.parse item.text).1 = .ok o) items objects) :
    (q.parse ('[' :: Item.list items ++ [']'])).1 = .ok (.sequence objects) := by
  have hsequence := Grammar.firstOf_rules_bracketed (s := ⟨ontology, config.domainName⟩) hnames
    (Item.list items)
  rw [Reading.items, Item.splitTopLevel_list] at hsequence
  exact (parse_of_items hsequence hp hq).1 objects (List.forall₂_map_left_iff.mpr h)

theorem parse_listForm (hs : ontology.predicates.get? "set" = none)
    (hp : Reachable ontology config p) (hq : Reachable ontology config q) {form : ListForm}
    {items : List Item} {said : List Proposition} (ha : form.Admits items)
    (h : List.Forall₂ (fun item s => p.Accepts item.text s) items said) :
    (q.parse (form.write (Item.list items))).1 = .ok (form.make ontology.name said) := by
  rw [hq.parse_ok_iff]
  exact form.firstOf_rules ha hs (h.imp fun item s => hp.continues.accepts_iff.mp)

/-- In every state two sets, or two propositions `prereported` with the same name, are equal if
and only if their items denote the same objects or propositions up to order and repetition, and they
have as many members as there are distinct ones. Sequences, `preconfirmed`, the move `prereport` and
alternatives keep what their items denote in the order in which it is written, and two of them are
equal if and only if it is equal one by one. -/
theorem parse_listing (hnames : ∀ entry ∈ ontology.individuals, isWord entry.1 = true)
    (hs : ontology.predicates.get? "set" = none) (hp : Reachable ontology config p)
    (hq : Reachable ontology config q) :
    (∀ (items items' : List Item) (objects objects' : List Object),
      List.Forall₂ (fun item o => (p.parse item.text).1 = .ok o) items objects →
      List.Forall₂ (fun item o => (p.parse item.text).1 = .ok o) items' objects' →
      (∃ members members',
        (q.parse ('{' :: Item.list items ++ ['}'])).1 = .ok (.set members) ∧
        (q.parse ('{' :: Item.list items' ++ ['}'])).1 = .ok (.set members') ∧
        members.length = objects.eraseDups.length ∧
        ((Object.set members == .set members') = true ↔ SameItems objects objects')) ∧
      (q.parse ('[' :: Item.list items ++ [']'])).1 = .ok (.sequence objects) ∧
      (q.parse ('[' :: Item.list items' ++ [']'])).1 = .ok (.sequence objects') ∧
      ((Object.sequence objects == .sequence objects') = true ↔ SameList objects objects')) ∧
    (∀ (name : Text) (items items' : List Item) (said said' : List Proposition),
      isWord name = true →
      List.Forall₂ (fun item s => p.Accepts item.text s) items said →
      List.Forall₂ (fun item s => p.Accepts item.text s) items' said' →
      let report members := Object.proposition (.prereport ontology.name name members)
      ∃ members members',
        (q.parse ((ListForm.prereported name).write (Item.list items))).1 = .ok (report members) ∧
        (q.parse ((ListForm.prereported name).write (Item.list items'))).1 =
          .ok (report members') ∧
        members.length = said.eraseDups.length ∧
        ((report members == report members') = true ↔ SameItems said said')) ∧
    ∀ (form : ListForm) (items items' : List Item) (said said' : List Proposition),
      form.isOrdered = true → form.Admits items → form.Admits items' →
      List.Forall₂ (fun item s => p.Accepts item.text s) items said →
      List.Forall₂ (fun item s => p.Accepts item.text s) items' said' →
      (q.parse (form.write (Item.list items))).1 = .ok (form.make ontology.name said) ∧
      (q.parse (form.write (Item.list items'))).1 = .ok (form.make ontology.name said') ∧
      ((form.make ontology.name said == form.make ontology.name said') = true ↔
        SameList said said') := by
  refine ⟨fun items items' objects objects' h h' => ⟨?_, ?_⟩,
    fun name items items' said said' hw h h' => ?_,
    fun form items items' said said' ho ha ha' h h' => ?_⟩
  · exact ⟨_, _, parse_set hnames hp hq h, parse_set hnames hp hq h',
      congrArg List.length (Collection.ofList_eq_eraseDups objects), Object.set_ofList_beq_iff⟩
  · exact ⟨parse_sequence hnames hp hq h, parse_sequence hnames hp hq h', Object.beq_iff⟩
  · have ha : ∀ items, (ListForm.prereported name).Admits items := by
      refine fun items => ⟨fun other hn => ?_, by rintro ⟨⟩⟩
      obtain rfl := Option.some.inj hn
      exact hw
    exact ⟨_, _, parse_listForm hs hp hq (ha items) h, parse_listForm hs hp hq (ha items') h',
      congrArg List.length (Collection.ofList_eq_eraseDups said), Object.prereport_ofList_beq_iff⟩
  · exact ⟨parse_listForm hs hp hq ha h, parse_listForm hs hp hq ha' h', form.make_beq_iff ho⟩

/-- A set with a repeated item, a prereport with a repeated proposition, and a preconfirmation of a
proposition and its negation. -/
theorem parse_listing_visa :
    let ontology : Ontology := { name := "travel", predicates := [("visa", .boolean)] }
    let p : Parser := ⟨ontology, {}, {}⟩
    let visa : Proposition := .predicate ⟨"travel", "visa", .boolean⟩ none .pos
    let without : Proposition := .predicate ⟨"travel", "visa", .boolean⟩ none .neg
    (∃ members members', (p.parse "\x7bno, yes,no\x7d").1 = .ok (.set members) ∧
        (p.parse "\x7byes,no\x7d").1 = .ok (.set members') ∧ members.length = 2 ∧
        (Object.set members == .set members') = true) ∧
      (∃ members, (p.parse "prereported(book, [visa(),visa()])").1 =
        .ok (.proposition (.prereport "travel" "book" members)) ∧ members.length = 1) ∧
      (p.parse "preconfirmed(book, [visa(),~visa])").1 =
        .ok (.proposition (.preconfirmation "travel" "book" [visa, without] .pos)) := by
  intro ontology p visa without
  have hnames : ∀ entry ∈ ontology.individuals, isWord entry.1 = true := by simp [ontology]
  have hp : Reachable ontology {} p := ⟨[], rfl⟩
  let yes : Item := ⟨"yes", [], [], by decide, rfl, rfl, rfl, by simp, by simp⟩
  let padded : Item := ⟨"yes", [' '], [], by decide, rfl, rfl, rfl, by simp [isBlank], by simp⟩
  let no : Item := ⟨"no", [], [], by decide, rfl, rfl, rfl, by simp, by simp⟩
  let affirmed : Item := ⟨"visa()", [], [], by decide, rfl, rfl, rfl, by simp, by simp⟩
  let negated : Item := ⟨"~visa", [], [], by decide, rfl, rfl, rfl, by simp, by simp⟩
  obtain ⟨hobjects, hreported, hordered⟩ := parse_listing hnames rfl hp hp
  obtain ⟨⟨members, members', hset, hset', hlength, hequal⟩, -⟩ :=
    hobjects [no, padded, no] [yes, no] [.no, .yes, .no] [.yes, .no]
      (.cons rfl (.cons rfl (.cons rfl .nil))) (.cons rfl (.cons rfl .nil))
  obtain ⟨said, -, hreport, -, hsaid, -⟩ := hreported "book" [affirmed, affirmed] [] [visa, visa] []
    rfl (.cons rfl (.cons rfl .nil)) .nil
  have hadmits : (ListForm.preconfirmed "book").Admits [affirmed, negated] := by
    refine ⟨fun name hn => ?_, by rintro ⟨⟩⟩
    obtain rfl := Option.some.inj hn
    rfl
  obtain ⟨hconfirmed, -⟩ := hordered (.preconfirmed "book") [affirmed, negated]
    [affirmed, negated] [visa, without] [visa, without] rfl hadmits hadmits
    (.cons rfl (.cons rfl .nil)) (.cons rfl (.cons rfl .nil))
  refine ⟨⟨members, members', hset, hset', hlength, hequal.mpr ?_⟩, ⟨said, hreport, hsaid⟩,
    hconfirmed⟩
  simp [SameItems]

end Parser

end Parley
