import Parley.Proofs.Grammar.Locality
import Parley.Proofs.Parser.Session

/-! # Locality

What a text means depends only on what the ontology says of the parts of the text, and
on whether there is a sort of strings. A vocabulary that does not occur in a text has
no influence on it, nor on a block of parameters.
-/

namespace Parley

namespace Ontology

inductive Declaration
  | predicate (name : Text) (sort : Sortal)
  | individual (name : Text) (sort : Sortal)
  | action (name : Text)

def Declaration.name : Declaration → Text
  | predicate name _ | individual name _ | action name => name

def declare (o : Ontology) : Declaration → Ontology
  | .predicate name sort => o.withPredicate name sort
  | .individual name sort => o.withIndividual name sort
  | .action name => o.withAction name

def declareAll (o : Ontology) (declarations : List Declaration) : Ontology :=
  declarations.foldl declare o

variable {o : Ontology} {w : Text}

theorem declare_other {d : Declaration} (h : w ≠ d.name) :
    (o.declare d).name = o.name ∧ (o.declare d).predicates.get? w = o.predicates.get? w ∧
      (o.declare d).individuals.get? w = o.individuals.get? w ∧
      (o.declare d).actions.contains w = o.actions.contains w := by
  cases d with
  | predicate name sort =>
    have hw : w ≠ name := h
    simp [declare, withPredicate, Table.get?_insert, hw]
  | individual name sort =>
    have hw : w ≠ name := h
    simp [declare, withIndividual, Table.get?_insert, hw]
  | action name =>
    have hw : w ≠ name := h
    simp only [declare, withAction, true_and]
    split <;> simp [hw]

theorem declareAll_other {declarations : List Declaration} (h : ∀ d ∈ declarations, w ≠ d.name) :
    (o.declareAll declarations).name = o.name ∧
      (o.declareAll declarations).predicates.get? w = o.predicates.get? w ∧
      (o.declareAll declarations).individuals.get? w = o.individuals.get? w ∧
      (o.declareAll declarations).actions.contains w = o.actions.contains w := by
  induction declarations generalizing o with
  | nil => exact ⟨rfl, rfl, rfl, rfl⟩
  | cons d declarations ih =>
    rw [List.forall_mem_cons] at h
    obtain ⟨hname, hpredicates, hindividuals, hactions⟩ := declare_other (o := o) h.1
    obtain ⟨hname', hpredicates', hindividuals', hactions'⟩ := ih (o := o.declare d) h.2
    exact ⟨hname'.trans hname, hpredicates'.trans hpredicates, hindividuals'.trans hindividuals,
      hactions'.trans hactions⟩

/-- Declarations of names that do not occur in a text leave what is said of its parts. -/
theorem agreesOn_declareAll {text : Text} {declarations : List Declaration}
    (hd : ∀ d ∈ declarations, ¬ d.name <:+: text)
    (hs : o.hasSort .string = (o.declareAll declarations).hasSort .string) :
    o.AgreesOn (o.declareAll declarations) text := by
  have hw : ∀ w, w <:+: text → ∀ d ∈ declarations, w ≠ d.name := by
    rintro w hw d hm rfl
    exact hd d hm hw
  constructor
  · exact (declareAll_other (hw [] List.nil_infix)).1.symm
  · exact hs
  · intro w h
    exact (declareAll_other (hw w h)).2.1.symm
  · intro w h
    exact (declareAll_other (hw w h)).2.2.1.symm
  · intro w h
    exact (declareAll_other (hw w h)).2.2.2.symm

end Ontology

namespace Engine

variable {e e' : Engine} {text : Text}

/-- Two engines with the rules of the grammar, whose ontologies answer alike for a text. -/
structure AgreesOn (e e' : Engine) (text : Text) : Prop where
  rules : e.rules = Grammar.rules
  rules' : e'.rules = Grammar.rules
  setting : e.setting.AgreesOn e'.setting text

theorem AgreesOn.mono {t : Text} (h : e.AgreesOn e' text) (ht : t <:+: text) : e.AgreesOn e' t :=
  ⟨h.rules, h.rules', h.setting.mono ht⟩

theorem descends_of_rules (h : e.rules = Grammar.rules) : e.Descends := by
  intro rule hrule text
  rw [h] at hrule
  exact Grammar.rules_asks e.setting text hrule

theorem AgreesOn.select (h : e.AgreesOn e' text)
    (hm : ∀ t : Text, t.Inside text → e.meaning.AgreesAt e'.meaning t) :
    e.select e.meaning text = e'.select e'.meaning text := by
  have hfirst : Rule.firstOf e.rules e.setting text = Rule.firstOf e'.rules e'.setting text := by
    rw [Rule.firstOf, Rule.firstOf, h.rules, h.rules']
    congr 1
    apply List.map_congr_left
    intro rule hrule
    exact Grammar.rules_congr h.setting hrule
  have hname : e.setting.ontology.describe = e'.setting.ontology.describe := by
    rw [Ontology.describe, Ontology.describe, h.setting.ontology.name]
  rw [(descends_of_rules h.rules).select_congr hm, Engine.select, Engine.select, hfirst, hname]

theorem AgreesOn.meaning (h : e.AgreesOn e' text) : e.meaning.AgreesAt e'.meaning text := by
  induction hn : text.length using Nat.strong_induction_on generalizing text with
  | _ n ih =>
    subst hn
    have hm : ∀ t : Text, t.Inside text → e.meaning.AgreesAt e'.meaning t := by
      intro t ht
      exact ih t.length ht.2 (h.mono ht.1) rfl
    have he := descends_of_rules h.rules
    have he' := descends_of_rules h.rules'
    constructor
    · rw [he.meaning_object, he'.meaning_object, h.select hm]
    · rw [he.meaning_proposition, he'.meaning_proposition,
        ← Grammar.proposition_congr h.setting]
      exact (Grammar.proposition_asks e.setting text).denote_congr hm
    · rw [he.meaning_probe, he'.meaning_probe, h.select hm]

theorem AgreesOn.parameterMeaning {value : Text} (h : e.AgreesOn e' value) (key : Text) :
    e.parameterMeaning key value = e'.parameterMeaning key value := by
  rw [Engine.parameterMeaning, Engine.parameterMeaning]
  cases hg : Grammar.valueGrammars.get? key with
  | none => rfl
  | some grammar =>
    have hasks := Grammar.valueGrammars_asks e.setting value hg
    have hd : (grammar e.setting value).denote e.meaning =
        (grammar e'.setting value).denote e'.meaning := by
      rw [← Grammar.valueGrammars_congr h.setting hg]
      apply hasks.denote_congr
      intro t ht
      exact (h.mono ht.1).meaning
    simp only [hd]

theorem AgreesOn.entriesMeaning (h : e.AgreesOn e' text) {texts : List Text}
    (ht : ∀ entry ∈ texts, entry <:+: text) (found : Parameters) :
    e.entriesMeaning found texts = e'.entriesMeaning found texts := by
  induction texts generalizing found with
  | nil => rfl
  | cons entry rest ih =>
    rw [List.forall_mem_cons] at ht
    rw [Engine.entriesMeaning, Engine.entriesMeaning]
    cases hp : splitPair? entry with
    | none => rfl
    | some pair =>
      obtain ⟨key, value⟩ := pair
      have hv := (splitPair?_inside hp).2.1.trans ht.1
      simp only [(h.mono hv).parameterMeaning, ih ht.2]

theorem AgreesOn.parametersMeaning (h : e.AgreesOn e' text) :
    e.parametersMeaning text = e'.parametersMeaning text := by
  have hentries : ∀ entry ∈ Parser.blockEntries text, entry <:+: text :=
    fun _ => Parser.blockEntries_isInfix
  rw [Engine.parametersMeaning, Engine.parametersMeaning, h.entriesMeaning hentries]

end Engine

namespace Parser

variable {ontology ontology' : Ontology} {config : Config} {p q : Parser}

theorem answers_of_agreesOn {text : Text} (h : ontology.AgreesOn ontology' text)
    (hp : Reachable ontology config p) (hq : Reachable ontology' config q) :
    (p.parse text).1 = (q.parse text).1 ∧
      (p.parseParameters text).1 = (q.parseParameters text).1 := by
  have hk := hp.continues
  have hk' := hq.continues
  have he : (engine ⟨ontology, config, {}⟩).AgreesOn (engine ⟨ontology', config, {}⟩) text :=
    ⟨rfl, rfl, h, rfl⟩
  constructor
  · rw [(hk.parse text).1, (hk'.parse text).1, he.meaning.object]
  · rw [(hk.parseParameters text).1, (hk'.parseParameters text).1, he.parametersMeaning]

/-- Parsers over two ontologies answer alike for a text of whose parts the ontologies say the same.
So declarations of names that do not occur in the text change nothing, unless they introduce or
remove the sort of strings. -/
theorem parse_local (hp : Reachable ontology config p) (text : Text) :
    (∀ ontology' q, ontology.AgreesOn ontology' text → Reachable ontology' config q →
      (p.parse text).1 = (q.parse text).1 ∧
        (p.parseParameters text).1 = (q.parseParameters text).1) ∧
    ∀ (declarations : List Ontology.Declaration) q, (∀ d ∈ declarations, ¬ d.name <:+: text) →
      ontology.hasSort .string = (ontology.declareAll declarations).hasSort .string →
      Reachable (ontology.declareAll declarations) config q →
      (p.parse text).1 = (q.parse text).1 ∧
        (p.parseParameters text).1 = (q.parseParameters text).1 := by
  constructor
  · intro ontology' q h hq
    exact answers_of_agreesOn h hp hq
  · intro declarations q hd hs hq
    exact answers_of_agreesOn (Ontology.agreesOn_declareAll hd hs) hp hq

/-- A question about the price is read alike where hotels can be booked too, although the text
`hotel` is read differently there. -/
theorem parse_local_price :
    let ontology : Ontology := { name := "travel", predicates := [("price", .integer)] }
    let hotels := ontology.declareAll
      [.predicate "hotel" (.custom "place"), .individual "ritz" (.custom "place"), .action "book"]
    let p : Parser := ⟨ontology, {}, {}⟩
    let q := (performAll ⟨hotels, {}, {}⟩ [.parse "hotel"]).2
    let price : Question := .wh (.predicate ⟨"travel", "price", .integer⟩)
    (p.parse "ask(?X.price(X))").1 = .ok (.move (.ask price) none) ∧
      (q.parse "ask(?X.price(X))").1 = .ok (.move (.ask price) none) ∧
      (p.parse "hotel").1 = .error (.through (.noRuleMatched "Ontology(travel)") ["hotel"]) ∧
      (q.parse "hotel").1 = .ok (.predicate ⟨"travel", "hotel", .custom "place"⟩) := by
  intro ontology hotels p q price
  have hp : Reachable ontology {} p := ⟨[], rfl⟩
  have hq : Reachable hotels {} q := ⟨[.parse "hotel"], rfl⟩
  have hask : (p.parse "ask(?X.price(X))").1 = .ok (.move (.ask price) none) := rfl
  obtain ⟨-, hdeclare⟩ := parse_local hp "ask(?X.price(X))"
  have hsame := hdeclare
    [.predicate "hotel" (.custom "place"), .individual "ritz" (.custom "place"), .action "book"] q
    (by decide) rfl hq
  exact ⟨hask, hsame.1.symm.trans hask, rfl, rfl⟩

end Parser

end Parley
