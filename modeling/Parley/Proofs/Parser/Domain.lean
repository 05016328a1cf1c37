import Parley.Proofs.Engine.Parallel
import Parley.Proofs.Grammar.Stamp
import Parley.Proofs.Parser.Container

/-! # Sessions in two configurations

Two parsers over one ontology that are told the same give the same answers, up to the domain
that each of them puts into plan items. The name of the dialogue domain description has no
influence at all.
-/

namespace Parley

def Table.mapValues {κ α β : Type} (f : α → β) (table : Table κ α) : Table κ β :=
  table.map fun entry => (entry.1, f entry.2)

theorem Table.Alike.eq_mapValues {κ α β : Type} {R : α → β → Prop} {f : α → β}
    {table : Table κ α} {table' : Table κ β} (h : table.Alike R table')
    (hf : ∀ {a b}, R a b → b = f a) : table' = table.mapValues f := by
  induction h with
  | nil => rfl
  | cons hentry _ ih => exact congrArg₂ List.cons (Prod.ext hentry.1.symm (hf hentry.2)) ih

namespace Parser

variable {d d' : Option Text} {p p' : Parser}

/-- Parsers in two domains that have read alike. -/
structure Twins (d d' : Option Text) (p p' : Parser) : Prop where
  ontology : p'.ontology = p.ontology
  cached : p'.config.cacheEnabled = p.config.cacheEnabled
  domain : p.config.domainName = d
  domain' : p'.config.domainName = d'
  cache : p.cache.Alike (Restamped Object.stamp d d') p'.cache

namespace Twins

theorem setting (h : Twins d d' p p') :
    p.setting = ⟨p.ontology, d⟩ ∧ p'.setting = ⟨p.ontology, d'⟩ := by
  rw [Parser.setting, Parser.setting, h.ontology, h.domain, h.domain']
  exact ⟨rfl, rfl⟩

theorem engine (h : Twins d d' p p') : Engine.Parallel (stamping d d') p.engine p'.engine := by
  obtain ⟨hs, hs'⟩ := h.setting
  refine ⟨fun text => ?_, fun text => ?_, ?_, h.cached.symm⟩
  · simp only [Parser.engine, hs, hs']
    exact .firstOf_map fun _ hr => Grammar.rules_stamped hr
  · simp only [Parser.engine, hs, hs']
    exact Grammar.proposition_stamped
  · simp only [Parser.engine, hs, hs']

theorem withCache (h : Twins d d' p p') {cache cache' : Cache}
    (hc : cache.Alike (Restamped Object.stamp d d') cache') :
    Twins d d' { p with cache := cache } { p' with cache := cache' } :=
  ⟨h.ontology, h.cached, h.domain, h.domain', hc⟩

theorem parse (h : Twins d d' p p') (text : Text) :
    ResultsAlike (Restamped Object.stamp d d') (Twins d d') (p.parse text) (p'.parse text) := by
  have hr := h.engine.parse text h.cache
  rw [Parser.parse, Parser.parse]
  generalize p.engine.parse text p.cache = x at hr
  generalize p'.engine.parse text p'.cache = x' at hr
  cases hr with
  | ok ho hc => exact .ok ho (h.withCache hc)
  | error e hc => exact .error e (h.withCache hc)

theorem parameter (h : Twins d d' p p') (key value : Text) :
    ResultsAlike (Restamped ParameterValue.stamp d d') (Twins d d') (p.parameter key value)
      (p'.parameter key value) := by
  rw [Parser.parameter, Parser.parameter]
  cases hg : Grammar.valueGrammars.get? key with
  | none => exact .error _ h
  | some grammar =>
    obtain ⟨hs, hs'⟩ := h.setting
    have hgrammar : Reading.Parallel (stamping d d') (Restamped ParameterValue.stamp d d')
        (grammar p.setting value) (grammar p'.setting value) := by
      rw [hs, hs']
      exact Grammar.valueGrammars_stamped hg
    have hr := h.engine.read hgrammar value h.cache
    simp only
    generalize p.engine.read (grammar p.setting value) value p.cache = x at hr
    generalize p'.engine.read (grammar p'.setting value) value p'.cache = x' at hr
    cases hr with
    | value hv hc => exact .ok hv (h.withCache hc)
    | declined hc => exact .error _ (h.withCache hc)
    | error e hc => exact .error _ (h.withCache hc)

theorem entries (h : Twins d d' p p') {found found' : Parameters}
    (hf : found.Alike (Restamped ParameterValue.stamp d d') found') (texts : List Text) :
    ResultsAlike (Table.Alike (Restamped ParameterValue.stamp d d')) (Twins d d')
      (p.entries found texts) (p'.entries found' texts) := by
  induction texts generalizing p p' found found' with
  | nil => exact .ok hf h
  | cons entry rest ih =>
    rw [Parser.entries, Parser.entries]
    rcases splitPair? entry with _ | ⟨key, value⟩
    · exact .error _ h
    · have hr := h.parameter key value
      simp only
      generalize p.parameter key value = x at hr
      generalize p'.parameter key value = x' at hr
      cases hr with
      | ok hv hk => exact ih hk (hf.insertAscending key hv)
      | error e hk => exact .error e hk

theorem parseParameters (h : Twins d d' p p') (block : Text) :
    ResultsAlike (Table.Alike (Restamped ParameterValue.stamp d d')) (Twins d d')
      (p.parseParameters block) (p'.parseParameters block) := by
  have hnil : Table.Alike (Restamped ParameterValue.stamp d d') [] ([] : Parameters) := .nil
  have hr := h.entries hnil (blockEntries block)
  rw [Parser.parseParameters, Parser.parseParameters]
  generalize p.entries [] (blockEntries block) = x at hr
  generalize p'.entries [] (blockEntries block) = x' at hr
  cases hr with
  | ok hf hk => exact .ok hf hk
  | error e hk => exact .error _ hk

theorem perform (h : Twins d d' p p') (op : Operation) :
    Twins d d' (p.perform op).2 (p'.perform op).2 := by
  cases op with
  | parse text => exact (h.parse text).state
  | parameters block => exact (h.parseParameters block).state
  | clear => exact h.withCache h.cache.clear

theorem performAll (h : Twins d d' p p') (ops : List Operation) :
    Twins d d' (p.performAll ops).2 (p'.performAll ops).2 := by
  induction ops generalizing p p' with
  | nil => exact h
  | cons op ops ih => exact ih (h.perform op)

theorem parse_eq (h : Twins d d' p p') (text : Text) :
    (p'.parse text).1 = (p.parse text).1.map (·.stamp d') :=
  (h.parse text).eq_map (·.eq_stamp (Object.stamp_stamp d d'))

theorem parseParameters_eq (h : Twins d d' p p') (block : Text) :
    (p'.parseParameters block).1 =
      (p.parseParameters block).1.map (Table.mapValues (·.stamp d')) :=
  (h.parseParameters block).eq_map
    (·.eq_mapValues (·.eq_stamp (ParameterValue.stamp_stamp d d')))

end Twins

theorem twins_new (ontology : Ontology) {config config' : Config}
    (h : config.cacheEnabled = config'.cacheEnabled) :
    Twins config.domainName config'.domainName ⟨ontology, config, {}⟩ ⟨ontology, config', {}⟩ :=
  ⟨rfl, h.symm, rfl, rfl, .empty⟩

/-- Two new parsers over one ontology, of which both remember what they read or neither does, are
told the same. Then the second answers what the first answers, with the second's domain in all
plan items that raise questions and with the same errors; it has counted the same, and it remembers
the same objects in its domain. In one domain the answers are equal, whichever dialogue domain
descriptions the parsers serve. -/
theorem parse_stamp (ontology : Ontology) (config config' : Config)
    (h : config.cacheEnabled = config'.cacheEnabled) (ops : List Operation) :
    let p := (performAll ⟨ontology, config, {}⟩ ops).2
    let p' := (performAll ⟨ontology, config', {}⟩ ops).2
    (∀ text, (p'.parse text).1 = (p.parse text).1.map (·.stamp config'.domainName)) ∧
      (∀ block, (p'.parseParameters block).1 =
        (p.parseParameters block).1.map (Table.mapValues (·.stamp config'.domainName))) ∧
      p'.stats = p.stats ∧
      p'.cache.entries = p.cache.entries.mapValues (·.stamp config'.domainName) ∧
      (config.domainName = config'.domainName →
        (∀ text, (p'.parse text).1 = (p.parse text).1) ∧
          ∀ block, (p'.parseParameters block).1 = (p.parseParameters block).1) := by
  intro p p'
  have ht := (twins_new ontology h).performAll ops
  refine ⟨ht.parse_eq, ht.parseParameters_eq, ht.cache.stats.symm,
    ht.cache.entries.eq_mapValues (·.eq_stamp (Object.stamp_stamp _ _)), fun hd => ?_⟩
  -- The first parser is a twin of itself, so its own domain leaves its answers as they are.
  have hself := (twins_new ontology (rfl : config.cacheEnabled = _)).performAll ops
  rw [← hd] at ht
  constructor
  · intro text
    exact (ht.parse_eq text).trans (hself.parse_eq text).symm
  · intro block
    exact (ht.parseParameters_eq block).trans (hself.parseParameters_eq block).symm

/-- A set with a plan item twice, in a domain and in none, after a text that denotes nothing. -/
theorem parse_stamp_set :
    let ontology : Ontology := { name := "travel", predicates := [("dry", .boolean)] }
    let config : Config := { dddName := "rail", domainName := some "trips" }
    let config' : Config := { dddName := "air" }
    let p := (performAll ⟨ontology, config, {}⟩ [.parse "[no,rome]"]).2
    let p' := (performAll ⟨ontology, config', {}⟩ [.parse "[no,rome]"]).2
    let dry : Question := .yesNo (.predicate ⟨"travel", "dry", .boolean⟩ none .pos)
    let items (domain : Option Text) : List Object :=
      [.planItem (.findout domain dry), .planItem (.raise domain dry)]
    (p.parse "{findout(?dry),raise(?dry),findout(?dry)}").1 = .ok (.set (items (some "trips"))) ∧
      (p'.parse "{findout(?dry),raise(?dry),findout(?dry)}").1 = .ok (.set (items none)) ∧
      (p'.parse "?rome").1 =
        .error (.through (.noRuleMatched "Ontology(travel)") ["rome", "?rome"]) ∧
      p.stats = ⟨0, 3, 1⟩ ∧ p'.stats = ⟨0, 3, 1⟩ := by
  intro ontology config config' p p' dry items
  have hq : Reachable ontology config ⟨ontology, config, {}⟩ := ⟨[], rfl⟩
  have hp : Reachable ontology config p := ⟨[.parse "[no,rome]"], rfl⟩
  have hrules : Rule.firstOf Grammar.rules ⟨ontology, config.domainName⟩
      "{findout(?dry),raise(?dry),findout(?dry)}" =
        (fun found => .set (Collection.ofList found)) <$>
          Reading.each Reading.readObject ["findout(?dry)", "raise(?dry)", "findout(?dry)"] :=
    Grammar.firstOf_rules_braced (by decide) "findout(?dry),raise(?dry),findout(?dry)"
  have hdistinct : Collection.ofList
      (items (some "trips") ++ [.planItem (.findout (some "trips") dry)]) =
        items (some "trips") := rfl
  have hset : (p.parse "{findout(?dry),raise(?dry),findout(?dry)}").1 =
      .ok (.set (items (some "trips"))) := by
    rw [← hdistinct]
    exact (parse_of_items hrules hq hp).1 _ (.cons rfl (.cons rfl (.cons rfl .nil)))
  have herror : (p.parse "?rome").1 =
      .error (.through (.noRuleMatched "Ontology(travel)") ["rome", "?rome"]) := by
    rw [(hp.continues.parse "?rome").1, ← (hq.continues.parse "?rome").1]
    rfl
  have hcounts : p.stats = ⟨0, 3, 1⟩ := by decide +kernel
  obtain ⟨hparse, -, hstats, -, -⟩ :=
    parse_stamp ontology config config' rfl [.parse "[no,rome]"]
  refine ⟨hset, ?_, ?_, hcounts, hstats.trans hcounts⟩
  · refine (hparse "{findout(?dry),raise(?dry),findout(?dry)}").trans ?_
    rw [hset]
    rfl
  · refine (hparse "?rome").trans ?_
    rw [herror]
    rfl

end Parser

end Parley
