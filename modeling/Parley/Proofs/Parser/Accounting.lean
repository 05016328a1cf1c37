import Parley.Proofs.Engine.Accounting
import Parley.Proofs.Parser.Session

/-! # The cache over a session

Every operation that reads has a log of its lookups, which accounts for what it does to
the cache, whether it succeeds or fails. Objects are only ever added, each for a part of
the text that is read, and each for one miss. A parser that is told not to remember
anything counts nothing.
-/

namespace Parley

namespace Parser

variable {ontology : Ontology} {config : Config} {p : Parser}

def parameterLookups (p : Parser) (key value : Text) : List Lookup :=
  match Grammar.valueGrammars.get? key with
  | none => []
  | some grammar => p.engine.readLookups (grammar p.setting value) value p.cache

/-- The lookups of entries of a block, up to the first that fails. -/
def entriesLookups (p : Parser) : List Text → List Lookup
  | [] => []
  | entry :: rest =>
    match splitPair? entry with
    | none => []
    | some (key, value) =>
      p.parameterLookups key value ++
        match p.parameter key value with
        | (.ok _, p) => entriesLookups p rest
        | (.error _, _) => []

def lookups (p : Parser) : Operation → List Lookup
  | .parse text => p.engine.parseLookups text p.cache
  | .parameters block => p.entriesLookups (blockEntries block)
  | .clear => []

theorem parameter_accounts (p : Parser) (key value : Text) :
    p.cache.Accounts (· <:+: value) (p.parameterLookups key value)
      (p.parameter key value).2.cache := by
  rw [parameterLookups, parameter]
  cases hg : Grammar.valueGrammars.get? key with
  | none => exact .refl _ p.cache
  | some grammar =>
    have hread := p.engine_descends.read_accounts
      (Grammar.valueGrammars_asks p.setting value hg) p.cache
    simp only
    rcases hr : p.engine.read (grammar p.setting value) value p.cache with ⟨_ | _ | _, cache⟩ <;>
      rw [hr] at hread <;> exact hread

theorem entries_accounts {block : Text} {texts : List Text}
    (ht : ∀ entry ∈ texts, entry <:+: block) (p : Parser) (found : Parameters) :
    p.cache.Accounts (· <:+: block) (p.entriesLookups texts) (p.entries found texts).2.cache := by
  induction texts generalizing p found with
  | nil => exact .refl _ p.cache
  | cons entry rest ih =>
    rw [List.forall_mem_cons] at ht
    rw [entriesLookups, entries]
    cases hs : splitPair? entry with
    | none => exact .refl _ p.cache
    | some pair =>
      obtain ⟨key, value⟩ := pair
      have hvalue : value <:+: block := (splitPair?_inside hs).2.1.trans ht.1
      have hparameter := (p.parameter_accounts key value).mono fun t h => h.trans hvalue
      simp only
      rcases hr : p.parameter key value with ⟨_ | v, q⟩ <;> rw [hr] at hparameter
      · exact hparameter.trans (.refl _ q.cache)
      · exact hparameter.trans (ih ht.2 q _)

def Operation.text? : Operation → Option Text
  | .parse text => some text
  | .parameters block => some block
  | .clear => none

/-- The lookups of an operation that reads concern parts of its text, and they account for what it
does to the cache. -/
theorem perform_accounts (p : Parser) {op : Operation} {text : Text} (h : op.text? = some text) :
    p.cache.Accounts (· <:+: text) (p.lookups op) (p.perform op).2.cache := by
  cases op with
  | parse t =>
    obtain rfl := Option.some.inj h
    exact p.engine_descends.parse_accounts t p.cache
  | parameters block =>
    obtain rfl := Option.some.inj h
    have hinfix : ∀ entry ∈ blockEntries block, entry <:+: block := fun _ => blockEntries_isInfix
    have hentries := entries_accounts hinfix p []
    simp only [perform, parseParameters]
    rcases hr : p.entries [] (blockEntries block) with ⟨_ | found, q⟩ <;> rw [hr] at hentries <;>
      exact hentries
  | clear => cases h

theorem parameter_config (p : Parser) (key value : Text) :
    (p.parameter key value).2.config = p.config := by
  rw [parameter]
  cases Grammar.valueGrammars.get? key with
  | none => rfl
  | some grammar =>
    simp only
    rcases p.engine.read (grammar p.setting value) value p.cache with ⟨_ | _ | _, cache⟩ <;> rfl

theorem entriesLookups_uncached (h : p.config.cacheEnabled = false) (texts : List Text) :
    p.entriesLookups texts = [] := by
  induction texts generalizing p with
  | nil => rfl
  | cons entry rest ih =>
    rw [entriesLookups]
    cases splitPair? entry with
    | none => rfl
    | some pair =>
      obtain ⟨key, value⟩ := pair
      have hparameter : p.parameterLookups key value = [] := by
        rw [parameterLookups]
        cases Grammar.valueGrammars.get? key with
        | none => rfl
        | some grammar => exact Engine.readLookups_uncached h _ value p.cache
      have hconfig := p.parameter_config key value
      simp only [hparameter, List.nil_append]
      rcases hr : p.parameter key value with ⟨_ | v, q⟩
      · rfl
      · rw [hr] at hconfig
        exact ih (hconfig ▸ h)

theorem lookups_uncached (h : p.config.cacheEnabled = false) (op : Operation) :
    p.lookups op = [] := by
  cases op with
  | parse text => exact Engine.parseLookups_uncached h text p.cache
  | parameters block => exact entriesLookups_uncached h (blockEntries block)
  | clear => rfl

theorem cache_uncached (hp : Reachable ontology config p) (h : config.cacheEnabled = false) :
    p.cache = {} := by
  refine @Reachable.invariant p ontology config (·.cache = {}) hp rfl fun q op hk hq => ?_
  have hlog : q.lookups op = [] := lookups_uncached (hk.config ▸ h) op
  cases ht : op.text? with
  | some text =>
    have ha := q.perform_accounts ht
    rw [hlog] at ha
    rw [ha.eq_of_nil, hq]
  | none =>
    cases op with
    | clear =>
      change q.cache.clear = {}
      rw [hq]
      rfl
    | parse | parameters => cases ht

theorem size_le_misses (hp : Reachable ontology config p) : p.cache.size ≤ p.cache.misses := by
  refine @Reachable.invariant p ontology config (fun q => q.cache.size ≤ q.cache.misses) hp
    (Nat.le_refl 0) fun q op _ hq => ?_
  cases ht : op.text? with
  | some text =>
    have ha := q.perform_accounts ht
    have hread := Lookup.countP_isRead_le (q.lookups op)
    rw [Cache.size] at hq ⊢
    rw [ha.entries, ha.misses, List.length_append, Lookup.length_filterMap_remembered?]
    omega
  | none =>
    cases op with
    | clear => exact Nat.zero_le _
    | parse | parameters => cases ht

theorem perform_counts (p : Parser) (op : Operation) :
    (p.perform op).2.stats.hits = p.stats.hits + (p.lookups op).countP Lookup.isHit ∧
      (p.perform op).2.stats.misses =
        p.stats.misses + (p.lookups op).countP fun lookup => !lookup.isHit := by
  cases ht : op.text? with
  | some text => exact ⟨(p.perform_accounts ht).hits, (p.perform_accounts ht).misses⟩
  | none =>
    cases op with
    | clear => exact ⟨rfl, rfl⟩
    | parse | parameters => cases ht

def sessionLookups (p : Parser) : List Operation → List Lookup
  | [] => []
  | op :: ops => p.lookups op ++ sessionLookups (p.perform op).2 ops

/-- Over a session, the counts grow by its hits and its misses. -/
theorem performAll_counts (p : Parser) (ops : List Operation) :
    (p.performAll ops).2.stats.hits =
        p.stats.hits + (p.sessionLookups ops).countP Lookup.isHit ∧
      (p.performAll ops).2.stats.misses =
        p.stats.misses + (p.sessionLookups ops).countP fun lookup => !lookup.isHit := by
  induction ops generalizing p with
  | nil => exact ⟨rfl, rfl⟩
  | cons op ops ih =>
    obtain ⟨hhits, hmisses⟩ := p.perform_counts op
    obtain ⟨ihhits, ihmisses⟩ := ih (p.perform op).2
    rw [sessionLookups, List.countP_append, List.countP_append]
    constructor
    · rw [← Nat.add_assoc, ← hhits]
      exact ihhits
    · rw [← Nat.add_assoc, ← hmisses]
      exact ihmisses

/-- A counter of 64 bits, incremented at each lookup of one kind, does not wrap around while fewer
than 2^64 lookups are made: from a new parser on, it holds the count. -/
theorem performAll_counters {ops : List Operation}
    (h : (sessionLookups ⟨ontology, config, {}⟩ ops).length < UInt64.size) :
    let log := sessionLookups ⟨ontology, config, {}⟩ ops
    let stats := (performAll ⟨ontology, config, {}⟩ ops).2.stats
    (Lookup.counter Lookup.isHit log).toNat = stats.hits ∧
      (Lookup.counter (fun lookup => !lookup.isHit) log).toNat = stats.misses ∧
      stats.hits + stats.misses = log.length := by
  intro log stats
  obtain ⟨hhits, hmisses⟩ := performAll_counts ⟨ontology, config, {}⟩ ops
  have hnew : (⟨ontology, config, {}⟩ : Parser).stats = ⟨0, 0, 0⟩ := rfl
  rw [hnew, Nat.zero_add] at hhits hmisses
  rw [Lookup.toNat_counter h, Lookup.toNat_counter h, hhits, hmisses]
  refine ⟨rfl, rfl, ?_⟩
  rw [log.length_eq_countP_add_countP Lookup.isHit]
  simp [log]

theorem parse_again (h : p.config.cacheEnabled = true) {text : Text} {o : Object}
    (ho : (p.parse text).1 = .ok o) :
    let q := (p.parse text).2
    (q.parse text).1 = .ok o ∧
      (q.parse text).2.stats = { q.stats with hits := q.stats.hits + 1 } := by
  intro q
  have hfound : q.cache.object? text = some o := Engine.object?_parse h ho
  have hparse := Engine.parse_of_object? (e := q.engine) h hfound
  constructor
  · change (q.engine.parse text q.cache).1 = _
    rw [hparse]
  · change (q.engine.parse text q.cache).2.stats = _
    rw [hparse]
    rfl

/-- In every state: a disabled cache has counted nothing, and there are no more objects than misses.
Reading a text or a block, with whatever result, adds to the counts what its lookups were, keeps all
objects, and adds one for each text that was missed and then read, which is a part of what is read.
Reading the same text again is one hit, and clearing keeps the counts. -/
theorem cache_accounting (hp : Reachable ontology config p) :
    (config.cacheEnabled = false → p.stats = ⟨0, 0, 0⟩) ∧
    p.stats.entries ≤ p.stats.misses ∧
    (∀ op text, op.text? = some text →
      let q := (p.perform op).2
      let log := p.lookups op
      q.stats.hits = p.stats.hits + log.countP Lookup.isHit ∧
        q.stats.misses = p.stats.misses + log.countP (fun lookup => !lookup.isHit) ∧
        q.stats.entries = p.stats.entries + log.countP Lookup.isRead ∧
        (∀ t o, .read t o ∈ log → p.cache.object? t = none ∧ (p.parse t).1 = .ok o) ∧
        (∀ t o, p.cache.object? t = some o → q.cache.object? t = some o) ∧
        ∀ t o, q.cache.object? t = some o → p.cache.object? t = none →
          t <:+: text ∧ .read t o ∈ log) ∧
    (config.cacheEnabled = true → ∀ text o, (p.parse text).1 = .ok o →
      let q := (p.parse text).2
      (q.parse text).1 = .ok o ∧
        (q.parse text).2.stats = { q.stats with hits := q.stats.hits + 1 }) ∧
    p.clear.stats = { p.stats with entries := 0 } := by
  refine ⟨fun h => ?_, size_le_misses hp, fun op text ht => ?_, fun h text o => ?_, rfl⟩
  · rw [stats, cache_uncached hp h]
    rfl
  · intro q log
    have ha := p.perform_accounts ht
    refine ⟨ha.hits, ha.misses, ?_, fun t o hl => ⟨ha.fresh t o hl, ?_⟩,
      fun t o => ha.object?_of_some, fun t o hq hnone => ?_⟩
    · change q.cache.entries.length = p.cache.entries.length + _
      rw [ha.entries, List.length_append, Lookup.length_filterMap_remembered?]
    · have hk := (hp.continues.perform op).2
      rw [(hp.continues.parse t).1, ← hk.engine]
      exact hk.coherent _ (ha.mem_of_read hl)
    · have hread := ha.read_of_object? hnone hq
      exact ⟨ha.texts _ hread, hread⟩
  · exact parse_again (hp.continues.config ▸ h)

/-- After a sequence that failed at its last word, an answer finds the word that was read on the way
and reads three more texts; reading it again is one hit. -/
theorem cache_accounting_answer :
    let p := (performAll ⟨{ name := "travel" }, {}, {}⟩ [.parse "[yes, answer(rome)]"]).2
    let q := (p.parse "answer([yes, no])").2
    p.stats = ⟨0, 4, 1⟩ ∧
      (q.stats.hits = 1 ∧ q.stats.misses = 7 ∧ q.stats.entries = 4) ∧
      q.cache.object? "yes" = some .yes ∧
      (q.parse "answer([yes, no])").2.stats = { q.stats with hits := q.stats.hits + 1 } ∧
      p.clear.stats = ⟨0, 4, 0⟩ := by
  intro p q
  have hp : Reachable { name := "travel" } {} p := ⟨[.parse "[yes, answer(rome)]"], rfl⟩
  have hstats : p.stats = ⟨0, 4, 1⟩ := by decide +kernel
  have hlog : (p.lookups (.parse "answer([yes, no])")).countP Lookup.isHit = 1 ∧
      (p.lookups (.parse "answer([yes, no])")).countP (fun lookup => !lookup.isHit) = 3 ∧
      (p.lookups (.parse "answer([yes, no])")).countP Lookup.isRead = 3 := by decide +kernel
  have hanswer : (p.parse "answer([yes, no])").1 =
      .ok (.move (.answer (.sequence [.yes, .no])) none) := rfl
  obtain ⟨-, -, hreads, hagain, hclear⟩ := cache_accounting hp
  obtain ⟨hhits, hmisses, hentries, -, hkept, -⟩ := hreads (.parse "answer([yes, no])") _ rfl
  rw [hstats] at hhits hmisses hentries hclear
  rw [hlog.1] at hhits
  rw [hlog.2.1] at hmisses
  rw [hlog.2.2] at hentries
  refine ⟨hstats, ⟨hhits, hmisses, hentries⟩, hkept "yes" .yes rfl, ?_, hclear⟩
  exact (hagain rfl "answer([yes, no])" _ hanswer).2

end Parser

end Parley
