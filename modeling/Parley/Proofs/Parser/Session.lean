import Parley.Parser
import Parley.Proofs.Engine.Coherence

/-! # Sessions

A session is a run of operations on one parser: texts and blocks of parameters are
read, and the cache is cleared, in any order. What was remembered on the way has no
influence on the answers. Each of them is the meaning of its text, which is also
what a new parser answers that remembers nothing.
-/

namespace Parley

namespace Engine

variable (e : Engine)

/-- What an entry `key=value` means. -/
def parameterMeaning (key value : Text) : Except GrammarError ParameterValue :=
  match Grammar.valueGrammars.get? key with
  | none => .error { cause := .unsupportedParameter key value }
  | some grammar =>
    match (grammar e.setting value).denote e.meaning with
    | .value found => .ok found
    | .declined => .error { cause := .invalidParameter key value }
    | .error err => .error (err.within (key ++ '=' :: value))

/-- What entries mean, after parameters that were found before them. -/
def entriesMeaning (found : Parameters) : List Text → Except GrammarError Parameters
  | [] => .ok found
  | entry :: rest =>
    match splitPair? entry with
    | none => .error { cause := .malformedParameter entry }
    | some (key, value) =>
      match e.parameterMeaning key value with
      | .ok v => entriesMeaning (found.insertAscending key v) rest
      | .error err => .error err

def parametersMeaning (block : Text) : Except GrammarError Parameters :=
  (e.entriesMeaning [] (Parser.blockEntries block)).mapError (·.within block)

variable {e}

theorem parameterMeaning_cached (b : Bool) (key value : Text) :
    ({ e with cached := b } : Engine).parameterMeaning key value =
      e.parameterMeaning key value := by
  simp only [parameterMeaning, meaning_cached]

theorem entriesMeaning_cached (b : Bool) (found : Parameters) (texts : List Text) :
    ({ e with cached := b } : Engine).entriesMeaning found texts =
      e.entriesMeaning found texts := by
  induction texts generalizing found with
  | nil => rfl
  | cons entry rest ih => simp only [entriesMeaning, parameterMeaning_cached, ih]

theorem parameterMeaning_ok {key value : Text} {v : ParameterValue}
    (h : e.parameterMeaning key value = .ok v) : ∃ grammar,
      Grammar.valueGrammars.get? key = some grammar ∧
        (grammar e.setting value).denote e.meaning = .value v := by
  unfold parameterMeaning at h
  split at h
  · cases h
  · rename_i grammar hg
    split at h
    · rename_i found hv
      obtain rfl := Except.ok.inj h
      exact ⟨grammar, hg, hv⟩
    · cases h
    · cases h

theorem entriesMeaning_forall {P : Text × ParameterValue → Prop} {texts : List Text}
    {before found : Parameters}
    (hp : ∀ key value v, e.parameterMeaning key value = .ok v → P (key, v))
    (hb : ∀ entry ∈ before, P entry) (h : e.entriesMeaning before texts = .ok found) :
    ∀ entry ∈ found, P entry := by
  induction texts generalizing before with
  | nil =>
    obtain rfl := Except.ok.inj h
    exact hb
  | cons text rest ih =>
    rw [entriesMeaning] at h
    split at h
    · cases h
    · split at h
      · rename_i v hv
        refine ih (fun entry he => ?_) h
        rcases Table.mem_insertAscending he with rfl | he
        · exact hp _ _ v hv
        · exact hb entry he
      · cases h

end Engine

namespace Parser

variable {p q : Parser}

theorem engine_descends (p : Parser) : p.engine.Descends :=
  fun _ hrule text => Grammar.rules_asks p.setting text hrule

theorem blockEntries_isInfix {block entry : Text} (h : entry ∈ blockEntries block) :
    entry <:+: block := by
  have hi : (braced? block.trim).getD block.trim <:+: block.trim := by
    cases hb : braced? block.trim with
    | none => exact List.infix_rfl
    | some inner => exact (braced?_inside hb).1
  exact (splitTopLevel_isInfix h).trans (hi.trans (Text.trim_isInfix block))

/-- A later state of a parser, with a coherent cache. -/
structure Continues (p q : Parser) : Prop where
  ontology : q.ontology = p.ontology
  config : q.config = p.config
  coherent : q.engine.Coherent q.cache

theorem Continues.engine (h : p.Continues q) : q.engine = p.engine := by
  rw [Parser.engine, Parser.engine, setting, setting, h.ontology, h.config]

theorem continues_new (ontology : Ontology) (config : Config) :
    Continues ⟨ontology, config, {}⟩ ⟨ontology, config, {}⟩ :=
  ⟨rfl, rfl, Engine.coherent_empty⟩

theorem Continues.parse (h : p.Continues q) (text : Text) :
    (q.parse text).1 = p.engine.meaning.object text ∧ p.Continues (q.parse text).2 := by
  obtain ⟨hr, hc⟩ := q.engine_descends.parse h.coherent text
  exact ⟨h.engine ▸ hr, h.ontology, h.config, hc⟩

theorem Continues.parameter (h : p.Continues q) (key value : Text) :
    (q.parameter key value).1 = p.engine.parameterMeaning key value ∧
      p.Continues (q.parameter key value).2 := by
  rw [← h.engine, Parser.parameter, Engine.parameterMeaning]
  cases hg : Grammar.valueGrammars.get? key with
  | none => exact ⟨rfl, h⟩
  | some grammar =>
    obtain ⟨hr, hc⟩ := q.engine_descends.read
      (Grammar.valueGrammars_asks q.setting value hg) h.coherent
    change _ = (grammar q.engine.setting value).denote q.engine.meaning at hr
    simp only [← hr]
    rcases hrun : q.engine.read (grammar q.setting value) value q.cache with ⟨_ | _ | _, cache⟩ <;>
      rw [hrun] at hc <;> exact ⟨rfl, h.ontology, h.config, hc⟩

theorem Continues.entries (h : p.Continues q) (found : Parameters) (texts : List Text) :
    (q.entries found texts).1 = p.engine.entriesMeaning found texts ∧
      p.Continues (q.entries found texts).2 := by
  induction texts generalizing q found with
  | nil => exact ⟨rfl, h⟩
  | cons entry rest ih =>
    rw [Parser.entries, Engine.entriesMeaning]
    rcases splitPair? entry with _ | ⟨key, value⟩
    · exact ⟨rfl, h⟩
    · obtain ⟨hr, hk⟩ := h.parameter key value
      simp only [← hr]
      rcases hp : q.parameter key value with ⟨_ | v, q'⟩ <;> rw [hp] at hk
      · exact ⟨rfl, hk⟩
      · exact ih hk _

theorem Continues.parseParameters (h : p.Continues q) (block : Text) :
    (q.parseParameters block).1 = p.engine.parametersMeaning block ∧
      p.Continues (q.parseParameters block).2 := by
  obtain ⟨hr, hk⟩ := h.entries [] (blockEntries block)
  rw [Parser.parseParameters, Engine.parametersMeaning, ← hr]
  rcases he : q.entries [] (blockEntries block) with ⟨_ | found, q'⟩ <;> rw [he] at hk <;>
    exact ⟨rfl, hk⟩

theorem Continues.clear (h : p.Continues q) : p.Continues q.clear :=
  ⟨h.ontology, h.config, Engine.coherent_clear⟩

inductive Operation
  | parse (text : Text)
  | parameters (block : Text)
  | clear

inductive Answer
  | object (result : Except GrammarError Object)
  | parameters (result : Except GrammarError Parameters)
  | cleared

def perform (p : Parser) : Operation → Answer × Parser
  | .parse text => match p.parse text with
    | (result, p) => (.object result, p)
  | .parameters block => match p.parseParameters block with
    | (result, p) => (.parameters result, p)
  | .clear => (.cleared, p.clear)

def performAll (p : Parser) : List Operation → List Answer × Parser
  | [] => ([], p)
  | op :: ops =>
    let (answer, p) := p.perform op
    let (answers, p) := performAll p ops
    (answer :: answers, p)

/-- A state that a new parser can reach. -/
def Reachable (ontology : Ontology) (config : Config) (p : Parser) : Prop :=
  ∃ ops, p = (performAll ⟨ontology, config, {}⟩ ops).2

/-- The answer to an operation by the meanings of texts. -/
def answerMeaning (e : Engine) : Operation → Answer
  | .parse text => .object (e.meaning.object text)
  | .parameters block => .parameters (e.parametersMeaning block)
  | .clear => .cleared

theorem answerMeaning_cached {e : Engine} (b : Bool) (op : Operation) :
    answerMeaning { e with cached := b } op = answerMeaning e op := by
  cases op <;>
    simp only [answerMeaning, Engine.meaning_cached, Engine.parametersMeaning,
      Engine.entriesMeaning_cached]

theorem Continues.perform (h : p.Continues q) (op : Operation) :
    (q.perform op).1 = answerMeaning p.engine op ∧ p.Continues (q.perform op).2 := by
  cases op with
  | parse text =>
    obtain ⟨hr, hk⟩ := h.parse text
    exact ⟨congrArg Answer.object hr, hk⟩
  | parameters block =>
    obtain ⟨hr, hk⟩ := h.parseParameters block
    exact ⟨congrArg Answer.parameters hr, hk⟩
  | clear => exact ⟨rfl, h.clear⟩

theorem Continues.performAll (h : p.Continues q) (ops : List Operation) :
    (q.performAll ops).1 = ops.map (answerMeaning p.engine) ∧
      p.Continues (q.performAll ops).2 := by
  induction ops generalizing q with
  | nil => exact ⟨rfl, h⟩
  | cons op ops ih =>
    obtain ⟨hr, hk⟩ := h.perform op
    obtain ⟨hrs, hks⟩ := ih hk
    exact ⟨congrArg₂ List.cons hr hrs, hks⟩

theorem Reachable.continues {ontology : Ontology} {config : Config}
    (h : Reachable ontology config p) : Continues ⟨ontology, config, {}⟩ p := by
  obtain ⟨ops, rfl⟩ := h
  exact ((continues_new ontology config).performAll ops).2

/-- What holds of a new parser and is kept by every operation holds in every state. -/
theorem Reachable.invariant {ontology : Ontology} {config : Config} {I : Parser → Prop}
    (h : Reachable ontology config p) (hnew : I ⟨ontology, config, {}⟩)
    (hstep : ∀ q op, Continues ⟨ontology, config, {}⟩ q → I q → I (q.perform op).2) : I p := by
  obtain ⟨ops, rfl⟩ := h
  have hrun : ∀ q, Continues ⟨ontology, config, {}⟩ q → I q → I (q.performAll ops).2 := by
    induction ops with
    | nil => exact fun _ _ hi => hi
    | cons op ops ih => exact fun q hk hi => ih _ (hk.perform op).2 (hstep q op hk hi)
  exact hrun _ (continues_new ontology config) hnew

theorem Reachable.parse_ok_iff {ontology : Ontology} {config : Config}
    (h : Reachable ontology config p) {text : Text} {o : Object} :
    (p.parse text).1 = .ok o ↔
      (Rule.firstOf Grammar.rules ⟨ontology, config.domainName⟩ text).denote
        (engine ⟨ontology, config, {}⟩).meaning = .value o := by
  rw [(h.continues.parse text).1]
  exact (engine_descends _).object_eq_ok_iff

theorem Reachable.parse_error {ontology : Ontology} {config : Config}
    (h : Reachable ontology config p) {text : Text} {err : GrammarError}
    (he : (Rule.firstOf Grammar.rules ⟨ontology, config.domainName⟩ text).denote
      (engine ⟨ontology, config, {}⟩).meaning = .error err) :
    (p.parse text).1 = .error (err.within text) := by
  rw [(h.continues.parse text).1]
  exact (engine_descends _).object_of_error he

theorem Reachable.parse_declined {ontology : Ontology} {config : Config}
    (h : Reachable ontology config p) {text : Text}
    (hd : (Rule.firstOf Grammar.rules ⟨ontology, config.domainName⟩ text).denote
      (engine ⟨ontology, config, {}⟩).meaning = .declined) :
    (p.parse text).1 = .error (.through (.noRuleMatched ontology.describe) [text]) := by
  rw [(h.continues.parse text).1]
  exact (engine_descends _).object_of_declined hd

/-- Whatever was read or cleared before, each answer is the one of a new parser that remembers
nothing, and each remembered object is what such a parser reads. -/
theorem performAll_eq_uncached (ontology : Ontology) (config : Config) (ops : List Operation) :
    let uncached : Parser := ⟨ontology, { config with cacheEnabled := false }, {}⟩
    let session := performAll ⟨ontology, config, {}⟩ ops
    session.1 = ops.map (fun op => (uncached.perform op).1) ∧
      ∀ entry ∈ session.2.cache.entries, (uncached.parse entry.1.text).1 = .ok entry.2 := by
  intro uncached session
  have hp := continues_new ontology config
  have hq := continues_new ontology { config with cacheEnabled := false }
  obtain ⟨hr, hk⟩ := hp.performAll ops
  constructor
  · refine hr.trans (List.map_congr_left fun op _ => ?_)
    rw [(hq.perform op).1]
    exact (answerMeaning_cached false op).symm
  · intro entry he
    have hm := hk.coherent entry he
    rw [hk.engine] at hm
    rw [(hq.parse entry.1.text).1, ← hm]
    have hu := Engine.meaning_cached (e := engine ⟨ontology, config, {}⟩) false
    exact congrFun (congrArg Meaning.object hu) entry.1.text

end Parser

end Parley
