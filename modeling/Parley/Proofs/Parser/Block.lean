import Parley.Proofs.Grammar.Fields
import Parley.Proofs.Parser.Decoration
import Parley.Proofs.Parser.Question

/-! # Moves and invocations with a block

A decorated move takes the realization data of its block, and an invocation of an action
takes the options of its block. Each fails with the cause that the block gives. Whatever
stands between quotes in a block, neither the entries nor the call around it end there.
-/

namespace Parley

def Text.invocation (name block : Text) : Text :=
  Text.call "invoke_service_action" (name ++ ", " ++ ('{' :: block ++ ['}']))

def Text.decorated (move block : Text) : Text :=
  Text.call "Move" (move ++ ", " ++ block)

namespace Grammar

open Reading

variable {s : Setting} {name block : Text}

theorem invokeServiceAction_invocation (hn : isWord name = true) (hb : isBalanced block = true) :
    invokeServiceAction s (Text.invocation name block) =
      Reading.ofExcept ((serviceActionOptions block).map fun options =>
        Object.planItem (.invokeServiceAction s.ontology.name name options)) := by
  have hm := mark_of_isWord hn
  have hbraces : isBalanced ('{' :: block ++ ['}']) = true :=
    isBalanced_enclosed [] (by simp) (by simp) hb
  have htrim : Text.trim ('{' :: block ++ ['}']) = '{' :: block ++ ['}'] :=
    Text.trim_enclosed rfl rfl block
  have hbraced : braced? ('{' :: block ++ ['}']) = some block := braced?_eq_some_iff.mpr rfl
  rw [invokeServiceAction, serviceAction, Text.invocation,
    call?_call (by rw [isBalanced_name hm, hbraces])]
  change (ofOption (splitFirst? ',' _) >>= _ : Reading Object) = _
  rw [splitFirst?_name hm, htrim]
  change (ofOption (braced? _) >>= _ : Reading Object) = _
  rw [hbraced]
  change (guard (isWord name) >>= _ : Reading Object) = _
  rw [hn]
  cases serviceActionOptions block <;> rfl

end Grammar

namespace Parser

open Reading

variable {ontology : Ontology} {config : Config} {p q : Parser}

/-- Where a rule for moves or plan items gives an object or a cause of its own, the parser answers
with it. -/
theorem Reachable.parse_of_except (hp : Reachable ontology config p) {text : Text} (rule : Rule)
    (hr : rule ∈ Grammar.moveRules ++ Grammar.planRules) {result : Except Cause Object}
    (h : (rule ⟨ontology, config.domainName⟩ text).denote
      (engine ⟨ontology, config, {}⟩).meaning =
        (Reading.ofExcept result).denote (engine ⟨ontology, config, {}⟩).meaning) :
    (p.parse text).1 = result.mapError fun cause => .through cause [text] := by
  have hne : (rule ⟨ontology, config.domainName⟩ text).denote
      (engine ⟨ontology, config, {}⟩).meaning ≠ .declined := by
    rw [h]
    cases result <;> rintro ⟨⟩
  have hfirst := (Grammar.firstOf_rules_denote_eq rule hr hne).trans h
  cases result with
  | ok o => exact hp.parse_ok_iff.mpr hfirst
  | error cause => exact hp.parse_error hfirst

theorem parse_invocation (hp : Reachable ontology config p) {name block : Text}
    (hn : isWord name = true) (hb : isBalanced block = true) :
    (p.parse (Text.invocation name block)).1 =
      ((Grammar.serviceActionOptions block).map fun options =>
        Object.planItem (.invokeServiceAction ontology.name name options)).mapError
          fun cause => .through cause [Text.invocation name block] := by
  apply hp.parse_of_except Grammar.invokeServiceAction (by simp [Grammar.planRules])
  rw [Grammar.invokeServiceAction_invocation hn hb]

theorem parse_decorated_block
    (hnames : ∀ entry ∈ ontology.individuals, isWord entry.1 = true)
    (hp : Reachable ontology config p) (hq : Reachable ontology config q) {move block : Text}
    {o : Object} (hm : isBalanced move = true) (h : (p.parse move).1 = .ok o)
    (ho : o.isMove = true) (hn : block.isBlankText = false) (hb : isBalanced block = true) :
    (q.parse (Text.decorated move block)).1 =
      ((Grammar.realizationData block).map o.decorate).mapError
        fun cause => .through cause [Text.decorated move block] := by
  apply hq.parse_of_except Grammar.decoratedMove (by simp [Grammar.moveRules])
  have hmove : (engine ⟨ontology, config, {}⟩).meaning.object move = .ok o := by
    rw [← h, (hp.continues.parse move).1]
  have hprobe := (engine_descends _).probe_of_object hmove
  have hshaping : shaping.Grants (engine ⟨ontology, config, {}⟩).meaning :=
    Engine.grants_meaning (meaningAt_shaping hnames)
  have hbalanced : isBalanced (move ++ ", " ++ block) = true := by
    rw [isBalanced_append_comma hm, hb]
  rw [Text.decorated, Grammar.decoratedMove_denote_append hshaping _ hbalanced hprobe ho,
    Grammar.decorating, hn]
  cases Grammar.realizationData block <;> rfl

/-- Blocks of realization data and of options are read entry by entry: with valid entries each field
has the value of the last entry with its key, in whatever order entries of different keys stand, and
otherwise the first entry that is not valid decides the error. A quoted text is stored as it is. In
every state an invocation of an action has the options of its block, and a decorated move has the
realization data of its block, or they fail with the error of the block. -/
theorem blocks_override (hp : Reachable ontology config p) (hq : Reachable ontology config q) :
    Grammar.Overrides Grammar.realizationData Grammar.realizationFault?
      Realization.ofKeyValues ∧
    Grammar.Overrides Grammar.serviceActionOptions Grammar.optionFault?
      ServiceActionOptions.ofKeyValues ∧
    (∀ (field : Grammar.QuotedField) (text : Text) (before after : List Text), '"' ∉ text →
      (∀ entry ∈ before ++ after, Grammar.realizationFault? entry = none) →
      (∀ pair ∈ keyValues after, pair.1 ≠ field.key) →
      ∃ data, Grammar.realizationData
          (.join [','] (before ++ Grammar.quotedEntry field.key text :: after)) = .ok data ∧
        field.get data = some text) ∧
    (∀ (name : Text) (entries : List Text), isWord name = true →
      (∀ entry ∈ entries, IsEntry entry) →
      let text := Text.invocation name (.join [','] entries)
      (q.parse text).1 =
        ((Grammar.serviceActionOptions (.join [','] entries)).map fun options =>
          Object.planItem (.invokeServiceAction ontology.name name options)).mapError
            fun cause => .through cause [text]) ∧
    ((∀ entry ∈ ontology.individuals, isWord entry.1 = true) →
      ∀ (move : Text) (o : Object) (entries : List Text), isBalanced move = true →
      (p.parse move).1 = .ok o → o.isMove = true → entries ≠ [] →
      (∀ entry ∈ entries, IsEntry entry) →
      let text := Text.decorated move (.join [','] entries)
      (q.parse text).1 =
        ((Grammar.realizationData (.join [','] entries)).map o.decorate).mapError
          fun cause => .through cause [text]) := by
  have hbalanced : ∀ {entries : List Text}, (∀ entry ∈ entries, IsEntry entry) →
      isBalanced (Text.join [','] entries) = true :=
    fun he => isBalanced_join fun entry hm => (he entry hm).balanced
  refine ⟨Grammar.realizationData_overrides, Grammar.serviceActionOptions_overrides,
    fun field text before after ht he hl => field.realizationData_quotedEntry ht he hl,
    fun name entries hn he => parse_invocation hq hn (hbalanced he),
    fun hnames move o entries hm h ho hne he => ?_⟩
  obtain ⟨entry, entries, rfl⟩ := List.exists_cons_of_ne_nil hne
  have hblank := isBlankText_join entry entries (he entry List.mem_cons_self)
  exact parse_decorated_block hnames hp hq hm h ho hblank (hbalanced he)

/-- An utterance with a comma, a bracket, an apostrophe and an equals sign, a speaker that is given
twice, and an invocation of which the second entry is the first that is wrong. -/
theorem blocks_override_utterance :
    let p : Parser := ⟨{ name := "travel" }, {}, {}⟩
    let data : Realization := { speaker := some .user, utterance := some "a, (b'=" }
    Grammar.realizationData "speaker=SYS,utterance=\"a, (b'=\",speaker=USR" = .ok data ∧
      (p.parse "Move(greet, speaker=SYS,utterance=\"a, (b'=\",speaker=USR)").1 =
        .ok (.move .greet (some data)) ∧
      (p.parse "invoke_service_action(book, \x7bpostconfirm=true, downdate_plan=no,x\x7d)").1 =
        .error (.through (.invalidParameter "downdate_plan" "no")
          ["invoke_service_action(book, \x7bpostconfirm=true, downdate_plan=no,x\x7d)"]) := by
  intro p data
  have hp : Reachable { name := "travel" } {} p := ⟨[], rfl⟩
  let entries : List Text := ["speaker=SYS", "utterance=\"a, (b'=\"", "speaker=USR"]
  let faulty : List Text := ["postconfirm=true", " downdate_plan=no", "x"]
  have hvalid : ∀ entry ∈ entries, Grammar.realizationFault? entry = none := by
    simp only [entries, List.forall_mem_cons]
    exact ⟨rfl, rfl, rfl, by simp⟩
  have hfaulty : ∀ entry ∈ faulty, IsEntry entry := by
    simp only [faulty, List.forall_mem_cons]
    exact ⟨⟨rfl, rfl, rfl⟩, ⟨rfl, rfl, rfl⟩, ⟨rfl, rfl, rfl⟩, by simp⟩
  obtain ⟨hdata, hoptions, -, hinvocation, hdecorated⟩ := blocks_override hp hp
  have hread : Grammar.realizationData (.join [','] entries) = .ok data :=
    hdata.valid entries hvalid
  have hmove := hdecorated (by simp) "greet" (.move .greet none) entries rfl rfl rfl (by decide)
    fun entry he => hdata.isEntry entry (hvalid entry he)
  have herror := hinvocation "book" faulty rfl hfaulty
  rw [hread] at hmove
  rw [hoptions.error faulty (.invalidParameter "downdate_plan" "no") hfaulty rfl] at herror
  exact ⟨hread, hmove, herror⟩

end Parser

end Parley
