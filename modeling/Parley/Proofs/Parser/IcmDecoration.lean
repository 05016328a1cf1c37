import Parley.Proofs.Grammar.Unread
import Parley.Proofs.Parser.Decoration
import Parley.Proofs.Parser.Icm
import Parley.Proofs.Parser.Question

/-! # Decorated management moves

A management move is decorated in two ways: by the rule for management moves, which cuts
at the first comma of the top level, and by the rule for all moves, which looks for the
end of the move among all commas. Where the individuals of an ontology have words as
names, both give the same answer for every block, be it well formed or not.
-/

namespace Parley

/-- The management move with the entries of a block; a blank block leaves it as it is. -/
def Icm.withEntries (move : Icm) (block : Text) : Except Cause Object :=
  if block.isBlankText then .ok (.icm move none)
  else (Grammar.realizationData block).map fun data => .icm move (some data)

/-- The management move decorated with a block. A block whose brackets and quotes do not match
closes the decoration at no place, so that no rule reads it. -/
def Icm.withBlock (move : Icm) (ontology : Ontology) (block : Text) : Except Cause Object :=
  if isBalanced block then move.withEntries block
  else .error (.noRuleMatched ontology.describe)

namespace Grammar

open Reading

variable {m : Meaning} {s : Setting} {text inner block : Text} {move : Icm}

theorem icm_denote (h : ("icm:" : Text) <+: text) {data : Option Realization}
    (hv : (Rule.firstOf rules s text).denote m = .value (.icm move data)) :
    data = none ∧ (icm text).denote m = .value move := by
  obtain ⟨rfl, shape, draft, rfl, hd, hc⟩ := exists_draft_of_denote h hv
  refine ⟨rfl, ?_⟩
  rw [icm_eq_readDraft hd, readDraft_denote, hc]

theorem decorating_icm (move : Icm) (block : Text) :
    decorating (.icm move none) block = ofExcept (move.withEntries block) := by
  rw [decorating, Icm.withEntries]
  split
  · rfl
  · cases realizationData block <;> rfl

theorem decoratedIcm_denote (s : Setting) (hb : isBalanced inner = true)
    (hsplit : splitDecoration inner = (text, block.trim))
    (hi : (icm text).denote m = .value move) :
    (decoratedIcm s (Text.call "ICMMove" inner)).denote m =
      (decorating (.icm move none) block).denote m := by
  rw [decoratedIcm, call_denote hb, hsplit, denote_bind, hi]
  simp only [realizationData_trim, decorating]
  rfl

theorem decoratedIcm_denote_bare (s : Setting) (ht : text.trim = text) (hb : isBalanced text = true)
    (hu : splitFirst? ',' text = none) (hi : (icm text).denote m = .value move) :
    (decoratedIcm s (Text.call "ICMMove" text)).denote m = .value (.icm move none) := by
  have hsplit : splitDecoration text = (text, Text.trim []) := by
    rw [splitDecoration, hu, ht]
    rfl
  exact decoratedIcm_denote s hb hsplit hi

theorem splitDecoration_append (ht : text.trim = text) (hb : isBalanced text = true)
    (hu : splitFirst? ',' text = none) (block : Text) :
    splitDecoration (text ++ ", " ++ block) = (text, block.trim) := by
  have hfirst : splitFirst? ',' (text ++ ", " ++ block) = some (text.trim, block.trim) := by
    rw [List.append_assoc]
    exact splitFirst?_append_sep hb hu (' ' :: block)
  rw [splitDecoration, hfirst, ht]
  rfl

theorem firstOf_rules_move_unbalanced
    (hnames : ∀ entry ∈ s.ontology.individuals, isWord entry.1 = true)
    (hb : isBalanced inner = false) :
    Rule.firstOf rules s (Text.call "Move" inner) = .declined :=
  @firstOf_rules_unbalanced s "Move" inner rfl hb decoratedMove _ hnames (.head _) (fun _ => rfl)
    (by decide) rfl

theorem firstOf_rules_icmMove_unbalanced
    (hnames : ∀ entry ∈ s.ontology.individuals, isWord entry.1 = true)
    (hb : isBalanced inner = false) :
    Rule.firstOf rules s (Text.call "ICMMove" inner) = .declined :=
  @firstOf_rules_unbalanced s "ICMMove" inner rfl hb decoratedIcm _ hnames
    (by simp [moveRules, moveOpenings]) (fun _ => rfl) (by decide) rfl

theorem decoratedMove_mem : decoratedMove ∈ moveRules ++ planRules := by
  simp [moveRules]

theorem decoratedIcm_mem : decoratedIcm ∈ moveRules ++ planRules := by
  simp [moveRules]

/-- What the rules make of a management move with a block behind it: a block whose brackets and
quotes do not match is declined with the text around it. -/
def icmWithBlock (move : Icm) (block : Text) : Reading Object :=
  if isBalanced block then ofExcept (move.withEntries block) else .declined

/-- A rule that reads the decoration where the block is balanced decides it. -/
theorem firstOf_rules_withBlock {rule : Rule} (hr : rule ∈ moveRules ++ planRules)
    (hread : isBalanced block = true →
      (rule s text).denote m = (decorating (.icm move none) block).denote m)
    (hdeclined : isBalanced block = false → Rule.firstOf rules s text = .declined) :
    (Rule.firstOf rules s text).denote m = (icmWithBlock move block).denote m := by
  unfold icmWithBlock
  cases hb : isBalanced block with
  | false =>
    rw [hdeclined hb]
    rfl
  | true =>
    have hrule := hread hb
    rw [decorating_icm] at hrule
    -- A balanced block is read or it is wrong, so the rule does not leave the text to others.
    have hne : (rule s text).denote m ≠ .declined := by
      rw [hrule]
      cases move.withEntries block <;> simp [Reading.ofExcept, denote]
    rw [firstOf_rules_denote_eq rule hr hne, hrule]
    rfl

theorem icmMove_withBlock (hnames : ∀ entry ∈ s.ontology.individuals, isWord entry.1 = true)
    (ht : text.trim = text) (hb : isBalanced text = true) (hu : splitFirst? ',' text = none)
    (hi : (icm text).denote m = .value move) (block : Text) :
    (Rule.firstOf rules s (Text.call "ICMMove" (text ++ ", " ++ block))).denote m =
      (icmWithBlock move block).denote m := by
  have hbalanced := isBalanced_append_comma hb block
  apply firstOf_rules_withBlock decoratedIcm_mem
  · intro h
    exact decoratedIcm_denote s (hbalanced.trans h) (splitDecoration_append ht hb hu block) hi
  · intro h
    exact firstOf_rules_icmMove_unbalanced hnames (hbalanced.trans h)

theorem move_withBlock (hnames : ∀ entry ∈ s.ontology.individuals, isWord entry.1 = true)
    (hm : shaping.Grants m) (hb : isBalanced text = true)
    (hp : m.probe text = some (.icm move none)) (block : Text) :
    (Rule.firstOf rules s (Text.call "Move" (text ++ ", " ++ block))).denote m =
      (icmWithBlock move block).denote m := by
  have hbalanced := isBalanced_append_comma hb block
  apply firstOf_rules_withBlock decoratedMove_mem
  · intro h
    exact decoratedMove_denote_append hm s (hbalanced.trans h) hp rfl
  · intro h
    exact firstOf_rules_move_unbalanced hnames (hbalanced.trans h)

end Grammar

namespace Parser

variable {ontology : Ontology} {config : Config} {p q : Parser}

theorem Reachable.parse_withBlock (hp : Reachable ontology config p) {text block : Text}
    {move : Icm}
    (h : (Rule.firstOf Grammar.rules ⟨ontology, config.domainName⟩ text).denote
        (engine ⟨ontology, config, {}⟩).meaning =
      (Grammar.icmWithBlock move block).denote (engine ⟨ontology, config, {}⟩).meaning) :
    (p.parse text).1.mapError (·.cause) = move.withBlock ontology block := by
  unfold Grammar.icmWithBlock at h
  unfold Icm.withBlock
  cases hb : isBalanced block with
  | false =>
    rw [hb] at h
    rw [hp.parse_declined h]
    rfl
  | true =>
    rw [hb] at h
    cases he : move.withEntries block with
    | ok o =>
      rw [he] at h
      rw [hp.parse_ok_iff.mpr h]
      rfl
    | error cause =>
      rw [he] at h
      rw [hp.parse_error h]
      rfl

/-- A management move whose text is balanced and not divided by a comma is decorated in two ways,
which agree in every state. With a block behind the move both give the move with the entries of the
block, or both fail with the same cause, and without a block both give the move itself. -/
theorem parse_icm_decorated (hnames : ∀ entry ∈ ontology.individuals, isWord entry.1 = true)
    (hp : Reachable ontology config p) (hq : Reachable ontology config q) {text : Text}
    (hicm : ("icm:" : Text) <+: text) (ht : text.trim = text) (hb : isBalanced text = true)
    (hu : splitFirst? ',' text = none) {move : Icm} {data : Option Realization}
    (hv : (p.parse text).1 = .ok (.icm move data)) :
    (∀ block,
        (p.parse (Text.call "ICMMove" (text ++ ", " ++ block))).1.mapError (·.cause) =
            (q.parse (Text.call "Move" (text ++ ", " ++ block))).1.mapError (·.cause) ∧
          (q.parse (Text.call "Move" (text ++ ", " ++ block))).1.mapError (·.cause) =
            move.withBlock ontology block) ∧
      (p.parse (Text.call "ICMMove" text)).1 = (q.parse (Text.call "Move" text)).1 ∧
      (q.parse (Text.call "Move" text)).1 = .ok (.icm move none) := by
  have hv' := hp.parse_ok_iff.mp hv
  obtain ⟨rfl, hread⟩ := Grammar.icm_denote hicm hv'
  have hobject := (engine_descends _).object_eq_ok_iff.mpr hv'
  have hprobe := (engine_descends _).probe_of_object hobject
  have hshaping : shaping.Grants (engine ⟨ontology, config, {}⟩).meaning :=
    Engine.grants_meaning (meaningAt_shaping hnames)
  have hfirst : ∀ block,
      (p.parse (Text.call "ICMMove" (text ++ ", " ++ block))).1.mapError (·.cause) =
        move.withBlock ontology block :=
    fun block => hp.parse_withBlock (Grammar.icmMove_withBlock hnames ht hb hu hread block)
  have hsecond : ∀ block,
      (q.parse (Text.call "Move" (text ++ ", " ++ block))).1.mapError (·.cause) =
        move.withBlock ontology block :=
    fun block => hq.parse_withBlock (Grammar.move_withBlock hnames hshaping hb hprobe block)
  have hbare : (p.parse (Text.call "ICMMove" text)).1 = .ok (.icm move none) := by
    rw [hp.parse_ok_iff]
    apply Grammar.firstOf_rules_denote _ Grammar.decoratedIcm_mem
    exact Grammar.decoratedIcm_denote_bare _ ht hb hu hread
  have hbare' : (q.parse (Text.call "Move" text)).1 = .ok (.icm move none) := by
    rw [hq.parse_ok_iff]
    apply Grammar.firstOf_rules_denote _ Grammar.decoratedMove_mem
    exact Grammar.decoratedMove_denote_bare hshaping _ hb hprobe rfl
  constructor
  · intro block
    rw [hfirst, hsecond]
    exact ⟨rfl, rfl⟩
  · rw [hbare, hbare']
    exact ⟨rfl, rfl⟩

/-- A management move about an utterance with a comma in its quotes, with a block that gives its
speaker, with a speaker that is not known, and with a bracket that is never closed. -/
theorem parse_icm_decorated_heard :
    let ontology : Ontology := { name := "travel", individuals := [("paris", .custom "city")] }
    let p : Parser := ⟨ontology, {}, {}⟩
    let q := (performAll p [.parse "paris"]).2
    let heard : Icm := .mk .perception (some .pos) (.text "no, yes") none
    let text : Text := "icm:und*int:USR*icm:per*pos:\"no, yes\""
    let move : Icm := .mk .understanding (some .interrogative) (.semantic (.icm heard none))
      (some .user)
    let decorate keyword block := Text.call keyword (text ++ ", " ++ block)
    (p.parse (decorate "ICMMove" "speaker=SYS")).1.mapError (·.cause) =
        (q.parse (decorate "Move" "speaker=SYS")).1.mapError (·.cause) ∧
      (q.parse (decorate "Move" "speaker=SYS")).1.mapError (·.cause) =
        .ok (.icm move (some { speaker := some .system })) ∧
      (p.parse (decorate "ICMMove" "speaker=me")).1.mapError (·.cause) =
        (q.parse (decorate "Move" "speaker=me")).1.mapError (·.cause) ∧
      (q.parse (decorate "Move" "speaker=me")).1.mapError (·.cause) =
        .error (.invalidRealizationData "speaker" "me") ∧
      (p.parse (decorate "ICMMove" "speaker=(")).1.mapError (·.cause) =
        (q.parse (decorate "Move" "speaker=(")).1.mapError (·.cause) ∧
      (q.parse (decorate "Move" "speaker=(")).1.mapError (·.cause) =
        .error (.noRuleMatched "Ontology(travel)") ∧
      (p.parse (Text.call "ICMMove" text)).1 = (q.parse (Text.call "Move" text)).1 ∧
      (q.parse (Text.call "Move" text)).1 = .ok (.icm move none) := by
  intro ontology p q heard text move decorate
  have hnames : ∀ entry ∈ ontology.individuals, isWord entry.1 = true := by decide
  have hp : Reachable ontology {} p := ⟨[], rfl⟩
  have hq : Reachable ontology {} q := ⟨[.parse "paris"], rfl⟩
  have hmove : (p.parse text).1 = .ok (.icm move none) := rfl
  obtain ⟨hblock, hbare⟩ := parse_icm_decorated hnames hp hq ⟨_, rfl⟩ rfl rfl rfl hmove
  obtain ⟨hsys, hsys'⟩ := hblock "speaker=SYS"
  obtain ⟨hme, hme'⟩ := hblock "speaker=me"
  obtain ⟨hopen, hopen'⟩ := hblock "speaker=("
  exact ⟨hsys, hsys', hme, hme', hopen, hopen', hbare⟩

end Parser

end Parley
