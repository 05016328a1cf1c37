import Parley.Proofs.Grammar.Icm
import Parley.Proofs.Grammar.Order
import Parley.Proofs.Grammar.Question
import Parley.Proofs.Parser.Session

/-! # Management moves

Where a text starts as a management move, only the rule for such moves makes one of it.
The management moves are therefore exactly those of the drafts that the parts of the text
have, where a nested text is given its object, and the error of a nested text is the error
of the move around it.
-/

namespace Parley

namespace Grammar

open Reading

variable {m : Meaning} {s : Setting} {text : Text} {shape : IcmShape} {draft : IcmDraft}

theorem opening_icm (h : ("icm:" : Text) <+: text) : text.opening = (↑"icm", some ':') := by
  obtain ⟨rest, rfl⟩ := h
  exact @opening_append_cons "icm" rest ':' rfl rfl

theorem firstOf_rules_icm (h : ("icm:" : Text) <+: text) :
    Rule.firstOf rules s text = (icmRule s text).orElse (Rule.firstOf literalRules s text) := by
  have ho := opening_icm h
  have hmark : text.mark = some ':' := congrArg Prod.snd ho
  have hdeclined : ∀ {rules : List Rule} {openings : List (List (Text × Option Char))},
      List.Forall₂ (fun rule openings => ReadsOnly (Text.Opens openings) rule) rules openings →
      (∀ opens ∈ openings, ((↑"icm", some ':') : Text × Option Char) ∉ opens) →
      ∀ rule ∈ rules, rule s text = .declined := by
    intro rules openings hreads hopens rule hr
    obtain ⟨opens, hmem, hread⟩ := exists_openings hreads hr
    exact hread s text fun ht => hopens opens hmem (ho ▸ ht)
  have hmoves := hdeclined (List.forall₂_take 8 moveRules_readsOnly) (by decide)
  have hplans := hdeclined planRules_readsOnly (by decide)
  have hnaming : ∀ rule ∈ questionRule :: namingRules, rule s text = .declined := by
    rw [List.forall_mem_cons]
    refine ⟨questionRule_readsOnly s text (by simp [hmark]), fun rule hr => ?_⟩
    refine namingRules_readsOnly hr s text fun hp => ?_
    have hm := hp.mark_mem
    simp [hmark] at hm
  have hrules : rules = moveRules.take 8 ++
      icmRule :: ((planRules ++ questionRule :: namingRules) ++ literalRules) := rfl
  rw [hrules, Rule.firstOf_append_cons hmoves,
    Rule.firstOf_append_of_declined (List.forall_mem_append.mpr ⟨hplans, hnaming⟩)]

theorem literalRules_not_move :
    (Rule.firstOf literalRules s text).Meets {} (·.isMove = false) := by
  refine .firstOf fun r hr => ?_
  simp only [literalRules, List.map_cons, List.map_nil, List.mem_cons, List.not_mem_nil,
    or_false] at hr
  rcases hr with rfl | rfl | rfl | rfl
  · exact .andThen fun _ => rfl
  · exact .andThen fun _ => rfl
  · exact .andThen fun _ => .andThen fun _ => rfl
  · exact .andThen fun _ => .andThen fun _ => rfl

theorem icmShape_isPrefix (shape : IcmShape) : ("icm:" : Text) <+: shape.write :=
  ⟨_, rfl⟩

theorem firstOf_rules_draft (h : shape.Drafts draft) :
    (Rule.firstOf rules s shape.write).denote m =
      match draft.complete m.object with
      | .ok move => .value (.icm move none)
      | .error err => .error err := by
  have hrule : (icmRule s shape.write).denote m =
      match draft.complete m.object with
      | .ok move => .value (.icm move none)
      | .error err => .error err := by
    rw [icmRule, denote_bind, icm_eq_readDraft h, readDraft_denote]
    cases draft.complete m.object <;> rfl
  rw [firstOf_rules_icm (icmShape_isPrefix shape), denote_orElse, hrule]
  cases draft.complete m.object <;> rfl

/-- A text that starts as a management move and denotes one has parts with a draft, and it denotes
the draft completed. -/
theorem exists_draft_of_denote (h : ("icm:" : Text) <+: text) {move : Icm}
    {data : Option Realization}
    (hv : (Rule.firstOf rules s text).denote m = .value (.icm move data)) :
    data = none ∧ ∃ (shape : IcmShape) (draft : IcmDraft), text = shape.write ∧
      shape.Drafts draft ∧ draft.complete m.object = .ok move := by
  have hread : icm text ≠ .declined := by
    intro hd
    have hrule : icmRule s text = .declined := by
      rw [icmRule, hd]
      rfl
    rw [firstOf_rules_icm h, hrule] at hv
    cases literalRules_not_move.value (.default m) hv
  obtain ⟨shape, draft, rfl, hd⟩ := exists_draft_of_icm hread
  rw [firstOf_rules_draft hd] at hv
  cases hc : draft.complete m.object with
  | error err =>
    rw [hc] at hv
    cases hv
  | ok found =>
    rw [hc] at hv
    cases hv
    exact ⟨rfl, shape, draft, rfl, hd, hc⟩

end Grammar

namespace Parser

variable {ontology : Ontology} {config : Config} {p q : Parser}

/-- In every state, a text that starts as a management move denotes one exactly where its parts have
a draft that can be completed, and then it denotes the completed draft. Where a nested text cannot
be read, the text fails with the error of the nested text, which has the whole text as one more text
in its trail. A text has parts in one way only. -/
theorem parse_icm (hp : Reachable ontology config p) (hq : Reachable ontology config q)
    {text : Text} (h : ("icm:" : Text) <+: text) :
    (∀ move data, (p.parse text).1 = .ok (.icm move data) ↔
        data = none ∧ ∃ (shape : IcmShape) (draft : IcmDraft), text = shape.write ∧
          shape.Drafts draft ∧ draft.complete (fun t => (q.parse t).1) = .ok move) ∧
      (∀ (shape : IcmShape) (draft : IcmDraft) err, text = shape.write → shape.Drafts draft →
        draft.complete (fun t => (q.parse t).1) = .error err →
        (p.parse text).1 = .error (err.within text)) ∧
      ∀ shape shape' : IcmShape, shape.IsWritable → shape'.IsWritable → text = shape.write →
        text = shape'.write → shape = shape' := by
  have hread : (fun t => (q.parse t).1) = (engine ⟨ontology, config, {}⟩).meaning.object :=
    funext fun t => (hq.continues.parse t).1
  rw [hread]
  refine ⟨fun move data => ?_, ?_, ?_⟩
  · rw [hp.parse_ok_iff]
    constructor
    · exact Grammar.exists_draft_of_denote h
    · rintro ⟨rfl, shape, draft, rfl, hd, hc⟩
      rw [Grammar.firstOf_rules_draft hd, hc]
  · rintro shape draft err rfl hd hc
    refine hp.parse_error ?_
    rw [Grammar.firstOf_rules_draft hd, hc]
  · rintro shape shape' hs hs' rfl he
    exact hs.write_inj hs' he

/-- A management move of a speaker about another one that quotes words with marks in them, and a
management move about a word that is not known. -/
theorem parse_icm_nested :
    let ontology : Ontology := { name := "travel" }
    let q : Parser := ⟨ontology, {}, {}⟩
    let p := (performAll q [.parse "icm:loadplan"]).2
    let heard : Icm := .mk .perception (some .neg) (.text "a:b*c") none
    let content : IcmContent := .semantic (.icm heard none)
    (p.parse "icm:und*pos:USR*icm:per*neg:\"a:b*c\"").1 =
        .ok (.icm (.mk .understanding (some .pos) content (some .user)) none) ∧
      (p.parse "icm:sem*int:SYS*paris").1 =
        .error
          (.through (.noRuleMatched "Ontology(travel)") ["paris", "icm:sem*int:SYS*paris"]) := by
  intro ontology q p heard content
  have hq : Reachable ontology {} q := ⟨[], rfl⟩
  have hp : Reachable ontology {} p := ⟨[.parse "icm:loadplan"], rfl⟩
  have hheard : (q.parse "icm:per*neg:\"a:b*c\"").1 = .ok (.icm heard none) := rfl
  have hparis : (q.parse "paris").1 =
      .error (.through (.noRuleMatched "Ontology(travel)") ["paris"]) := rfl
  have hund : IcmShape.Drafts _ _ :=
    @IcmShape.Drafts.understandingSpeaker .understanding .pos .user "icm:per*neg:\"a:b*c\""
      (by simp)
  have hsem : IcmShape.Drafts _ _ :=
    @IcmShape.Drafts.understandingSpeaker .semantic .interrogative .system "paris" (by simp)
  constructor
  · refine ((parse_icm hp hq ⟨_, rfl⟩).1 _ _).mpr ⟨rfl, _, _, rfl, hund, ?_⟩
    simp only [IcmDraft.complete, ContentDraft.complete, hheard]
    rfl
  · refine (parse_icm hp hq ⟨_, rfl⟩).2.1 _ _ (.through _ ["paris"]) rfl hsem ?_
    simp only [IcmDraft.complete, ContentDraft.complete, hparis]
    rfl

end Parser

end Parley
