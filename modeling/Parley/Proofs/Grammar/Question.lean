import Parley.Proofs.Grammar.Opening
import Parley.Proofs.Reading.Contract
import Parley.Proofs.Surface.Call

/-! # The texts of questions

Only the rule for questions makes a question, and what can be asked about is written as
a name or a call. The text of a question is therefore balanced, wherever it stands, and
behind a question mark no other rule reads anything.
-/

namespace Parley

open Reading

/-- A question stands behind a question mark, and what can be asked about is a name or a call. -/
def Object.Fits (text : Text) : Object → Prop
  | .question _ => ∃ inner, text = '?' :: inner
  | .proposition _ | .lambda _ | .predicate _ => Plain text
  | _ => True

theorem Object.Fits.plain {text : Text} {o : Object} {q : Question} (h : o.Fits text)
    (hq : Grammar.classify o = some q) : Plain text := by
  cases o with
  | proposition | lambda | predicate => exact h
  | _ => cases hq

def Object.isDirective : Object → Bool
  | .move .. | .icm .. | .planItem _ | .goal _ => true
  | _ => false

theorem Object.isDirective_of_isMove (o : Object) (h : o.isMove = true) :
    o.isDirective = true := by
  cases o with
  | move | icm => rfl
  | _ => cases h

theorem Object.fits_of_isDirective {text : Text} (o : Object) (h : o.isDirective = true) :
    o.Fits text := by
  cases o with
  | move | icm | planItem | goal => trivial
  | _ => cases h

/-- Where nothing is asked of a reading, only what follows it counts. -/
theorem Reading.Meets.andThen {α β : Type} {r : Reading α} {f : α → Reading β} {Q : β → Prop}
    (hf : ∀ a, (f a).Meets {} Q) : (r >>= f).Meets {} Q :=
  (Meets.const r trivial).bind fun a _ => hf a

namespace Grammar

variable {s : Setting} {text : Text} {rule : Rule}

theorem probeMove_isMove (cuts : List (Text × Text)) :
    (probeMove cuts).Meets {} fun found => found.1.isMove = true := by
  induction cuts with
  | nil => trivial
  | cons cut more ih =>
    obtain ⟨head, rest⟩ := cut
    rw [probeMove]
    refine .ite (fun _ => ih) fun _ => ⟨trivial, ih, fun o _ => ?_⟩
    exact .ite (fun hm => hm) fun _ => ih

theorem decoratedMove_isMove : (decoratedMove s text).Meets {} (·.isMove = true) := by
  refine .andThen fun inner => (probeMove_isMove _).bind fun found hm => ?_
  refine .ite (fun _ => hm) fun _ => .andThen fun data => ?_
  obtain ⟨o, rest⟩ := found
  cases o with
  | move | icm => rfl
  | _ => cases hm

/-- The rules for moves and plan items make what they are for, and goals. -/
theorem moveRules_planRules_isDirective (h : rule ∈ moveRules ++ planRules) :
    (rule s text).Meets {} (·.isDirective = true) := by
  simp only [moveRules, planRules, List.cons_append, List.nil_append, List.mem_cons,
    List.not_mem_nil, or_false] at h
  rcases h with rfl | rfl | rfl | rfl | rfl | rfl | rfl | rfl | rfl | rfl | rfl | rfl | rfl | rfl |
    rfl | rfl | rfl | rfl | rfl | rfl | rfl | rfl | rfl | rfl | rfl | rfl | rfl | rfl | rfl | rfl |
    rfl
  · exact decoratedMove_isMove.mono fun o hm => o.isDirective_of_isMove hm
  -- Every other rule ends with a move, a plan item or a goal of its own, whatever it reads before.
  all_goals repeat' first
    | refine .andThen fun _ => ?_
    | refine .ite (fun _ => ?_) fun _ => ?_
    | exact rfl
    | exact trivial

theorem moveRules_planRules_fit (h : rule ∈ moveRules ++ planRules) :
    (rule s text).Meets {} (·.Fits text) :=
  (moveRules_planRules_isDirective h).mono fun o ho => o.fits_of_isDirective ho

theorem questionRule_fits : (questionRule s text).Meets {} (·.Fits text) := by
  refine .map (.option fun inner hq => .andThen fun _ => .const _ ?_)
  exact ⟨inner, Text.dropPrefix?_eq_some_iff.mp hq⟩

theorem namingRules_fit (h : rule ∈ namingRules) : (rule s text).Meets {} (·.Fits text) := by
  by_cases hp : Plain text
  · simp only [namingRules, propositionRules, List.tail_cons, List.mem_append, List.mem_cons,
      List.not_mem_nil, or_false] at h
    rcases h with (rfl | rfl | rfl | rfl | rfl | rfl | rfl | rfl) | rfl | rfl | rfl | rfl
    -- None of them ends with a question, and the text is of the form that the others need.
    all_goals repeat' first
      | refine .andThen fun _ => ?_
      | refine .ite (fun _ => ?_) fun _ => ?_
      | exact hp
      | exact trivial
  · rw [namingRules_readsOnly h s text hp]
    trivial

theorem rules_fit (h : rule ∈ rules) : (rule s text).Meets {} (·.Fits text) := by
  simp only [rules_eq, literalRules, List.mem_append, List.mem_cons, List.not_mem_nil,
    or_false] at h
  rcases h with h | rfl | h | rfl | rfl | rfl | rfl
  · exact moveRules_planRules_fit (List.mem_append.mpr h)
  · exact questionRule_fits
  · exact namingRules_fit h
  · exact .andThen fun _ => trivial
  · exact .andThen fun _ => trivial
  · exact .andThen fun _ => .andThen fun _ => trivial
  · exact .andThen fun _ => .andThen fun _ => trivial

theorem firstOf_rules_queried (s : Setting) (text : Text) :
    Rule.firstOf rules s ('?' :: text) =
      (questionRule s ('?' :: text)).orElse (Rule.firstOf literalRules s ('?' :: text)) := by
  have hmark : Text.mark ('?' :: text) = some '?' := mark_cons rfl text
  have hopening : Text.opening ('?' :: text) = ([], some '?') :=
    @opening_append_cons [] text '?' rfl rfl
  have hbefore : ∀ rule ∈ moveRules ++ planRules, rule s ('?' :: text) = .declined := by
    intro rule h
    refine declined_of_opening h ?_
    rw [hopening]
    decide
  have hnaming : ∀ rule ∈ namingRules, rule s ('?' :: text) = .declined := by
    intro rule h
    refine namingRules_readsOnly h s _ fun hp => ?_
    have hm := hp.mark_mem
    simp [hmark] at hm
  rw [rules_eq, Rule.firstOf_append_cons hbefore, Rule.firstOf_append_of_declined hnaming]

/-- Where individuals have words as names, only the rule for questions reads what stands behind a
question mark. -/
theorem firstOf_rules_question
    (hnames : ∀ entry ∈ s.ontology.individuals, isWord entry.1 = true) (text : Text) :
    Rule.firstOf rules s ('?' :: text) =
      .object text fun content => .question <$> ofOption (classify content) := by
  have hindividual : individualRule s ('?' :: text) = .declined := by
    have hmark : Text.mark ('?' :: text) = some '?' := mark_cons rfl text
    rw [individualRule, individual_of_mark hnames (by simp [hmark])]
    rfl
  have hliteral : ∀ rule ∈ literalRules, rule s ('?' :: text) = .declined := by
    simp only [literalRules, List.mem_cons, List.not_mem_nil, or_false]
    rintro rule (rfl | rfl | rfl | rfl)
    · exact hindividual
    · rfl
    · rfl
    · rfl
  rw [firstOf_rules_queried, Rule.firstOf_of_declined hliteral, orElse_declined]
  rfl

theorem literalRules_not_question (h : rule ∈ literalRules) :
    (rule s text).Meets {} (∀ q, · ≠ .question q) := by
  simp only [literalRules, List.mem_cons, List.not_mem_nil, or_false] at h
  rcases h with rfl | rfl | rfl | rfl
  · exact .andThen fun _ => nofun
  · exact .andThen fun _ => nofun
  · exact .andThen fun _ => .andThen fun _ => nofun
  · exact .andThen fun _ => .andThen fun _ => nofun

end Grammar

end Parley
