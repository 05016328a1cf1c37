import Parley.Proofs.Grammar.Order
import Parley.Proofs.Grammar.Question
import Parley.Proofs.Grammar.Unread
import Parley.Proofs.Reading.Meaning
import Parley.Proofs.Surface.Split

/-! # Which rules make propositions

A proposition is read by one of twelve forms, or it is the result of a service or a set of
alternatives, which have rules of their own. Where a text is embedded as a proposition only
the forms are tried, and they decline the texts that the other two rules read.
-/

namespace Parley

open Reading

/-- Neither the result of a service nor a set of alternatives. -/
def Proposition.isFormed : Proposition → Bool
  | .serviceResult .. | .set .. => false
  | _ => true

def Object.isProposition : Object → Bool
  | .proposition _ => true
  | _ => false

theorem Object.not_isProposition (o : Object) (h : o.isDirective = true) :
    o.isProposition = false := by
  cases o with
  | proposition => cases h
  | _ => rfl

section Mark

variable {text inner : Text}

/-- The characters with which no individual goes on after a name. -/
theorem mark_of_pieces {first second : Text} {rest : List Text}
    (h : splitTopLevel ',' inner = first :: second :: rest) (hw : isWord first = true) :
    ∃ c, inner.mark = some c ∧ isBreak c = true := by
  have hb : inner.isBlankText = false := by
    rw [Bool.eq_false_iff]
    intro hb
    rw [splitTopLevel, if_pos hb] at h
    cases h
  rw [splitTopLevel, hb] at h
  cases hc : Nesting.cutFirst? ',' {} inner with
  | none =>
    rw [Nesting.pieces_of_cutFirst?_none hc] at h
    cases h
  | some halves =>
    obtain ⟨before, after⟩ := halves
    rw [(Nesting.pieces_of_cutFirst?_some hc).2] at h
    obtain rfl : before.trim = first := (List.cons.inj h).1
    rw [Nesting.cutFirst?_eq_some hc]
    obtain ⟨s, t, he, hs, ht⟩ := Text.exists_pad before
    have hblank : ∀ pad : Text, (∀ b ∈ pad, isBlank b = true) →
        pad.mark = none ∨ ∃ c, pad.mark = some c ∧ isBreak c = true := by
      intro pad hp
      cases hm : pad.mark with
      | none => exact .inl rfl
      | some c => exact .inr ⟨c, rfl, by simp [isBreak, hp c (List.mem_of_find?_eq_some hm)]⟩
    have hcomma : Text.mark (',' :: after) = some ',' := mark_cons rfl after
    rw [he, mark_append, mark_append, mark_append, mark_of_isWord hw, hcomma]
    rcases hblank s hs with hs | ⟨c, hs, hc⟩
    · rcases hblank t ht with ht | ⟨c, ht, hc⟩
      · exact ⟨',', by simp [hs, ht], by decide⟩
      · exact ⟨c, by simp [hs, ht], hc⟩
    · exact ⟨c, by simp [hs], hc⟩

end Mark

namespace Grammar

variable {m : Meaning} {s : Setting} {text inner : Text} {p : Proposition} {rule : Rule}

theorem predication_formed : (predication s text).Meets {} (·.isFormed = true) := by
  refine .andThen fun _ => .andThen fun found => .andThen fun argument => ?_
  rw [meets_ofOntology]
  refine ⟨fun p hp => ?_, fun _ _ => trivial⟩
  unfold Proposition.ofPredicate at hp
  repeat' split at hp
  all_goals cases hp <;> rfl

theorem proposition_formed : (proposition s text).Meets {} (·.isFormed = true) := by
  refine .orElse (.firstOf fun r hr => ?_) ?_
  · obtain ⟨form, h, rfl⟩ := List.mem_map.mp hr
    simp only [forms, List.mem_cons, List.not_mem_nil, or_false] at h
    rcases h with rfl | rfl | rfl | rfl | rfl | rfl | rfl | rfl | rfl | rfl | rfl | rfl
    case inr.inr.inr.inr.inr.inr.inr.inl => exact predication_formed
    all_goals repeat' first
      | refine .andThen fun _ => ?_
      | exact rfl
  · unfold oldSpelling
    repeat' split
    all_goals trivial

theorem serviceResult_makes {P : Proposition → Prop}
    (h : ∀ ontology name arguments result, P (.serviceResult ontology name arguments result)) :
    (serviceResult s text).Meets {} fun o => ∀ p, o = .proposition p → P p := by
  refine .andThen fun _ => .andThen fun _ => .andThen fun _ => .andThen fun _ => .andThen ?_
  rintro _ p ⟨rfl⟩
  exact h ..

theorem serviceResult_not_formed :
    (serviceResult s text).Meets {} fun o => ∀ p, o = .proposition p → p.isFormed = false :=
  serviceResult_makes fun _ _ _ _ => rfl

theorem propositionSetRule_not_formed :
    (propositionSetRule s text).Meets {} fun o => ∀ p, o = .proposition p → p.isFormed = false := by
  refine .andThen fun _ => ?_
  rintro p ⟨rfl⟩
  rfl

/-- The rules after those for moves and plan items that make no proposition. -/
def otherRules : List Rule :=
  [questionRule, lambdaGoal, lambdaPredicate, lambdaImplication, successfulServiceAction,
    failedServiceAction, actionStatus, yesNo, predicateRule, actionRule, individualRule, string,
    set, sequence]

theorem otherRules_not_proposition (h : rule ∈ otherRules) :
    (rule s text).Meets {} (·.isProposition = false) := by
  simp only [otherRules, List.mem_cons, List.not_mem_nil, or_false] at h
  rcases h with rfl | rfl | rfl | rfl | rfl | rfl | rfl | rfl | rfl | rfl | rfl | rfl | rfl | rfl
  all_goals repeat' first
    | refine .andThen fun _ => ?_
    | refine .ite (fun _ => ?_) fun _ => ?_
    | exact rfl
    | exact trivial

/-- Behind rules that make no proposition, the next rule makes it or leaves it to those after it. -/
theorem firstOf_append_cons_denote {before after : List Rule}
    (hb : ∀ rule ∈ before, (rule s text).Meets {} (·.isProposition = false))
    (h : (Rule.firstOf (before ++ rule :: after) s text).denote m = .value (.proposition p)) :
    (rule s text).denote m = .value (.proposition p) ∨
      (rule s text).denote m = .declined ∧
        (Rule.firstOf after s text).denote m = .value (.proposition p) := by
  have hmeets : (firstOf (before.map fun rule => rule s text)).Meets {}
      (·.isProposition = false) := by
    refine .firstOf fun r hr => ?_
    obtain ⟨rule, hrule, rfl⟩ := List.mem_map.mp hr
    exact hb rule hrule
  rw [Rule.firstOf, List.map_append, firstOf_append, denote_orElse] at h
  cases hd : (firstOf (before.map fun rule => rule s text)).denote m with
  | value o =>
    rw [hd] at h
    cases h
    cases hmeets.value (.default m) hd
  | error e =>
    rw [hd] at h
    cases h
  | declined =>
    rw [hd, List.map_cons, firstOf, denote_orElse] at h
    cases hr : (rule s text).denote m with
    | value o =>
      rw [hr] at h
      exact .inl h
    | error e =>
      rw [hr] at h
      cases h
    | declined =>
      rw [hr] at h
      exact .inr ⟨rfl, h⟩

/-- A proposition is read by a form, or by one of the two rules for propositions without a form. -/
theorem firstOf_rules_proposition
    (h : (Rule.firstOf rules s text).denote m = .value (.proposition p)) :
    (p.isFormed = true ∧ (proposition s text).denote m = .value p) ∨
      p.isFormed = false ∧ ((serviceResult s text).denote m = .value (.proposition p) ∨
        (proposition s text).denote m = .declined ∧
          (propositionSetRule s text).denote m = .value (.proposition p)) := by
  have hothers : ∀ {before : List Rule}, before ⊆ otherRules → ∀ rule ∈ before,
      (rule s text).Meets {} (·.isProposition = false) := by
    intro before hb rule hr
    exact otherRules_not_proposition (hb hr)
  have hfirst : ∀ rule ∈ (moveRules ++ planRules) ++ [questionRule, lambdaGoal, lambdaPredicate,
      lambdaImplication], (rule s text).Meets {} (·.isProposition = false) := by
    rw [List.forall_mem_append]
    exact ⟨fun _ hr => (moveRules_planRules_isDirective hr).mono fun o => o.not_isProposition,
      hothers (by simp [otherRules])⟩
  rcases firstOf_append_cons_denote hfirst h with hv | ⟨-, h⟩
  · exact .inr ⟨serviceResult_not_formed.value (.default m) hv p rfl, .inl hv⟩
  have hsecond := @hothers [successfulServiceAction, failedServiceAction, actionStatus]
    (by simp [otherRules])
  rcases firstOf_append_cons_denote hsecond h with hv | ⟨hd, h⟩
  · obtain ⟨found, hp, he⟩ := denote_map_eq_value_iff.mp hv
    obtain rfl := Object.proposition.inj he
    exact .inl ⟨proposition_formed.value (.default m) hp, hp⟩
  have hthird := @hothers [yesNo] (by simp [otherRules])
  rcases firstOf_append_cons_denote hthird h with hv | ⟨-, h⟩
  · refine .inr ⟨propositionSetRule_not_formed.value (.default m) hv p rfl, .inr ⟨?_, hv⟩⟩
    exact denote_map_eq_declined_iff.mp hd
  -- No rule is left that makes a proposition.
  have hlast := @hothers [predicateRule, actionRule, individualRule, string, set] (by
    simp [otherRules])
  rcases firstOf_append_cons_denote hlast h with hv | ⟨-, h⟩
  · cases (hothers (List.Subset.refl _) sequence (by simp [otherRules])).value (.default m) hv
  · cases h

theorem firstOf_denote_declined {rules : List Rule}
    (h : ∀ rule ∈ rules, (rule s text).denote m = .declined) :
    (Rule.firstOf rules s text).denote m = .declined := by
  induction rules with
  | nil => rfl
  | cons rule rules ih =>
    rw [List.forall_mem_cons] at h
    rw [Rule.firstOf, List.map_cons, firstOf, denote_orElse, h.1]
    exact ih h.2

theorem exists_of_denote_option {α β : Type} {x : Option α} {f : α → Reading β} {b : β}
    (h : (ofOption x >>= f).denote m = .value b) :
    ∃ a, x = some a ∧ (f a).denote m = .value b := by
  cases x with
  | none => cases h
  | some a => exact ⟨a, rfl, h⟩

theorem declined_of_serviceResult
    (hnames : ∀ entry ∈ s.ontology.individuals, isWord entry.1 = true) {o : Object}
    (h : (serviceResult s text).denote m = .value o) :
    proposition s text = .declined ∧ individual s text = .declined := by
  obtain ⟨inner, hc, h⟩ := exists_of_denote_option h
  obtain ⟨⟨name, list, ending⟩, ht, h⟩ := exists_of_denote_option h
  have hw : isWord name = true := by
    by_contra hw
    rw [Bool.not_eq_true] at hw
    rw [denote_bind, hw] at h
    cases h
  have hpieces : splitTopLevel ',' inner = [name, list, ending] := by
    unfold three? at ht
    split at ht
    · obtain ⟨rfl, rfl, rfl⟩ := by simpa using ht
      assumption
    · cases ht
  obtain ⟨c, hmark, hbreak⟩ := mark_of_pieces hpieces hw
  have hi : individual s inner = .declined := by
    refine individual_of_mark hnames ?_
    rw [hmark]
    intro hm
    simp only [List.mem_cons, List.not_mem_nil, or_false, Option.some.injEq, reduceCtorEq,
      false_or] at hm
    rcases hm with rfl | rfl | rfl <;> exact absurd hbreak (by decide)
  obtain ⟨rfl, hb⟩ := call?_eq_some_iff.mp hc
  have hn : inner ≠ [] := by
    rintro rfl
    cases hmark
  constructor
  · change ((predication s (Text.call "ServiceResultProposition" inner)).orElse .declined).orElse
      .declined = .declined
    rw [predication_call rfl hb rfl hn hi]
    rfl
  · have hne : ("ServiceResultProposition" : Text) ∉ [("person_name" : Text), "datetime"] := by
      decide
    exact individual_of_call hnames rfl hne rfl

theorem individual_of_propositionSet
    (hnames : ∀ entry ∈ s.ontology.individuals, isWord entry.1 = true) {o : Object}
    (h : (propositionSetRule s text).denote m = .value o) : individual s text = .declined := by
  have hcall : ∃ inner, call? "set" (splitPolarity text).2 = some inner := by
    cases hc : call? "set" (splitPolarity text).2 with
    | some inner => exact ⟨inner, rfl⟩
    | none =>
      simp only [propositionSetRule, propositionSet, hc] at h
      cases h
  obtain ⟨inner, hc⟩ := hcall
  exact individual_of_call hnames rfl (by decide) (call?_eq_some_iff.mp hc).1

/-- Read as a proposition inside another text, a text gives its proposition where that has a form,
and is declined where it has none. -/
theorem proposition_denote
    (hnames : ∀ entry ∈ s.ontology.individuals, isWord entry.1 = true)
    (h : (Rule.firstOf rules s text).denote m = .value (.proposition p)) :
    (p.isFormed = true → (proposition s text).denote m = .value p) ∧
      (p.isFormed = false →
        (proposition s text).denote m = .declined ∧ individual s text = .declined) := by
  rcases firstOf_rules_proposition h with ⟨hf, hp⟩ | ⟨hf, hresult | ⟨hd, hset⟩⟩
  · exact ⟨fun _ => hp, fun hn => absurd hf (by simp [hn])⟩
  · obtain ⟨hd, hi⟩ := declined_of_serviceResult hnames hresult
    refine ⟨fun hn => absurd hf (by simp [hn]), fun _ => ⟨?_, hi⟩⟩
    rw [hd]
    rfl
  · refine ⟨fun hn => absurd hf (by simp [hn]), fun _ => ⟨hd, ?_⟩⟩
    exact individual_of_propositionSet hnames hset

end Grammar

end Parley
