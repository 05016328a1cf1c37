import Mathlib.Data.List.Chain
import Parley.Proofs.Parser.Session

/-! # Trails of errors

The trail of an error leads from the text that was given to the text where the error
arose, each text inside the next. Every text of the trail fails on its own, with the
same cause and with the trail up to it: no rule replaces or reorders what a nested
text reported.
-/

namespace Parley

namespace Engine

variable {e : Engine} {text : Text} {err : GrammarError}

/-- An error of a reading arises in it, or is the error of the object of a nested text. -/
theorem Descends.nested_error (he : e.Descends) {α : Type} {reading : Reading α}
    (hr : reading.AsksInside text) (h : reading.denote e.meaning = .error err) :
    err.trail = [] ∨ ∃ t : Text, t.Inside text ∧ e.meaning.object t = .error err := by
  induction hn : text.length using Nat.strong_induction_on generalizing text α with
  | _ n ih =>
    subst hn
    have hm : Contract.Grants { ask := (·.Inside text) } e.meaning :=
      ⟨fun _ _ _ _ => trivial, fun _ _ _ _ => trivial, fun _ _ _ _ => trivial⟩
    rcases hr.error hm h with ⟨-, ht⟩ | ⟨t, ht, ho | hp⟩
    · exact .inl ht
    · exact .inr ⟨t, ht, ho⟩
    · -- A nested proposition adds nothing to the trail, so its error came from further inside.
      rw [he.meaning_proposition] at hp
      refine (ih _ ht.2 (Grammar.proposition_asks e.setting t) hp rfl).imp_right ?_
      rintro ⟨u, hu, ho⟩
      exact ⟨u, hu.trans_isInfix ht.1, ho⟩

/-- The text of an error ends its trail, and what stands before it is the trail of a text inside. -/
theorem Descends.object_error (he : e.Descends) (h : e.meaning.object text = .error err) :
    (∃ cause, err = .through cause [text]) ∨ ∃ (t : Text) (inner : GrammarError),
      t.Inside text ∧ e.meaning.object t = .error inner ∧ err = inner.within text := by
  rw [he.meaning_object, select] at h
  cases hd : (Rule.firstOf e.rules e.setting text).denote e.meaning with
  | value o => rw [hd] at h; cases h
  | declined =>
    rw [hd] at h
    obtain rfl := Except.error.inj h
    exact .inl ⟨_, rfl⟩
  | error inner =>
    rw [hd] at h
    obtain rfl := Except.error.inj h
    rcases he.nested_error (he.firstOf text) hd with ht | ⟨t, ht, ho⟩
    · obtain ⟨cause, trail, given⟩ := inner
      obtain rfl : trail = [] := ht
      exact .inl ⟨cause, rfl⟩
    · exact .inr ⟨t, inner, ht, ho, rfl⟩

theorem Descends.object_error_input? (he : e.Descends) (h : e.meaning.object text = .error err) :
    err.input? = some text := by
  obtain ⟨cause, rfl⟩ | ⟨t, inner, -, -, rfl⟩ := he.object_error h <;> rfl

/-- The trail of an error leads outwards to its text, and each text of it fails with the trail
up to it. -/
theorem Descends.trail_faithful (he : e.Descends) (h : e.meaning.object text = .error err) :
    err.trail.getLast? = some text ∧ err.trail.IsChain Text.Inside ∧
      ∀ i (hi : i < err.trail.length),
        e.meaning.object err.trail[i] =
          .error ⟨err.cause, err.trail.take (i + 1), some err.trail[i]⟩ := by
  induction hn : text.length using Nat.strong_induction_on generalizing text err with
  | _ n ih =>
    subst hn
    rcases he.object_error h with ⟨cause, rfl⟩ | ⟨t, inner, ht, ho, rfl⟩
    · refine ⟨rfl, .singleton text, fun i hi => ?_⟩
      obtain rfl : i = 0 := Nat.lt_one_iff.mp hi
      exact h
    · obtain ⟨hlast, hchain, heach⟩ := ih _ ht.2 ho rfl
      refine ⟨List.getLast?_concat, ?_, fun i hi => ?_⟩
      · refine hchain.append (.singleton text) fun a ha b hb => ?_
        rw [hlast] at ha
        obtain rfl := Option.some.inj ha
        obtain rfl := Option.some.inj hb
        exact ht
      · simp only [GrammarError.within_trail, GrammarError.within_cause] at hi ⊢
        rcases Nat.lt_or_ge i inner.trail.length with hlt | hge
        · rw [List.getElem_append_left hlt, List.take_append_of_le_length hlt]
          exact heach i hlt
        · obtain rfl : i = inner.trail.length := by
            simp only [List.length_append, List.length_singleton] at hi
            omega
          rw [List.getElem_concat_length rfl, List.take_of_length_le (by simp)]
          exact h

end Engine

namespace Parser

/-- In every state of a parser, the trail of an error ends with the text that was given, each of
its texts lies inside the next one, and each fails on its own with the same cause and with the
trail up to it. -/
theorem parse_error_trail {ontology : Ontology} {config : Config} {p : Parser} {text : Text}
    {err : GrammarError} (hp : Reachable ontology config p)
    (h : (p.parse text).1 = .error err) :
    err.trail ≠ [] ∧ err.trail.getLast? = some text ∧ err.input? = some text ∧
      (∀ i (_ : i + 1 < err.trail.length),
        err.trail[i] <:+: err.trail[i + 1] ∧ err.trail[i].length < err.trail[i + 1].length) ∧
      ∀ q, Reachable ontology config q → ∀ i (_ : i < err.trail.length),
        (q.parse err.trail[i]).1 =
          .error ⟨err.cause, err.trail.take (i + 1), some err.trail[i]⟩ := by
  rw [(hp.continues.parse text).1] at h
  obtain ⟨hlast, hchain, heach⟩ := (engine_descends _).trail_faithful h
  refine ⟨?_, hlast, (engine_descends _).object_error_input? h,
    List.isChain_iff_getElem.mp hchain, fun q hq i hi => ?_⟩
  · intro hnil
    simp [hnil] at hlast
  · rw [(hq.continues.parse _).1]
    exact heach i hi

/-- The question inside an answer fails with the part of the answer's trail that leads to it. -/
theorem parse_error_trail_answer :
    let p := (performAll ⟨{ name := "travel" }, {}, {}⟩ [.parse "yes"]).2
    (p.parse "answer(?%)").1 =
        .error (.through (.noRuleMatched "Ontology(travel)") ["%", "?%", "answer(?%)"]) ∧
      (p.parse "?%").1 = .error (.through (.noRuleMatched "Ontology(travel)") ["%", "?%"]) := by
  intro p
  have hp : Reachable { name := "travel" } {} p := ⟨[.parse "yes"], rfl⟩
  have h : (p.parse "answer(?%)").1 =
      .error (.through (.noRuleMatched "Ontology(travel)") ["%", "?%", "answer(?%)"]) := rfl
  exact ⟨h, (parse_error_trail hp h).2.2.2.2 p hp 1 (by decide)⟩

end Parser

end Parley
