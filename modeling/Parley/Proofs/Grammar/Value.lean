import Parley.Grammar.Value
import Parley.Proofs.Surface.Cut

/-! # Values of texts

A text has at most one value, and the form of the text says which: a decimal, a run of
digits, a quoted text, the name of an enumerated individual, or one of two calls.
-/

namespace Parley.Grammar

variable {s : Setting} {text : Text} {v : Value}

theorem enumerated?_eq_some (h : enumerated? s text = some v) :
    v = .enumerated text ∧ ∃ sort, s.ontology.individuals.get? text = some sort ∧
      sort ≠ .string ∧ sort ≠ .real := by
  unfold enumerated? Ontology.individualSort at h
  cases hg : s.ontology.individuals.get? text with
  | none => simp [hg] at h
  | some sort =>
    simp only [hg] at h
    split at h
    · cases h
    · rename_i hn
      simp only [Bool.or_eq_true, decide_eq_true_eq, not_or] at hn
      exact ⟨(Option.some.inj h).symm, sort, rfl, hn⟩

/-- The forms of texts that have values. -/
theorem value?_cases (h : value? s text = some v) :
    (isDecimal text = true ∧ ∃ x, v = .real x) ∨
    (isDigits text = true ∧ ∃ n, v = .integer n) ∨
    (∃ inner, unquote? text = some inner ∧ s.ontology.hasSort .string = true ∧
      v = .string inner) ∨
    enumerated? s text = some v ∨
    (∃ inner, nonemptyCall? "person_name" text = some inner ∧ v = .personName inner) ∨
    ∃ inner, nonemptyCall? "datetime" text = some inner ∧ v = .dateTime inner := by
  unfold value? at h
  split at h
  · rename_i hd
    obtain ⟨x, -, rfl⟩ := Option.map_eq_some_iff.mp h
    exact .inl ⟨hd, x, rfl⟩
  · split at h
    · rename_i hd
      obtain ⟨n, -, rfl⟩ := Option.map_eq_some_iff.mp h
      exact .inr (.inl ⟨hd, n, rfl⟩)
    · split at h
      · rename_i inner hq
        split at h
        · rename_i hs
          exact .inr (.inr (.inl ⟨inner, hq, hs, (Option.some.inj h).symm⟩))
        · cases h
      · rcases Option.or_eq_some_iff.mp h with h | ⟨-, h⟩
        · rcases Option.or_eq_some_iff.mp h with h | ⟨-, h⟩
          · exact .inr (.inr (.inr (.inl h)))
          · obtain ⟨inner, hc, rfl⟩ := Option.map_eq_some_iff.mp h
            exact .inr (.inr (.inr (.inr (.inl ⟨inner, hc, rfl⟩))))
        · obtain ⟨inner, hc, rfl⟩ := Option.map_eq_some_iff.mp h
          exact .inr (.inr (.inr (.inr (.inr ⟨inner, hc, rfl⟩))))

theorem isDecimal_of_not_mem (h : '.' ∉ text) : isDecimal text = false := by
  rw [isDecimal, Text.cut?_eq_none_iff.mpr h]

/-- A decimal starts with a digit or with the point. -/
theorem isDecimal_cons {c : Char} (hd : c.isDigit = false) (hp : c ≠ '.') (text : Text) :
    isDecimal (c :: text) = false := by
  unfold isDecimal
  split
  · rename_i whole fraction hc
    obtain ⟨whole, rfl⟩ := Text.exists_of_cut?_cons hp hc
    simp [hd]
  · rfl

/-- A run of digits has a value as a number or none at all. -/
theorem value?_of_isDigits (h : isDigits text = true) :
    value? s text = (digitsBelow? (Nat.pow 2 63) text).map fun n => .integer n := by
  have hpoint : '.' ∉ text := by
    intro hm
    have hdigit := List.all_eq_true.mp (Bool.and_eq_true_iff.mp h).2 '.' hm
    cases hdigit
  rw [value?, isDecimal_of_not_mem hpoint, h]
  cases digitsBelow? (Nat.pow 2 63) text <;> rfl

theorem individual_of_value?_none (h : value? s (splitPolarity text).2 = none) :
    individual s text = .declined := by
  simp only [individual, h]
  rfl

end Parley.Grammar
