import Parley.Proofs.Grammar.Fields
import Parley.Proofs.Grammar.Opening

/-! # Individuals as they are shown

An individual that was read from a text is shown as a text that is read as the same
individual. A number loses its leading zeros and a string may change its quotes; all
other values are shown as they were written. A string comes back only if no character
of it is escaped, since the grammar knows no escapes.
-/

namespace Parley

namespace Text

variable {c : Char} {text : Text}

theorem quotedChar_cases (c : Char) :
    quotedChar c = [c] ∨ ∃ d rest, quotedChar c = '\\' :: d :: rest := by
  unfold quotedChar
  repeat' split
  all_goals first
    | exact .inl rfl
    | exact .inr ⟨_, _, rfl⟩

theorem quotedChar_quote : quotedChar '"' ≠ ['"'] := by decide

theorem length_le_flatMap_quotedChar (text : Text) :
    text.length ≤ (text.flatMap quotedChar).length := by
  induction text with
  | nil => simp
  | cons c text ih =>
    rw [List.flatMap_cons, List.length_append, List.length_cons]
    rcases quotedChar_cases c with h | ⟨d, rest, h⟩
    · rw [h, List.length_singleton]
      omega
    · rw [h, List.length_cons]
      omega

/-- Escapes make a text longer. -/
theorem flatMap_quotedChar_eq_self_iff :
    text.flatMap quotedChar = text ↔ ∀ c ∈ text, quotedChar c = [c] := by
  induction text with
  | nil => simp
  | cons c text ih =>
    rw [List.flatMap_cons, List.forall_mem_cons, ← ih]
    rcases quotedChar_cases c with h | ⟨d, rest, h⟩
    · simp [h]
    · have hlength := length_le_flatMap_quotedChar text
      rw [h]
      constructor
      · intro he
        have hl := congrArg List.length he
        simp only [List.length_append, List.length_cons] at hl
        omega
      · rintro ⟨he, -⟩
        simp at he

end Text

theorem Ontology.individual_eq_ok {o : Ontology} {v : Value} {found : Individual}
    (h : o.individual v = .ok found) : found.value = v ∧ found.polarity = .pos := by
  unfold Ontology.individual at h
  cases hs : o.sortOf v with
  | error e =>
    rw [hs] at h
    cases h
  | ok sort =>
    rw [hs] at h
    change (if _ then _ else _) = _ at h
    split at h
    · cases h
    · obtain rfl := Except.ok.inj h
      exact ⟨rfl, rfl⟩

namespace Grammar

open Reading

variable {s : Setting} {text inner : Text} {v : Value} {i : Individual}

theorem individual_eq_done_iff :
    individual s text = .done i ↔
      value? s (splitPolarity text).2 = some i.value ∧
        s.ontology.individual i.value = .ok { i with polarity := .pos } ∧
        i.polarity = (splitPolarity text).1 := by
  rw [individual]
  rcases splitPolarity text with ⟨polarity, body⟩
  constructor
  · intro h
    cases hv : value? s body with
    | none =>
      simp only [hv] at h
      cases h
    | some v =>
      simp only [hv] at h
      change ofOntology (s.ontology.individual v) >>= _ = _ at h
      cases ho : s.ontology.individual v with
      | error e =>
        rw [ho] at h
        cases h
      | ok found =>
        rw [ho] at h
        obtain ⟨rfl, hpos⟩ := Ontology.individual_eq_ok ho
        obtain ⟨name, value, sort, _⟩ := found
        obtain rfl : _ = Polarity.pos := hpos
        cases polarity with
        | pos =>
          obtain rfl := Reading.done.inj h
          exact ⟨rfl, ho, rfl⟩
        | neg =>
          obtain rfl := Reading.done.inj h
          exact ⟨rfl, ho, rfl⟩
  · rintro ⟨hv, ho, hp⟩
    obtain ⟨name, value, sort, _⟩ := i
    obtain rfl : _ = polarity := hp
    simp only at hv ho ⊢
    simp only [hv]
    change ofOntology (s.ontology.individual value) >>= _ = _
    rw [ho]
    cases ‹Polarity› <;> rfl

theorem isDigits_toDigits (n : Nat) : isDigits (Nat.toDigits 10 n) = true := by
  rw [isDigits, Bool.and_eq_true_iff, List.all_eq_true]
  constructor
  · simp [Nat.toDigits_ne_nil]
  · intro c hc
    exact Nat.isDigit_of_mem_toDigits (by decide) (by decide) hc

theorem value?_toDigits {n : Nat} (h : n < Nat.pow 2 63) :
    value? s (Nat.toDigits 10 n) = some (.integer n) := by
  have hbelow : digitsBelow? (Nat.pow 2 63) (Nat.toDigits 10 n) = some n := by
    simp only [digitsBelow?, isDigits_toDigits, Nat.ofDigitChars_ten_toDigits, h]
    rfl
  rw [value?_of_isDigits (isDigits_toDigits n), hbelow]
  rfl

theorem value?_doubleQuoted (hs : s.ontology.hasSort .string = true) (h : '"' ∉ inner) :
    value? s ('"' :: inner ++ ['"']) = some (.string inner) := by
  have hdecimal : isDecimal ('"' :: inner ++ ['"']) = false := isDecimal_cons rfl (by decide) _
  have hdigits : isDigits ('"' :: inner ++ ['"']) = false := rfl
  rw [value?, hdecimal, hdigits, unquote?_doubleQuoted h, hs]
  rfl

theorem eq_of_unquote?_doubleQuoted (h : unquote? ('"' :: text ++ ['"']) = some inner) :
    text = inner := by
  rcases Option.or_eq_some_iff.mp h with h | ⟨-, h⟩
  · simpa using (quotedBy?_eq_some_iff.mp h).1
  · simp [quotedBy?_eq_some_iff] at h

theorem value?_quoted_iff (hs : s.ontology.hasSort .string = true) :
    value? s inner.quoted = some (.string inner) ↔ ∀ c ∈ inner, Text.quotedChar c = [c] := by
  constructor
  · intro h
    rcases value?_cases h with ⟨-, _, ⟨⟩⟩ | ⟨-, _, ⟨⟩⟩ | ⟨_, hq, -, ⟨⟩⟩ | he | ⟨_, -, ⟨⟩⟩ |
      ⟨_, -, ⟨⟩⟩
    · exact Text.flatMap_quotedChar_eq_self_iff.mp (eq_of_unquote?_doubleQuoted hq)
    · cases (enumerated?_eq_some he).1
  · intro h
    have hquote : '"' ∉ inner := fun hm => Text.quotedChar_quote (h '"' hm)
    rw [Text.quoted, Text.flatMap_quotedChar_eq_self_iff.mpr h]
    exact value?_doubleQuoted hs hquote

/-- Reals, numbers and strings may be shown in another way than they were written; all other values
are shown as the text they were read from. -/
theorem value?_render_cases (h : value? s text = some v) :
    (∃ x, v = .real x) ∨ (∃ n : Nat, n < Nat.pow 2 63 ∧ v = .integer n) ∨
      (∃ inner, s.ontology.hasSort .string = true ∧ v = .string inner) ∨
      (∀ inner, v ≠ .string inner) ∧ v.render = text := by
  rcases value?_cases h with ⟨-, hx⟩ | ⟨hd, n, rfl⟩ | ⟨inner, -, hs, he⟩ | he | ⟨inner, hc, rfl⟩ |
    ⟨inner, hc, rfl⟩
  · exact .inl hx
  · rw [value?_of_isDigits hd] at h
    obtain ⟨k, hk, hn⟩ := Option.map_eq_some_iff.mp h
    rw [digitsBelow?] at hk
    split at hk
    · rename_i hbelow
      obtain rfl := Option.some.inj hk
      simp only [Bool.and_eq_true, decide_eq_true_eq] at hbelow
      exact .inr (.inl ⟨_, hbelow.2, hn.symm⟩)
    · cases hk
  · exact .inr (.inr (.inl ⟨inner, hs, he⟩))
  · obtain ⟨rfl, -⟩ := enumerated?_eq_some he
    exact .inr (.inr (.inr ⟨nofun, rfl⟩))
  · obtain ⟨rfl, -⟩ := call?_eq_some_iff.mp (Option.filter_eq_some_iff.mp hc).1
    exact .inr (.inr (.inr ⟨nofun, by simp [Value.render, Text.concat]⟩))
  · obtain ⟨rfl, -⟩ := call?_eq_some_iff.mp (Option.filter_eq_some_iff.mp hc).1
    exact .inr (.inr (.inr ⟨nofun, by simp [Value.render, Text.concat]⟩))

/-- A value but a real is read back from what is shown of it, unless it is a string with escapes. -/
theorem value?_render_iff (h : value? s text = some v) (hreal : ∀ x, v ≠ .real x) :
    value? s v.render = some v ↔
      ∀ inner, v = .string inner → ∀ c ∈ inner, Text.quotedChar c = [c] := by
  rcases value?_render_cases h with ⟨x, rfl⟩ | ⟨n, hn, rfl⟩ | ⟨inner, hs, rfl⟩ | ⟨hstring, he⟩
  · exact absurd rfl (hreal x)
  · exact iff_of_true (value?_toDigits hn) nofun
  · rw [Value.render, value?_quoted_iff hs]
    simp
  · rw [he]
    exact iff_of_true h fun inner hv => absurd hv (hstring inner)

theorem splitPolarity_of_pos (h : (splitPolarity text).1 = .pos) :
    splitPolarity text = (.pos, text) := by
  apply splitPolarity_of_unmarked
  rintro rest rfl
  cases h

/-- The mark is the only sign of negation that is shown. -/
theorem splitPolarity_render (h : individual s text = .done i) (hreal : ∀ x, i.value ≠ .real x) :
    splitPolarity i.render = (i.polarity, i.value.render) := by
  obtain ⟨hv, -, hp⟩ := individual_eq_done_iff.mp h
  rw [Individual.render]
  cases hi : i.polarity with
  | neg => rfl
  | pos =>
    change splitPolarity i.value.render = (.pos, i.value.render)
    apply splitPolarity_of_unmarked
    intro rest he
    rcases value?_render_cases hv with ⟨x, hx⟩ | ⟨n, -, hn⟩ | ⟨inner, -, hs⟩ | ⟨-, hbody⟩
    · exact hreal x hx
    · have hdigits := isDigits_toDigits n
      rw [hn] at he
      change Nat.toDigits 10 n = '~' :: rest at he
      rw [he] at hdigits
      cases hdigits
    · rw [hs] at he
      cases he
    · -- The text has no mark of its own, so that its value starts as the text does.
      have hsplit := splitPolarity_of_pos (hp.symm.trans hi)
      have htext : '~' :: rest = text := by rw [← he, hbody, hsplit]
      rw [← htext] at hsplit
      cases hsplit

/-- An individual of a text, other than a real, is shown as a text that is read as this individual,
with its value, its sort and its polarity. The only exceptions are strings in which some
character is escaped. -/
theorem individual_render_iff (h : individual s text = .done i)
    (hreal : ∀ x, i.value ≠ .real x) :
    individual s i.render = .done i ↔
      ∀ inner, i.value = .string inner → ∀ c ∈ inner, Text.quotedChar c = [c] := by
  obtain ⟨hv, ho, -⟩ := individual_eq_done_iff.mp h
  rw [individual_eq_done_iff, splitPolarity_render h hreal, ← value?_render_iff hv hreal]
  exact ⟨And.left, fun hrender => ⟨hrender, ho, rfl⟩⟩

/-- A negated number with leading zeros, the negation of an individual whose name starts with the
mark itself, and a string with a backslash, which does not come back. -/
theorem individual_render_iff_zeros :
    let city : Sortal := .custom "city"
    let s : Setting :=
      ⟨{ name := "travel", predicates := [("comment", .string)],
         individuals := [("~paris", city)] }, none⟩
    let seven : Individual := ⟨"travel", .integer 7, .integer, .neg⟩
    let paris : Individual := ⟨"travel", .enumerated "~paris", city, .neg⟩
    let said : Individual := ⟨"travel", .string "it's", .string, .pos⟩
    let path : Individual := ⟨"travel", .string "a\\b", .string, .pos⟩
    (seven.render = "~7" ∧ individual s "~007" = .done seven ∧ individual s "~7" = .done seven) ∧
      (paris.render = "~~paris" ∧ individual s "~~paris" = .done paris) ∧
      (individual s "\"it's\"" = .done said ∧ individual s said.render = .done said) ∧
      individual s "'a\\b'" = .done path ∧ individual s path.render ≠ .done path := by
  intro city s seven paris said path
  have hseven : individual s "~007" = .done seven := rfl
  have hparis : individual s "~~paris" = .done paris := rfl
  have hsaid : individual s "\"it's\"" = .done said := rfl
  have hpath : individual s "'a\\b'" = .done path := rfl
  refine ⟨⟨rfl, hseven, ?_⟩, ⟨rfl, ?_⟩, ⟨hsaid, ?_⟩, hpath, ?_⟩
  · exact (individual_render_iff hseven nofun).mpr nofun
  · exact (individual_render_iff hparis nofun).mpr nofun
  · refine (individual_render_iff hsaid nofun).mpr ?_
    rintro _ ⟨⟩
    exact Text.flatMap_quotedChar_eq_self_iff.mp rfl
  · intro hread
    have hplain := (individual_render_iff hpath nofun).mp hread _ rfl '\\' (by decide)
    cases hplain

end Grammar

end Parley
