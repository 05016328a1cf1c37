import Parley.Proofs.Surface.Trim

/-! # Shapes of texts

A text that denotes something is a name, or a name followed by a mark that says how
the text goes on: a call, a quoted text, the parts of a management move, a
conditional, or a container. No text of such a shape goes on with a comma to another
one: what closes it, or what would have to follow its mark, does not allow it.
-/

namespace Parley

/-- The characters of names and numbers, and the sign of negation. -/
def isPlainChar (c : Char) : Bool :=
  isWordChar c || c.isDigit || c == '.' || c == '~'

/-- Blanks, commas, and the ends of containers. -/
def isBreak (c : Char) : Bool :=
  isBlank c || [',', ']', '}'].contains c

/-- The first character of a text that belongs to no name. -/
def Text.mark (text : Text) : Option Char :=
  text.find? fun c => !isPlainChar c

/-- The shapes of propositions: names and calls. -/
inductive Plain : Text → Prop
  | name {text : Text} (hn : text ≠ []) (hm : text.mark = none) : Plain text
  | call {lead inner : Text} (hl : lead.mark = none) (hi : isBalanced inner = true) :
    Plain (lead ++ '(' :: (inner ++ [')']))

/-- The shapes of texts that denote something. -/
inductive Shaped : Text → Prop
  | plain {text : Text} (h : Plain text) : Shaped text
  | quoted {lead inner : Text} {quote : Char} (hl : lead.mark = none) (hq : quote ∈ ['"', '\''])
    (hi : quote ∉ inner) : Shaped (lead ++ quote :: (inner ++ [quote]))
  /-- Questions, and the parts of management moves. -/
  | marked {lead text : Text} {mark : Char} (hl : lead.mark = none) (hm : mark ∈ ['?', ':', '*'])
    (h : Shaped text) : Shaped (lead ++ mark :: text)
  | conditional {condition consequent alternative : Text} (hc : Plain condition)
    (hx : FollowsLast " then" consequent) (hy : FollowsLast " else" alternative)
    (consequent_shaped : consequent.isBlankText = false → Shaped consequent.trim)
    (alternative_shaped : alternative.isBlankText = false → Shaped alternative.trim) :
    Shaped ("if" ++ ' ' :: (condition ++ " then" ++ consequent ++ " else" ++ alternative))
  | container {left right : Char} {inner : Text} (hb : (left, right) ∈ [('[', ']'), ('{', '}')])
    (h : ∀ piece ∈ splitTopLevel ',' inner, Shaped piece) :
    Shaped ([] ++ left :: (inner ++ [right]))

theorem Plain.ne_nil {text : Text} (h : Plain text) : text ≠ [] := by
  cases h with
  | name hn _ => exact hn
  | call _ _ => simp

section Mark

variable {lead rest text : Text} {c : Char}

theorem mark_append (s t : Text) : (s ++ t).mark = s.mark.or t.mark :=
  List.find?_append

theorem mark_cons (hc : isPlainChar c = false) (t : Text) : Text.mark (c :: t) = some c := by
  simp [Text.mark, hc]

theorem mark_eq_none_iff : text.mark = none ↔ ∀ c ∈ text, isPlainChar c = true := by
  simp [Text.mark]

theorem mark_append_cons (hl : lead.mark = none) (hc : isPlainChar c = false) :
    (lead ++ c :: rest).mark = some c := by
  rw [mark_append, hl, mark_cons hc]
  rfl

theorem mark_unique {lead' rest' : Text} {c' : Char} (hl : lead.mark = none)
    (hl' : lead'.mark = none) (hc : isPlainChar c = false) (hc' : isPlainChar c' = false)
    (h : lead ++ c :: rest = lead' ++ c' :: rest') : lead = lead' ∧ c = c' ∧ rest = rest' := by
  have hm := congrArg Text.mark h
  rw [mark_append_cons hl hc, mark_append_cons hl' hc'] at hm
  obtain rfl := Option.some.inj hm
  have hcut : ∀ {lead rest : Text}, lead.mark = none →
      Text.cut? c (lead ++ c :: rest) = some (lead, rest) := by
    intro lead rest hl
    refine Text.cut?_eq_some_iff.mpr ⟨rfl, fun hm => ?_⟩
    simp [mark_eq_none_iff.mp hl c hm] at hc
  have he := (hcut hl).symm.trans (h ▸ hcut hl')
  simpa using he

def blankCodes : List Nat :=
  [0x09, 0x0A, 0x0B, 0x0C, 0x0D, 0x20, 0x85, 0xA0, 0x1680, 0x2000, 0x2001, 0x2002, 0x2003, 0x2004,
    0x2005, 0x2006, 0x2007, 0x2008, 0x2009, 0x200A, 0x2028, 0x2029, 0x202F, 0x205F, 0x3000]

theorem isPlainChar_of_isBlank (h : isBlank c = true) : isPlainChar c = false := by
  have hmem : c.toNat ∈ blankCodes := by
    simp only [isBlank, Bool.or_eq_true, Bool.and_eq_true, decide_eq_true_eq, beq_iff_eq] at h
    simp only [blankCodes, List.mem_cons, List.not_mem_nil, or_false]
    omega
  have hall : ∀ n ∈ blankCodes, isPlainChar (Char.ofNat n) = false := by decide +kernel
  simpa using hall c.toNat hmem

theorem isPlainChar_of_isBreak (h : isBreak c = true) : isPlainChar c = false := by
  rcases Bool.or_eq_true_iff.mp h with h | h
  · exact isPlainChar_of_isBlank h
  · simp only [List.contains_eq_mem, List.mem_cons, List.not_mem_nil, or_false,
      decide_eq_true_eq] at h
    rcases h with rfl | rfl | rfl <;> rfl

end Mark

theorem Nesting.feedAll_unbalanced {n : Nesting} (h : n.unbalanced = true) (text : Text) :
    (n.feedAll text).unbalanced = true := by
  induction text generalizing n with
  | nil => exact h
  | cons c text ih =>
    refine ih ?_
    simp only [feed, feedOpen]
    repeat' split
    all_goals simp [h]

/-- A balanced text does not go on to another one with the end of a call. -/
theorem isBalanced_append {inner : Text} (h : isBalanced inner = true) (text : Text) :
    isBalanced (inner ++ ')' :: text) = false := by
  simp only [isBalanced, Nesting.isClosed, Bool.and_eq_true, Bool.not_eq_true', beq_iff_eq,
    Option.isNone_iff_eq_none] at h
  obtain ⟨⟨-, hdepth⟩, hquote⟩ := h
  have hfeed : ((Nesting.feedAll {} inner).feed ')').unbalanced = true := by
    simp [Nesting.feed, Nesting.feedOpen, hquote, hdepth]
  have hall := Nesting.feedAll_unbalanced hfeed text
  simp only [isBalanced, Nesting.isClosed, Nesting.feedAll_append, Nesting.feedAll_cons, hall]
  rfl

section Shape

variable {lead rest text : Text} {mark : Char}

theorem Plain.of_mark (hl : lead.mark = none) (hm : isPlainChar mark = false)
    (h : Plain (lead ++ mark :: rest)) :
    mark = '(' ∧ ∃ inner, rest = inner ++ [')'] ∧ isBalanced inner = true := by
  generalize he : lead ++ mark :: rest = text at h
  cases h with
  | name hn hnone =>
    rw [← he, mark_append_cons hl hm] at hnone
    cases hnone
  | call hl' hi =>
    obtain ⟨-, rfl, rfl⟩ := mark_unique hl hl' hm rfl he
    exact ⟨rfl, _, rfl, hi⟩

/-- What follows a mark in a text that denotes something. -/
theorem Shaped.of_mark (hl : lead.mark = none) (hm : isPlainChar mark = false)
    (h : Shaped (lead ++ mark :: rest)) :
    (mark = '(' ∧ ∃ inner, rest = inner ++ [')'] ∧ isBalanced inner = true) ∨
    (mark ∈ ['"', '\''] ∧ ∃ inner, rest = inner ++ [mark] ∧ mark ∉ inner) ∨
    (mark ∈ ['?', ':', '*'] ∧ Shaped rest) ∨
    (mark = ' ' ∧ lead = "if" ∧ ∃ condition consequent alternative : Text,
      rest = condition ++ " then" ++ consequent ++ " else" ++ alternative ∧ Plain condition ∧
      FollowsLast " then" consequent ∧ FollowsLast " else" alternative ∧
      (consequent.isBlankText = false → Shaped consequent.trim) ∧
      (alternative.isBlankText = false → Shaped alternative.trim)) ∨
    (∃ right inner, (mark, right) ∈ [('[', ']'), ('{', '}')] ∧ rest = inner ++ [right] ∧
      ∀ piece ∈ splitTopLevel ',' inner, Shaped piece) := by
  generalize he : lead ++ mark :: rest = text at h
  cases h with
  | plain h =>
    subst he
    exact .inl (h.of_mark hl hm)
  | @quoted _ _ quote hl' hq hi =>
    have hp : isPlainChar quote = false := by
      simp only [List.mem_cons, List.not_mem_nil, or_false] at hq
      rcases hq with rfl | rfl <;> rfl
    obtain ⟨-, rfl, rfl⟩ := mark_unique hl hl' hm hp he
    exact .inr (.inl ⟨hq, _, rfl, hi⟩)
  | @marked _ _ mark' hl' hk h =>
    have hp : isPlainChar mark' = false := by
      simp only [List.mem_cons, List.not_mem_nil, or_false] at hk
      rcases hk with rfl | rfl | rfl <;> rfl
    obtain ⟨-, rfl, rfl⟩ := mark_unique hl hl' hm hp he
    exact .inr (.inr (.inl ⟨hk, h⟩))
  | conditional hc hx hy hconsequent halternative =>
    obtain ⟨rfl, rfl, rfl⟩ := mark_unique hl rfl hm rfl he
    exact .inr (.inr (.inr (.inl ⟨rfl, rfl, _, _, _, rfl, hc, hx, hy, hconsequent, halternative⟩)))
  | @container left right _ hb h =>
    have hp : isPlainChar left = false := by
      simp only [List.mem_cons, List.not_mem_nil, or_false, Prod.mk.injEq] at hb
      rcases hb with ⟨rfl, -⟩ | ⟨rfl, -⟩ <;> rfl
    obtain ⟨-, rfl, rfl⟩ := mark_unique hl rfl hm hp he
    exact .inr (.inr (.inr (.inr ⟨_, _, hb, rfl, h⟩)))

theorem Shaped.of_call (hl : lead.mark = none) (h : Shaped (lead ++ '(' :: rest)) :
    ∃ inner, rest = inner ++ [')'] ∧ isBalanced inner = true := by
  simpa using h.of_mark hl rfl

theorem Shaped.of_quote (hl : lead.mark = none) (hq : mark ∈ ['"', '\''])
    (h : Shaped (lead ++ mark :: rest)) : ∃ inner, rest = inner ++ [mark] ∧ mark ∉ inner := by
  simp only [List.mem_cons, List.not_mem_nil, or_false] at hq
  rcases hq with rfl | rfl <;> simpa using h.of_mark hl rfl

theorem Shaped.of_marked (hl : lead.mark = none) (hm : mark ∈ ['?', ':', '*'])
    (h : Shaped (lead ++ mark :: rest)) : Shaped rest := by
  simp only [List.mem_cons, List.not_mem_nil, or_false] at hm
  rcases hm with rfl | rfl | rfl <;> simpa using h.of_mark hl rfl

theorem Shaped.of_if (h : Shaped ("if" ++ ' ' :: rest)) :
    ∃ condition consequent alternative : Text,
      rest = condition ++ " then" ++ consequent ++ " else" ++ alternative ∧ Plain condition ∧
      FollowsLast " then" consequent ∧ FollowsLast " else" alternative ∧
      (consequent.isBlankText = false → Shaped consequent.trim) ∧
      (alternative.isBlankText = false → Shaped alternative.trim) := by
  rcases h.of_mark rfl rfl with ⟨hm, -⟩ | ⟨hm, -⟩ | ⟨hm, -⟩ | ⟨-, -, h⟩ | ⟨_, _, hm, -⟩
  · simp at hm
  · simp at hm
  · simp at hm
  · exact h
  · simp at hm

theorem Shaped.of_left {left right : Char} (hb : (left, right) ∈ [('[', ']'), ('{', '}')])
    (h : Shaped ([] ++ left :: rest)) :
    ∃ inner, rest = inner ++ [right] ∧ ∀ piece ∈ splitTopLevel ',' inner, Shaped piece := by
  simp only [List.mem_cons, List.not_mem_nil, or_false, Prod.mk.injEq] at hb
  rcases hb with ⟨rfl, rfl⟩ | ⟨rfl, rfl⟩ <;> simpa using h.of_mark rfl rfl

/-- Only a conditional has a blank or an end after its first name. -/
theorem Shaped.of_break (hl : lead.mark = none) (hb : isBreak mark = true)
    (h : Shaped (lead ++ mark :: rest)) : mark = ' ' ∧ lead = "if" := by
  rcases h.of_mark hl (isPlainChar_of_isBreak hb) with
    ⟨rfl, -⟩ | ⟨hk, -⟩ | ⟨hk, -⟩ | ⟨rfl, rfl, -⟩ | ⟨right, _, hk, -⟩
  · exact absurd hb (by decide)
  · simp only [List.mem_cons, List.not_mem_nil, or_false] at hk
    rcases hk with rfl | rfl <;> exact absurd hb (by decide)
  · simp only [List.mem_cons, List.not_mem_nil, or_false] at hk
    rcases hk with rfl | rfl | rfl <;> exact absurd hb (by decide)
  · exact ⟨rfl, rfl⟩
  · simp only [List.mem_cons, List.not_mem_nil, or_false, Prod.mk.injEq] at hk
    rcases hk with ⟨rfl, -⟩ | ⟨rfl, -⟩ <;> exact absurd hb (by decide)

theorem Shaped.not_break_cons (h : Shaped (mark :: rest)) (hb : isBreak mark = true) : False := by
  have he := (@Shaped.of_break [] rest mark rfl hb h).2
  exact absurd he (by decide)

end Shape

end Parley
