import Mathlib.Data.List.Infix
import Parley.Surface.Conditional
import Parley.Surface.Enclosed
import Parley.Surface.Management
import Parley.Surface.Split

/-! # Equations of the cutters

Each function that cuts a text is described by the equation between the text and
its parts, and by what makes the cut the first or the last one.
-/

namespace Parley

namespace Text

variable {text before after : Text}

theorem cut?_eq_some_iff {mark : Char} :
    cut? mark text = some (before, after) ↔ text = before ++ mark :: after ∧ mark ∉ before := by
  induction text generalizing before with
  | nil => simp [cut?]
  | cons c text ih =>
    by_cases h : c = mark
    · subst h
      cases before <;> simp [cut?]
      rintro rfl _ h
      exact absurd rfl h
    · cases before with
      | nil => simp [cut?, h]
      | cons b before =>
        simp only [cut?, h, if_false, Option.map_eq_some_iff, Prod.exists, Prod.mk.injEq,
          List.cons.injEq, List.cons_append, List.mem_cons, not_or]
        constructor
        · rintro ⟨b', a', hc, ⟨rfl, rfl⟩, rfl⟩
          obtain ⟨rfl, hm⟩ := ih.mp hc
          exact ⟨⟨rfl, rfl⟩, Ne.symm h, hm⟩
        · rintro ⟨⟨rfl, rfl⟩, _, hm⟩
          exact ⟨before, after, ih.mpr ⟨rfl, hm⟩, ⟨rfl, rfl⟩, rfl⟩

theorem cut?_eq_none_iff {mark : Char} : cut? mark text = none ↔ mark ∉ text := by
  induction text with
  | nil => simp [cut?]
  | cons c text ih =>
    rw [cut?, List.mem_cons, not_or]
    split
    · rename_i hc
      simp [hc]
    · rename_i hc
      rw [Option.map_eq_none_iff, ih]
      exact ⟨fun h => ⟨Ne.symm hc, h⟩, fun h => h.2⟩

theorem exists_of_cut?_cons {mark c : Char} (hc : c ≠ mark)
    (h : cut? mark (c :: text) = some (before, after)) : ∃ rest, before = c :: rest := by
  obtain ⟨he, -⟩ := cut?_eq_some_iff.mp h
  cases before with
  | nil => exact absurd (List.cons.inj he).1 hc
  | cons d rest =>
    obtain ⟨rfl, -⟩ := List.cons.inj he
    exact ⟨rest, rfl⟩

theorem cutLast?_eq_none_iff {pattern : Text} (hp : pattern ≠ []) :
    cutLast? pattern text = none ↔ ¬ pattern <:+: text := by
  induction text with
  | nil => simp [cutLast?, hp]
  | cons c text ih =>
    rw [List.infix_cons_iff, not_or, ← ih, cutLast?]
    cases hc : cutLast? pattern text with
    | some halves => simp
    | none =>
      have hd : dropPrefix? pattern (c :: text) = none ↔ ¬ pattern <+: c :: text := by
        rw [Option.eq_none_iff_forall_ne_some]
        simp only [ne_eq, dropPrefix?_eq_some_iff]
        exact ⟨fun h ⟨r, hr⟩ => h r hr.symm, fun h r hr => h ⟨r, hr.symm⟩⟩
      simp [hd]

/-- The cut is at the last place: behind its first character the pattern does not stand again. -/
theorem cutLast?_eq_some {pattern : Text} (hp : pattern ≠ [])
    (h : cutLast? pattern text = some (before, after)) :
    text = before ++ pattern ++ after ∧ ¬ pattern <:+: (pattern ++ after).tail := by
  induction text generalizing before with
  | nil => simp [cutLast?] at h
  | cons c text ih =>
    rw [cutLast?] at h
    cases hc : cutLast? pattern text with
    | some halves =>
      obtain ⟨b, a⟩ := halves
      rw [hc] at h
      obtain ⟨rfl, rfl⟩ := Prod.mk.injEq .. ▸ Option.some.inj h
      obtain ⟨rfl, hl⟩ := ih hc
      exact ⟨rfl, hl⟩
    | none =>
      rw [hc] at h
      obtain ⟨a, ha, he⟩ := Option.map_eq_some_iff.mp h
      obtain ⟨rfl, rfl⟩ := Prod.mk.injEq .. ▸ he
      have ht := dropPrefix?_eq_some_iff.mp ha
      refine ⟨ht, ?_⟩
      rw [← ht]
      exact (cutLast?_eq_none_iff hp).mp hc

end Text

section Enclosed

variable {lead tail text inner : Text}

theorem between?_eq_some_iff :
    between? lead tail text = some inner ↔ text = lead ++ inner ++ tail := by
  simp only [between?, Option.bind_eq_some_iff, Text.dropPrefix?_eq_some_iff,
    Text.dropSuffix?_eq_some_iff]
  constructor
  · rintro ⟨r, rfl, rfl⟩
    exact (List.append_assoc ..).symm
  · rintro rfl
    exact ⟨inner ++ tail, List.append_assoc .., rfl⟩

theorem call?_eq_some_iff {keyword : Text} :
    call? keyword text = some inner ↔
      text = keyword ++ '(' :: inner ++ [')'] ∧ isBalanced inner = true := by
  simp only [call?, Option.filter_eq_some_iff, between?_eq_some_iff]
  simp

theorem bracketed?_eq_some_iff : bracketed? text = some inner ↔ text = '[' :: inner ++ [']'] := by
  simp [bracketed?, between?_eq_some_iff]

theorem braced?_eq_some_iff : braced? text = some inner ↔ text = '{' :: inner ++ ['}'] := by
  simp [braced?, between?_eq_some_iff]

theorem quotedBy?_eq_some_iff {quote : Char} :
    quotedBy? quote text = some inner ↔ text = quote :: inner ++ [quote] ∧ quote ∉ inner := by
  simp [quotedBy?, Option.filter_eq_some_iff, between?_eq_some_iff]

end Enclosed

section Split

variable {sep : Char} {n : Nesting} {text before after : Text}

theorem Nesting.cutFirst?_eq_some (h : n.cutFirst? sep text = some (before, after)) :
    text = before ++ sep :: after := by
  induction text generalizing n before with
  | nil => simp [cutFirst?] at h
  | cons c text ih =>
    rw [cutFirst?] at h
    split at h
    · rename_i hc
      obtain ⟨rfl, rfl⟩ := Prod.mk.injEq .. ▸ Option.some.inj h
      simp_all
    · obtain ⟨⟨b, a⟩, hb, he⟩ := Option.map_eq_some_iff.mp h
      obtain ⟨rfl, rfl⟩ := Prod.mk.injEq .. ▸ he
      rw [ih hb, List.cons_append]

theorem Nesting.cutLast?_eq_some (h : n.cutLast? sep text = some (before, after)) :
    text = before ++ sep :: after := by
  induction text generalizing n before with
  | nil => simp [cutLast?] at h
  | cons c text ih =>
    rw [cutLast?] at h
    split at h
    · rename_i b a hc
      obtain ⟨rfl, rfl⟩ := Prod.mk.injEq .. ▸ Option.some.inj h
      rw [ih hc, List.cons_append]
    · split at h
      · rename_i hc
        obtain ⟨rfl, rfl⟩ := Prod.mk.injEq .. ▸ Option.some.inj h
        simp_all
      · cases h

theorem Nesting.pieces_ne_nil (n : Nesting) (sep : Char) (text : Text) :
    n.pieces sep text ≠ [] := by
  cases text with
  | nil => simp [pieces]
  | cons c text =>
    rw [pieces]
    split
    · simp
    · split <;> simp

theorem Nesting.pieces_append (n : Nesting) (sep : Char) (s t : Text) : ∃ init last head rest,
    n.pieces sep s = init ++ [last] ∧ (n.feedAll s).pieces sep t = head :: rest ∧
      n.pieces sep (s ++ t) = init ++ (last ++ head) :: rest := by
  induction s generalizing n with
  | nil =>
    obtain ⟨head, rest, h⟩ := List.exists_cons_of_ne_nil (n.pieces_ne_nil sep t)
    exact ⟨[], [], head, rest, rfl, h, h⟩
  | cons c s ih =>
    obtain ⟨init, last, head, rest, hs, ht, hst⟩ := ih (n.feed c)
    by_cases hc : (n.isTop && c == sep) = true
    · refine ⟨[] :: init, last, head, rest, ?_, ht, ?_⟩
      · simp only [pieces, hc, if_true, hs, List.cons_append]
      · simp only [List.cons_append, pieces, hc, if_true, hst]
    · cases init with
      | nil =>
        refine ⟨[], c :: last, head, rest, ?_, ht, ?_⟩
        · simp [pieces, hc, hs]
        · simp [pieces, hc, hst]
      | cons first init =>
        refine ⟨(c :: first) :: init, last, head, rest, ?_, ht, ?_⟩
        · simp [pieces, hc, hs]
        · simp [pieces, hc, hst]

end Split

section Conditional

variable {text before after word : Text}

/-- The text after the last `word` that a blank follows. At the end of the text a blank is taken to
follow. -/
structure FollowsLast (word rest : Text) : Prop where
  starts_blank : ∀ c ∈ rest.head?, c = ' '
  not_again : ¬ word ++ [' '] <:+: rest ++ [' ']

theorem FollowsLast.trim_tail {rest : Text} (h : FollowsLast word rest) :
    Text.trim rest.tail = rest.trim := by
  cases rest with
  | nil => rfl
  | cons c rest =>
    obtain rfl : c = ' ' := h.starts_blank c rfl
    rfl

theorem cutLastPadded?_eq_some (word : Text) (hw : word ≠ [])
    (h : cutLastPadded? (word ++ [' ']) text = some (before, after)) :
    ∃ rest, text = before ++ word ++ rest ∧ FollowsLast word rest ∧ after = rest.tail := by
  obtain ⟨⟨b, a⟩, hc, he⟩ := Option.map_eq_some_iff.mp h
  obtain ⟨rfl, rfl⟩ := Prod.mk.injEq .. ▸ he
  obtain ⟨ht, hl⟩ := Text.cutLast?_eq_some (by simp) hc
  obtain ⟨first, word, rfl⟩ := List.exists_cons_of_ne_nil hw
  have hlast : ∀ rest, first :: word ++ [' '] ++ a = first :: word ++ rest ++ [' '] →
      ¬ first :: word ++ [' '] <:+: rest ++ [' '] := by
    intro rest hr hi
    refine hl (hi.trans (List.IsSuffix.isInfix ⟨word, ?_⟩))
    rw [hr]
    simp
  cases a using List.reverseRecOn with
  | nil =>
    rw [List.append_nil, ← List.append_assoc] at ht
    refine ⟨[], ?_, ⟨by simp, hlast [] (by simp)⟩, rfl⟩
    rw [List.append_nil]
    exact List.append_cancel_right ht
  | append_singleton a c =>
    rw [← List.append_assoc] at ht
    obtain ⟨htext, hc⟩ := List.append_inj' ht rfl
    obtain rfl := (List.singleton_inj.mp hc).symm
    refine ⟨' ' :: a, ?_, ⟨by simp, hlast _ (by simp)⟩, List.dropLast_concat⟩
    rw [htext]
    simp

/-- A conditional is the text of its parts, cut at the last ` else` and, before that, at the last
` then`. -/
theorem ConditionalShape.scan?_eq_some {shape : ConditionalShape}
    (h : ConditionalShape.scan? text = some shape) :
    ∃ x y : Text, text = "if " ++ shape.condition ++ " then" ++ x ++ " else" ++ y ∧
      shape.condition ≠ [] ∧ FollowsLast " then" x ∧ FollowsLast " else" y ∧
      shape.consequent = x.tail ∧ shape.alternative = y.tail := by
  simp only [scan?, Option.bind_eq_bind, Option.bind_eq_some_iff, Prod.exists] at h
  obtain ⟨body, hb, head, alternative, he, condition, consequent, ht, h⟩ := h
  split at h
  · cases h
  · rename_i hn
    obtain rfl := Option.some.inj h
    obtain ⟨y, rfl, hy, rfl⟩ := cutLastPadded?_eq_some " else" (by decide) he
    obtain ⟨x, rfl, hx, rfl⟩ := cutLastPadded?_eq_some " then" (by decide) ht
    refine ⟨x, y, ?_, by simpa using hn, hx, hy, rfl, rfl⟩
    simpa using Text.dropPrefix?_eq_some_iff.mp hb

end Conditional

end Parley
