import Parley.Proofs.Surface.Cut

/-! # Texts inside texts

A text lies inside another one if it is a contiguous part of it and shorter. What
a call, brackets or braces enclose lies inside them, and so do the parts of a
management move and of a conditional. Trimming and splitting give parts that may
be the whole text.
-/

namespace Parley

namespace Text

/-- A contiguous part of a text that is shorter than it. -/
def Inside (inner outer : Text) : Prop :=
  inner <:+: outer ∧ inner.length < outer.length

variable {s t u : Text}

theorem Inside.of_isInfix (h : s <:+: t) (ht : t.Inside u) : s.Inside u :=
  ⟨h.trans ht.1, lt_of_le_of_lt h.length_le ht.2⟩

theorem Inside.trans_isInfix (h : s.Inside t) (ht : t <:+: u) : s.Inside u :=
  ⟨h.1.trans ht, lt_of_lt_of_le h.2 ht.length_le⟩

theorem inside_append_append (lead s tail : Text) (h : lead ++ tail ≠ []) :
    s.Inside (lead ++ s ++ tail) := by
  have hl : 0 < (lead ++ tail).length := List.length_pos_iff.mpr h
  refine ⟨⟨lead, tail, rfl⟩, ?_⟩
  simp only [List.length_append] at hl ⊢
  omega

theorem trimStart_isSuffix (t : Text) : t.trimStart <:+ t :=
  List.dropWhile_suffix _

theorem trimEnd_isPrefix (t : Text) : t.trimEnd <+: t := by
  have h := List.reverse_prefix.mpr (List.dropWhile_suffix (l := t.reverse) isBlank)
  rwa [List.reverse_reverse] at h

theorem trim_isInfix (t : Text) : t.trim <:+: t :=
  (trimEnd_isPrefix _).isInfix.trans (trimStart_isSuffix t).isInfix

theorem dropPrefix?_inside {lead text rest : Text} (hl : lead ≠ [])
    (h : dropPrefix? lead text = some rest) : rest.Inside text := by
  rw [dropPrefix?_eq_some_iff.mp h]
  simpa using inside_append_append lead rest [] (by simpa using hl)

theorem cut?_inside {mark : Char} {text before after : Text}
    (h : cut? mark text = some (before, after)) : before.Inside text ∧ after.Inside text := by
  obtain ⟨rfl, _⟩ := cut?_eq_some_iff.mp h
  constructor
  · exact inside_append_append [] before _ (by simp)
  · simpa using inside_append_append (before ++ [mark]) after [] (by simp)

end Text

open Text

variable {sep : Char} {text inner a b : Text}

theorem call?_inside {keyword : Text} (h : call? keyword text = some inner) :
    inner.Inside text := by
  rw [(call?_eq_some_iff.mp h).1, List.append_cons keyword]
  exact inside_append_append (keyword ++ ['(']) inner _ (by simp)

theorem bracketed?_inside (h : bracketed? text = some inner) : inner.Inside text := by
  rw [bracketed?_eq_some_iff.mp h]
  exact inside_append_append ['['] inner _ (by simp)

theorem braced?_inside (h : braced? text = some inner) : inner.Inside text := by
  rw [braced?_eq_some_iff.mp h]
  exact inside_append_append ['{'] inner _ (by simp)

theorem splitPolarity_isInfix (text : Text) : (splitPolarity text).2 <:+: text := by
  rw [splitPolarity.eq_def]
  split
  · exact (List.suffix_cons ..).isInfix
  · exact List.infix_rfl

theorem Nesting.pieces_isInfix {n : Nesting} {piece : Text} (h : piece ∈ n.pieces sep text) :
    piece <:+: text := by
  -- The first piece is even a prefix, which the step to a longer first piece needs.
  suffices hs : ∀ head rest, n.pieces sep text = head :: rest →
      head <+: text ∧ ∀ piece ∈ rest, piece <:+: text by
    obtain ⟨head, rest, he⟩ := List.exists_cons_of_ne_nil (n.pieces_ne_nil sep text)
    obtain ⟨hh, hr⟩ := hs head rest he
    rw [he] at h
    rcases List.mem_cons.mp h with rfl | h
    · exact hh.isInfix
    · exact hr piece h
  clear h
  induction text generalizing n with
  | nil =>
    intro head rest h
    simp only [pieces, List.cons.injEq] at h
    obtain ⟨rfl, rfl⟩ := h
    simp
  | cons c text ih =>
    intro head rest h
    obtain ⟨first, more, he⟩ :=
      List.exists_cons_of_ne_nil ((n.feed c).pieces_ne_nil sep text)
    obtain ⟨hf, hm⟩ := ih first more he
    rw [pieces] at h
    split at h
    · obtain ⟨rfl, rfl⟩ := List.cons.inj h
      refine ⟨by simp, fun piece hp => ?_⟩
      rw [he] at hp
      rcases List.mem_cons.mp hp with rfl | hp
      · exact hf.isInfix.trans (List.suffix_cons ..).isInfix
      · exact (hm piece hp).trans (List.suffix_cons ..).isInfix
    · rw [he] at h
      obtain ⟨rfl, rfl⟩ := List.cons.inj h
      refine ⟨by simpa using hf, fun piece hp => ?_⟩
      exact (hm piece hp).trans (List.suffix_cons ..).isInfix

theorem splitTopLevel_isInfix {piece : Text} (h : piece ∈ splitTopLevel sep text) :
    piece <:+: text := by
  rw [splitTopLevel] at h
  split at h
  · cases h
  · obtain ⟨raw, hr, rfl⟩ := List.mem_map.mp h
    exact (trim_isInfix raw).trans (Nesting.pieces_isInfix hr)

theorem trimPair_inside {before after : Text} (h : text = before ++ sep :: after)
    (hp : trimPair (before, after) = (a, b)) : a.Inside text ∧ b.Inside text := by
  obtain ⟨rfl, rfl⟩ := Prod.mk.injEq .. ▸ hp
  subst h
  constructor
  · exact .of_isInfix (trim_isInfix _) (inside_append_append [] before _ (by simp))
  · refine .of_isInfix (trim_isInfix _) ?_
    simpa using inside_append_append (before ++ [sep]) after [] (by simp)

theorem splitFirst?_inside (h : splitFirst? sep text = some (a, b)) :
    a.Inside text ∧ b.Inside text := by
  obtain ⟨⟨before, after⟩, hc, hp⟩ := Option.map_eq_some_iff.mp h
  exact trimPair_inside (Nesting.cutFirst?_eq_some hc) hp

theorem splitLast?_inside (h : splitLast? sep text = some (a, b)) :
    a.Inside text ∧ b.Inside text := by
  obtain ⟨⟨before, after⟩, hc, hp⟩ := Option.map_eq_some_iff.mp h
  exact trimPair_inside (Nesting.cutLast?_eq_some hc) hp

theorem splitPair?_inside (h : splitPair? text = some (a, b)) : a.Inside text ∧ b.Inside text := by
  obtain ⟨hm, -⟩ := Option.filter_eq_some_iff.mp h
  obtain ⟨⟨before, after⟩, hc, hp⟩ := Option.map_eq_some_iff.mp hm
  exact trimPair_inside (cut?_eq_some_iff.mp hc).1 hp

theorem IcmShape.content_inside {shape : IcmShape} {content : Text}
    (h : IcmShape.scan? text = some shape) (hc : shape.content = some content) :
    content.Inside text := by
  simp only [scan?, Option.bind_eq_bind, Option.bind_eq_some_iff] at h
  obtain ⟨rest, hr, h⟩ := h
  split at h
  · obtain rfl := Option.some.inj h
    have hrest := dropPrefix?_inside (by decide) hr
    simp only [cutOptional] at hc
    split at hc
    · rename_i head after hcut
      obtain rfl := Option.some.inj hc
      exact (cut?_inside hcut).2.trans_isInfix hrest.1
    · cases hc
  · cases h

theorem ConditionalShape.parts_inside {shape : ConditionalShape}
    (h : ConditionalShape.scan? text = some shape) :
    shape.condition.Inside text ∧ shape.consequent.Inside text ∧
      shape.alternative.Inside text := by
  obtain ⟨x, y, rfl, -, -, -, hx, hy⟩ := scan?_eq_some h
  rw [hx, hy]
  refine ⟨?_, .of_isInfix (List.tail_suffix x).isInfix ?_,
    .of_isInfix (List.tail_suffix y).isInfix ?_⟩
  · simpa using inside_append_append "if " shape.condition
      (" then" ++ x ++ " else" ++ y) (by simp)
  · simpa using inside_append_append ("if " ++ shape.condition ++ " then") x
      (" else" ++ y) (by simp)
  · simpa using inside_append_append
      ("if " ++ shape.condition ++ " then" ++ x ++ " else") y [] (by simp)

end Parley
