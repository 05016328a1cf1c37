import Mathlib.Data.List.Forall2
import Parley.Proofs.Surface.Joining

/-! # Agreement of the splitters

A text is split at every comma of its top level, at the first or at the last, each time
in a walk of its own. The three walks agree on every text, also where a bracket is missing
or a quote stays open. What follows a comma at the top level splits alone as it does behind
that comma, since the scanner is there as at the start of a text, and nothing but blanks is
lost: the pieces with their blanks, joined with commas, are the text.
-/

namespace Parley

namespace Nesting

variable {n : Nesting} {sep : Char} {text before after : Text}

theorem join_pieces (n : Nesting) (sep : Char) (text : Text) :
    Text.join [sep] (n.pieces sep text) = text := by
  induction text generalizing n with
  | nil => rfl
  | cons c text ih =>
    have hrest := ih (n.feed c)
    obtain ⟨piece, rest, hp⟩ := List.exists_cons_of_ne_nil (pieces_ne_nil (n.feed c) sep text)
    rw [hp] at hrest
    rw [pieces, hp]
    split
    · rename_i hc
      obtain rfl := beq_iff_eq.mp (Bool.and_eq_true_iff.mp hc).2
      rw [join_cons_cons, hrest]
      rfl
    · cases rest with
      | nil => exact congrArg (c :: ·) hrest
      | cons next rest =>
        rw [join_cons_cons] at hrest
        rw [join_cons_cons, List.cons_append, hrest]

theorem cutLast?_eq_none_iff : n.cutLast? sep text = none ↔ n.cutFirst? sep text = none := by
  induction text generalizing n with
  | nil => simp [cutLast?, cutFirst?]
  | cons c text ih =>
    rw [cutLast?, cutFirst?]
    cases hl : (n.feed c).cutLast? sep text with
    | none =>
      have hf : (n.feed c).cutFirst? sep text = none := ih.mp hl
      by_cases hc : (n.isTop && c == sep) = true
      · simp [hc]
      · simp [hc, hf]
    | some halves =>
      have hf : (n.feed c).cutFirst? sep text ≠ none := by
        rw [ne_eq, ← ih, hl]
        simp
      by_cases hc : (n.isTop && c == sep) = true
      · simp [hc]
      · simp [hc, hf]

/-- The last separator stands at the top level, and none at the top level follows it. -/
theorem isTop_of_cutLast? (h : n.cutLast? sep text = some (before, after)) :
    (n.feedAll before).isTop = true ∧ ((n.feedAll before).feed sep).cutFirst? sep after = none := by
  induction text generalizing n before with
  | nil => cases h
  | cons c text ih =>
    rw [cutLast?] at h
    split at h
    · rename_i b a hl
      obtain ⟨rfl, rfl⟩ := Prod.mk.injEq .. ▸ Option.some.inj h
      rw [feedAll_cons]
      exact ih hl
    · rename_i hl
      split at h
      · rename_i hc
        obtain ⟨rfl, rfl⟩ := Prod.mk.injEq .. ▸ Option.some.inj h
        obtain ⟨ht, hs⟩ := Bool.and_eq_true_iff.mp hc
        obtain rfl := beq_iff_eq.mp hs
        exact ⟨ht, cutLast?_eq_none_iff.mp hl⟩
      · cases h

theorem pieces_of_cutLast?_some (h : n.cutLast? sep text = some (before, after)) :
    n.pieces sep text = n.pieces sep before ++ [after] := by
  obtain ⟨htop, hnone⟩ := isTop_of_cutLast? h
  rw [cutLast?_eq_some h, pieces_append_sep htop, pieces_of_cutFirst?_none hnone]

end Nesting

open Nesting

variable {text first rest front last : Text}

theorem padded_trim (text : Text) : Padded text.trim text := by
  obtain ⟨before, after, he, hb, ha⟩ := Text.exists_pad text
  have h : Padded text.trim (before ++ text.trim ++ after) := .intro hb ha
  rwa [← he] at h

/-- A text that is not blank is its pieces with blanks around them, joined with commas. -/
theorem exists_written (h : text.isBlankText = false) :
    ∃ written, List.Forall₂ Padded (splitTopLevel ',' text) written ∧
      text = Text.join [','] written := by
  refine ⟨pieces ',' {} text, ?_, (join_pieces {} ',' text).symm⟩
  rw [splitTopLevel, h]
  exact List.forall₂_map_left_iff.mpr (List.forall₂_same.mpr fun piece _ => padded_trim piece)

theorem splitFirst?_eq_none_iff_length :
    splitFirst? ',' text = none ↔ (splitTopLevel ',' text).length ≤ 1 := by
  cases hn : text.isBlankText with
  | true =>
    have hcomma : ',' ∉ text := not_mem_of_blank rfl (Text.isBlankText_iff.mp hn)
    simp [splitFirst?, splitTopLevel, hn, cutFirst?_of_not_mem hcomma]
  | false =>
    have hpos := List.length_pos_iff.mpr (pieces_ne_nil {} ',' text)
    rw [← length_splitTopLevel_eq_one_iff hn, splitTopLevel, hn]
    simp only [Bool.false_eq_true, if_false, List.length_map]
    omega

theorem splitLast?_eq_none_iff : splitLast? ',' text = none ↔ splitFirst? ',' text = none := by
  rw [splitLast?, splitFirst?, Option.map_eq_none_iff, Option.map_eq_none_iff, cutLast?_eq_none_iff]

theorem splitTopLevel_trim_of_ne_nil (h : text.trim ≠ []) :
    splitTopLevel ',' text.trim = (pieces ',' {} text).map Text.trim := by
  have hn : text.isBlankText = false := by simpa [Text.isBlankText] using h
  rw [splitTopLevel_trim rfl, splitTopLevel, hn]
  rfl

theorem splitTopLevel_of_splitFirst? (h : splitFirst? ',' text = some (first, rest)) :
    (splitTopLevel ',' text).head? = some first ∧
      (rest ≠ [] → splitTopLevel ',' rest = (splitTopLevel ',' text).tail) := by
  obtain ⟨⟨before, after⟩, hc, he⟩ := Option.map_eq_some_iff.mp h
  obtain ⟨rfl, rfl⟩ := Prod.mk.injEq .. ▸ he
  obtain ⟨htop, hp⟩ := pieces_of_cutFirst?_some hc
  have hn : text.isBlankText = false := by
    rw [cutFirst?_eq_some hc]
    exact isBlankText_append_comma before after
  -- Behind the comma the scanner is as at the start, whatever brackets were missing before it.
  rw [(alike_feed htop rfl (by decide)).pieces] at hp
  rw [splitTopLevel, hn, hp]
  exact ⟨rfl, splitTopLevel_trim_of_ne_nil⟩

theorem splitTopLevel_of_splitLast? (h : splitLast? ',' text = some (front, last)) :
    (splitTopLevel ',' text).getLast? = some last ∧
      (front ≠ [] → splitTopLevel ',' front = (splitTopLevel ',' text).dropLast) := by
  obtain ⟨⟨before, after⟩, hc, he⟩ := Option.map_eq_some_iff.mp h
  obtain ⟨rfl, rfl⟩ := Prod.mk.injEq .. ▸ he
  have hn : text.isBlankText = false := by
    rw [cutLast?_eq_some hc]
    exact isBlankText_append_comma before after
  have hs : splitTopLevel ',' text = (pieces ',' {} before).map Text.trim ++ [after.trim] := by
    rw [splitTopLevel, hn, pieces_of_cutLast?_some hc]
    exact List.map_append
  rw [hs, List.getLast?_concat, List.dropLast_concat]
  exact ⟨rfl, splitTopLevel_trim_of_ne_nil⟩

/-- The three ways of splitting agree on every text, balanced or not. A text that is not blank is
its pieces with blanks around them, joined with commas. It is divided neither at a first nor at a
last comma if it has at most one piece. Otherwise the first comma divides off the first piece and
the last comma the last one, and what is left, if it is not empty, has the other pieces. -/
theorem splitters_agree (text : Text) :
    let pieces := splitTopLevel ',' text
    (text.isBlankText = false →
      ∃ written, List.Forall₂ Padded pieces written ∧ text = Text.join [','] written) ∧
    (splitFirst? ',' text = none ↔ splitLast? ',' text = none) ∧
    (splitLast? ',' text = none ↔ pieces.length ≤ 1 ∨ text.isBlankText = true) ∧
    (1 < pieces.length → ∃ first rest front last,
      splitFirst? ',' text = some (first, rest) ∧ splitLast? ',' text = some (front, last) ∧
      pieces.head? = some first ∧ (rest ≠ [] → splitTopLevel ',' rest = pieces.tail) ∧
      pieces.getLast? = some last ∧ (front ≠ [] → splitTopLevel ',' front = pieces.dropLast)) := by
  intro pieces
  have hfirst : splitFirst? ',' text = none ↔ pieces.length ≤ 1 := splitFirst?_eq_none_iff_length
  have hlast : splitLast? ',' text = none ↔ splitFirst? ',' text = none := splitLast?_eq_none_iff
  have hblank : text.isBlankText = true → pieces.length ≤ 1 := by
    intro hn
    simp [pieces, splitTopLevel, hn]
  refine ⟨exists_written, hlast.symm, ?_, fun hlen => ?_⟩
  · rw [hlast, hfirst, or_iff_left_of_imp hblank]
  · have hsome : splitFirst? ',' text ≠ none := by
      rw [ne_eq, hfirst]
      omega
    obtain ⟨⟨first, rest⟩, hf⟩ := Option.ne_none_iff_exists'.mp hsome
    obtain ⟨⟨front, last⟩, hl⟩ := Option.ne_none_iff_exists'.mp (hlast.not.mpr hsome)
    obtain ⟨hhead, htail⟩ := splitTopLevel_of_splitFirst? hf
    obtain ⟨hend, hinit⟩ := splitTopLevel_of_splitLast? hl
    exact ⟨first, rest, front, last, hf, hl, hhead, htail, hend, hinit⟩

/-- A bracket that was not open, a comma between quotes, and a bracket and a quote left open. -/
theorem splitters_agree_unbalanced :
    let text : Text := "x) ,'b, c' , (d, 'e"
    let pieces : List Text := ["x)", "'b, c'", "(d, 'e"]
    (∃ written, List.Forall₂ Padded pieces written ∧ text = Text.join [','] written) ∧
      splitLast? ',' text ≠ none ∧
      splitTopLevel ',' "'b, c' , (d, 'e" = pieces.tail ∧
      splitTopLevel ',' "x) ,'b, c'" = pieces.dropLast := by
  intro text pieces
  obtain ⟨hwritten, -, hnone, hhalves⟩ := splitters_agree text
  have hp : splitTopLevel ',' text = pieces := rfl
  have hf : splitFirst? ',' text = some (("x)" : Text), ("'b, c' , (d, 'e" : Text)) := rfl
  have hl : splitLast? ',' text = some (("x) ,'b, c'" : Text), ("(d, 'e" : Text)) := rfl
  rw [hp, hf, hl] at hhalves
  obtain ⟨first, rest, front, last, hf', hl', -, htail, -, hinit⟩ := hhalves (by decide)
  obtain ⟨rfl, rfl⟩ := Prod.mk.injEq .. ▸ Option.some.inj hf'
  obtain ⟨rfl, rfl⟩ := Prod.mk.injEq .. ▸ Option.some.inj hl'
  rw [hp] at hwritten hnone
  exact ⟨hwritten rfl, hnone.not.mpr (by decide), htail (by decide), hinit (by decide)⟩

end Parley
