import Parley.Proofs.Surface.Nesting

/-! # Pieces of joined texts

Joining texts with commas and splitting the result at its top level gives the texts
back, whatever blanks stand around the commas, if each text is balanced and has no
comma at its top level. Blanks at the ends of a text do not change its pieces.
-/

namespace Parley

namespace Nesting

variable {n n' : Nesting} {sep c q : Char} {s t text before after : Text}

theorem Alike.pieces (h : n.Alike n') (sep : Char) (text : Text) :
    n.pieces sep text = n'.pieces sep text := by
  induction text generalizing n n' with
  | nil => rfl
  | cons c text ih => rw [Nesting.pieces, Nesting.pieces, h.isTop, ih (h.feed c)]

theorem Alike.cutFirst? (h : n.Alike n') (sep : Char) (text : Text) :
    n.cutFirst? sep text = n'.cutFirst? sep text := by
  induction text generalizing n n' with
  | nil => rfl
  | cons c text ih => rw [Nesting.cutFirst?, Nesting.cutFirst?, h.isTop, ih (h.feed c)]

theorem pieces_of_cutFirst?_none (h : n.cutFirst? sep text = none) :
    n.pieces sep text = [text] := by
  induction text generalizing n with
  | nil => rfl
  | cons c text ih =>
    rw [cutFirst?] at h
    split at h
    · cases h
    · rename_i hc
      rw [pieces, if_neg hc, ih (Option.map_eq_none_iff.mp h)]

theorem pieces_of_cutFirst?_some (h : n.cutFirst? sep text = some (before, after)) :
    (n.feedAll before).isTop = true ∧
      n.pieces sep text = before :: ((n.feedAll before).feed sep).pieces sep after := by
  induction text generalizing n before with
  | nil => cases h
  | cons c text ih =>
    rw [cutFirst?] at h
    split at h
    · rename_i hc
      obtain ⟨rfl, rfl⟩ := Prod.mk.injEq .. ▸ Option.some.inj h
      obtain ⟨ht, hs⟩ := Bool.and_eq_true_iff.mp hc
      obtain rfl := beq_iff_eq.mp hs
      exact ⟨ht, by rw [pieces, if_pos hc, feedAll_nil]⟩
    · rename_i hc
      obtain ⟨⟨b, a⟩, hb, he⟩ := Option.map_eq_some_iff.mp h
      obtain ⟨rfl, rfl⟩ := Prod.mk.injEq .. ▸ he
      obtain ⟨ht, hp⟩ := ih hb
      exact ⟨ht, by rw [pieces, if_neg hc, hp, feedAll_cons]⟩

theorem length_pieces_eq_one_iff :
    (n.pieces sep text).length = 1 ↔ n.cutFirst? sep text = none := by
  constructor
  · intro h
    cases hc : n.cutFirst? sep text with
    | none => rfl
    | some halves =>
      obtain ⟨before, after⟩ := halves
      have hne := pieces_ne_nil ((n.feedAll before).feed sep) sep after
      have hlen := List.length_pos_iff.mpr hne
      rw [(pieces_of_cutFirst?_some hc).2, List.length_cons] at h
      omega
  · intro h
    rw [pieces_of_cutFirst?_none h]
    rfl

theorem cutFirst?_append_eq_none_iff :
    n.cutFirst? sep (s ++ t) = none ↔
      n.cutFirst? sep s = none ∧ (n.feedAll s).cutFirst? sep t = none := by
  induction s generalizing n with
  | nil => simp [cutFirst?]
  | cons c s ih =>
    rw [List.cons_append, cutFirst?, cutFirst?, feedAll_cons]
    split
    · simp
    · simp [ih]

theorem cutFirst?_of_not_mem (h : sep ∉ text) : n.cutFirst? sep text = none := by
  induction text generalizing n with
  | nil => rfl
  | cons c text ih =>
    rw [List.mem_cons, not_or] at h
    rw [cutFirst?, if_neg (by simp [Ne.symm h.1]), ih h.2]
    rfl

theorem cutFirst?_inside (hq : n.quote = some q) (ht : q ∉ text) :
    n.cutFirst? sep (text ++ [q]) = none := by
  have htop : n.isTop = false := by simp [isTop, hq]
  induction text generalizing n with
  | nil => simp [cutFirst?, htop]
  | cons c text ih =>
    rw [List.mem_cons, not_or] at ht
    have hf : (n.feed c).quote = some q := by simp [feed, hq, Ne.symm ht.1]
    rw [List.cons_append, cutFirst?, if_neg (by simp [htop]),
      ih hf ht.2 (by simp [isTop, hf])]
    rfl

theorem cutFirst?_quoted (hs : q ≠ sep) (hq : n.quote = none)
    (h : q = '"' ∨ q = '\'' ∧ n.atTokenStart = true) (ht : q ∉ text) :
    n.cutFirst? sep (q :: (text ++ [q])) = none := by
  rw [cutFirst?, if_neg (by simp [hs]), feed_quote hq h, cutFirst?_inside rfl ht]
  rfl

/-- The first separator at the top level is found behind a text without one. -/
theorem cutFirst?_append_sep (hs : n.cutFirst? sep s = none) (h : (n.feedAll s).isTop = true)
    (t : Text) : n.cutFirst? sep (s ++ sep :: t) = some (s, t) := by
  induction s generalizing n with
  | nil =>
    rw [feedAll_nil] at h
    rw [List.nil_append, cutFirst?, if_pos (by simp [h])]
  | cons c s ih =>
    rw [cutFirst?] at hs
    split at hs
    · cases hs
    · rename_i hc
      rw [List.cons_append, cutFirst?, if_neg hc, ih (Option.map_eq_none_iff.mp hs) h]
      rfl

theorem pieces_append_sep (h : (n.feedAll s).isTop = true) (t : Text) :
    n.pieces sep (s ++ sep :: t) =
      n.pieces sep s ++ ((n.feedAll s).feed sep).pieces sep t := by
  obtain ⟨init, last, head, rest, hs, ht, hst⟩ := n.pieces_append sep s (sep :: t)
  rw [pieces, if_pos (by simp [h])] at ht
  obtain ⟨rfl, rfl⟩ := List.cons.inj ht
  rw [hst, hs]
  simp

end Nesting

section Trimmed

open Nesting

variable {sep : Char} {s t text before after : Text}

theorem not_mem_of_blank (hsep : isBlank sep = false) (h : ∀ c ∈ s, isBlank c = true) :
    sep ∉ s := by
  intro hm
  simp [h sep hm] at hsep

theorem alike_of_blank (h : ∀ c ∈ s, isBlank c = true) : (feedAll {} s).Alike {} := by
  have hd : ∀ c ∈ s, c ∉ delimiters := fun c hc => not_delimiter_of_isBlank (h c hc)
  rw [feedAll_of_not_delimiter rfl hd]
  refine ⟨rfl, rfl, ?_⟩
  cases hl : s.getLast? with
  | none => rfl
  | some c => simp [atTokenStart, startsToken, h c (List.mem_of_getLast? hl)]

/-- Blanks around a text belong to its first and to its last piece. -/
theorem map_trim_pieces_pad (hsep : isBlank sep = false) (hb : ∀ c ∈ before, isBlank c = true)
    (ha : ∀ c ∈ after, isBlank c = true) :
    (pieces sep {} (before ++ text ++ after)).map Text.trim =
      (pieces sep {} text).map Text.trim := by
  have hblank : ∀ {n : Nesting} {s : Text}, (∀ c ∈ s, isBlank c = true) →
      n.pieces sep s = [s] := by
    intro n s h
    exact pieces_of_cutFirst?_none (cutFirst?_of_not_mem (not_mem_of_blank hsep h))
  have hafter : (pieces sep {} (text ++ after)).map Text.trim =
      (pieces sep {} text).map Text.trim := by
    obtain ⟨init, last, head, rest, hs, ht, hst⟩ := pieces_append {} sep text after
    rw [hblank ha] at ht
    obtain ⟨rfl, rfl⟩ := List.cons.inj ht
    have hlast : Text.trim (last ++ after) = last.trim := by
      simpa using Text.trim_pad (s := []) (by simp) ha last
    rw [hst, hs]
    simp [hlast]
  obtain ⟨init, last, head, rest, hs, ht, hst⟩ := pieces_append {} sep before (text ++ after)
  rw [hblank hb] at hs
  rw [(alike_of_blank hb).pieces] at ht
  obtain ⟨rfl, rfl⟩ : init = [] ∧ last = before := by
    cases init with
    | nil => simpa [eq_comm] using hs
    | cons first init => simp at hs
  have hhead : Text.trim (last ++ head) = head.trim := by
    simpa using Text.trim_pad (t := []) hb (by simp) head
  rw [List.append_assoc, hst, ← hafter, ht]
  simp [hhead]

theorem splitTopLevel_pad (hsep : isBlank sep = false) (hb : ∀ c ∈ before, isBlank c = true)
    (ha : ∀ c ∈ after, isBlank c = true) :
    splitTopLevel sep (before ++ text ++ after) = splitTopLevel sep text := by
  rw [splitTopLevel, splitTopLevel, Text.isBlankText, Text.isBlankText, Text.trim_pad hb ha,
    map_trim_pieces_pad hsep hb ha]

theorem splitTopLevel_trim (hsep : isBlank sep = false) (text : Text) :
    splitTopLevel sep text.trim = splitTopLevel sep text := by
  obtain ⟨before, after, he, hb, ha⟩ := Text.exists_pad text
  rw [← splitTopLevel_pad hsep hb ha, ← he]

theorem splitTopLevel_of_undivided (hn : text.isBlankText = false)
    (h : splitFirst? sep text = none) : splitTopLevel sep text = [text.trim] := by
  rw [splitTopLevel, hn, pieces_of_cutFirst?_none (Option.map_eq_none_iff.mp h)]
  rfl

/-- A balanced text that no separator divides is the first half of a text that goes on with one. -/
theorem splitFirst?_append_sep (hb : isBalanced s = true) (hu : splitFirst? sep s = none)
    (t : Text) : splitFirst? sep (s ++ sep :: t) = some (s.trim, t.trim) := by
  obtain ⟨-, hdepth, hquote⟩ := isBalanced_iff.mp hb
  have hcut := cutFirst?_append_sep (Option.map_eq_none_iff.mp hu)
    (isTop_iff.mpr ⟨hquote, hdepth⟩) t
  rw [splitFirst?, hcut]
  rfl

theorem splitFirst?_pad_eq_none_iff (hsep : isBlank sep = false)
    (hb : ∀ c ∈ before, isBlank c = true) (ha : ∀ c ∈ after, isBlank c = true) :
    splitFirst? sep (before ++ text ++ after) = none ↔ splitFirst? sep text = none := by
  have hlen : (pieces sep {} (before ++ text ++ after)).length = (pieces sep {} text).length := by
    simpa using congrArg List.length (map_trim_pieces_pad hsep hb ha)
  simp only [splitFirst?, Option.map_eq_none_iff, ← length_pieces_eq_one_iff, hlen]

theorem splitFirst?_trim_eq_none_iff (hsep : isBlank sep = false) :
    splitFirst? sep text.trim = none ↔ splitFirst? sep text = none := by
  obtain ⟨before, after, he, hb, ha⟩ := Text.exists_pad text
  rw [← splitFirst?_pad_eq_none_iff hsep hb ha, ← he]

theorem length_splitTopLevel_eq_one_iff (hn : text.isBlankText = false) :
    (splitTopLevel sep text).length = 1 ↔ splitFirst? sep text = none := by
  rw [splitTopLevel, hn, splitFirst?, Option.map_eq_none_iff, ← length_pieces_eq_one_iff]
  simp

theorem pieces_append_comma (hs : isBalanced s = true) (t : Text) :
    pieces ',' {} (s ++ ',' :: t) = pieces ',' {} s ++ pieces ',' {} t := by
  obtain ⟨-, hdepth, hquote⟩ := isBalanced_iff.mp hs
  obtain ⟨ha, -⟩ := alike_after hs (c := ',') rfl (by decide)
  rw [pieces_append_sep (isTop_iff.mpr ⟨hquote, hdepth⟩), ha.pieces]

theorem isBlankText_append_comma (s t : Text) : Text.isBlankText (s ++ ',' :: t) = false :=
  Text.isBlankText_eq_false_iff.mpr ⟨s, ',', t, rfl, rfl⟩

theorem splitTopLevel_append_comma (hb : isBalanced s = true) (hs : s.isBlankText = false)
    (ht : t.isBlankText = false) :
    splitTopLevel ',' (s ++ ',' :: t) = splitTopLevel ',' s ++ splitTopLevel ',' t := by
  rw [splitTopLevel, splitTopLevel, splitTopLevel, isBlankText_append_comma, hs, ht,
    pieces_append_comma hb]
  exact List.map_append

/-- A text that commas separate from its neighbours: it is not blank, it is balanced, and no comma
divides it. -/
structure IsEntry (text : Text) : Prop where
  not_blank : text.isBlankText = false
  balanced : isBalanced text = true
  undivided : splitFirst? ',' text = none

theorem join_cons_cons (sep : Char) (text next : Text) (texts : List Text) :
    Text.join [sep] (text :: next :: texts) = text ++ sep :: Text.join [sep] (next :: texts) := by
  simp [Text.join]

theorem pieces_join (texts : List Text)
    (h : ∀ t ∈ text :: texts, isBalanced t = true ∧ splitFirst? ',' t = none) :
    pieces ',' {} (Text.join [','] (text :: texts)) = text :: texts := by
  induction texts generalizing text with
  | nil =>
    obtain ⟨-, hu⟩ := h text List.mem_cons_self
    exact pieces_of_cutFirst?_none (Option.map_eq_none_iff.mp hu)
  | cons next texts ih =>
    obtain ⟨⟨hb, hu⟩, hrest⟩ := List.forall_mem_cons.mp h
    rw [join_cons_cons, pieces_append_comma hb, ih hrest,
      pieces_of_cutFirst?_none (Option.map_eq_none_iff.mp hu)]
    rfl

theorem isBlankText_join_eq_false {texts : List Text} (hne : texts ≠ [])
    (h : texts.map Text.trim ≠ [[]]) : (Text.join [','] texts).isBlankText = false := by
  match texts with
  | [] => exact absurd rfl hne
  | [text] => simpa [Text.join, Text.isBlankText] using h
  | text :: next :: texts =>
    rw [join_cons_cons]
    exact isBlankText_append_comma text _

/-- Splitting joined texts gives them back without their blanks. -/
theorem splitTopLevel_join_eq_map {texts : List Text}
    (h : ∀ t ∈ texts, isBalanced t = true ∧ splitFirst? ',' t = none)
    (hne : texts.map Text.trim ≠ [[]]) :
    splitTopLevel ',' (Text.join [','] texts) = texts.map Text.trim := by
  cases texts with
  | nil => rfl
  | cons text texts =>
    have hblank := isBlankText_join_eq_false (List.cons_ne_nil text texts) hne
    rw [splitTopLevel, hblank, pieces_join texts h]
    rfl

theorem IsEntry.map_trim_ne (h : IsEntry text) (texts : List Text) :
    (text :: texts).map Text.trim ≠ [[]] := by
  intro he
  have htrim : text.trim = [] := (List.cons.inj he).1
  simpa [Text.isBlankText, htrim] using h.not_blank

theorem isBlankText_join (text : Text) (texts : List Text) (h : IsEntry text) :
    (Text.join [','] (text :: texts)).isBlankText = false :=
  isBlankText_join_eq_false (List.cons_ne_nil text texts) (h.map_trim_ne texts)

theorem splitTopLevel_join {texts : List Text} (h : ∀ t ∈ texts, IsEntry t) :
    splitTopLevel ',' (Text.join [','] texts) = texts.map Text.trim := by
  cases texts with
  | nil => rfl
  | cons text texts =>
    have hne := (h text List.mem_cons_self).map_trim_ne texts
    exact splitTopLevel_join_eq_map (fun t ht => ⟨(h t ht).balanced, (h t ht).undivided⟩) hne

theorem isBalanced_join {texts : List Text} (h : ∀ t ∈ texts, isBalanced t = true) :
    isBalanced (Text.join [','] texts) = true := by
  induction texts with
  | nil => rfl
  | cons text texts ih =>
    obtain ⟨ht, hrest⟩ := List.forall_mem_cons.mp h
    cases texts with
    | nil => exact ht
    | cons next texts =>
      rw [join_cons_cons, isBalanced_append_cons ht rfl (by decide)]
      exact ih hrest

theorem isBalanced_of_pieces (h : ∀ piece ∈ pieces ',' {} text, isBalanced piece = true) :
    isBalanced text = true := by
  induction hn : text.length using Nat.strong_induction_on generalizing text with
  | _ n ih =>
    subst hn
    cases hc : cutFirst? ',' {} text with
    | none =>
      rw [pieces_of_cutFirst?_none hc] at h
      exact h text (by simp)
    | some halves =>
      obtain ⟨before, after⟩ := halves
      obtain ⟨-, hp⟩ := pieces_of_cutFirst?_some hc
      rw [hp, List.forall_mem_cons] at h
      obtain ⟨ha, -⟩ := alike_after h.1 (c := ',') rfl (by decide)
      have hafter : ∀ piece ∈ pieces ',' {} after, isBalanced piece = true := by
        rw [← ha.pieces]
        exact h.2
      have htext := cutFirst?_eq_some hc
      rw [htext, isBalanced_append_cons h.1 rfl (by decide)]
      refine ih after.length ?_ hafter rfl
      rw [htext, List.length_append, List.length_cons]
      omega

theorem isBalanced_of_splitTopLevel
    (h : ∀ piece ∈ splitTopLevel ',' text, isBalanced piece = true)
    (hn : text.isBlankText = false) : isBalanced text = true := by
  apply isBalanced_of_pieces
  intro piece hp
  apply isBalanced_of_trim
  apply h
  rw [splitTopLevel, hn]
  exact List.mem_map_of_mem hp

end Trimmed

/-- An item of a written list: a balanced text that no comma divides at its top level, with the
blanks around it. -/
structure Item where
  text : Text
  before : Text := []
  after : Text := []
  nonempty : text ≠ []
  trimmed : text.trim = text
  balanced : isBalanced text = true
  undivided : splitFirst? ',' text = none
  before_blank : ∀ c ∈ before, isBlank c = true := by simp
  after_blank : ∀ c ∈ after, isBlank c = true := by simp

namespace Item

open Nesting

def written (item : Item) : Text :=
  item.before ++ item.text ++ item.after

def list (items : List Item) : Text :=
  .join [','] (items.map written)

theorem trim_written (item : Item) : item.written.trim = item.text := by
  rw [written, Text.trim_pad item.before_blank item.after_blank, item.trimmed]

theorem isEntry_written (item : Item) : IsEntry item.written where
  not_blank := by
    rw [Text.isBlankText, item.trim_written]
    simpa using item.nonempty
  balanced := isBalanced_pad item.before_blank item.after_blank item.balanced
  undivided :=
    (splitFirst?_pad_eq_none_iff rfl item.before_blank item.after_blank).mpr item.undivided

theorem splitTopLevel_list (items : List Item) :
    splitTopLevel ',' (list items) = items.map text := by
  rw [list, splitTopLevel_join (List.forall_mem_map.mpr fun item _ => item.isEntry_written),
    List.map_map]
  exact List.map_congr_left fun item _ => item.trim_written

end Item

end Parley
