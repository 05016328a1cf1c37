import Parley.Proofs.Surface.Call

/-! # Joining and wrapping

A piece is a trimmed and balanced text that no comma divides. Splitting gives joined
pieces back, whatever blanks stand around the commas, and also where some of the pieces
are empty. The joined text can be the arguments of a call, and the call is a piece again,
so that texts of any depth are built from pieces in this way.
-/

namespace Parley

/-- A text as it is written, with blanks around it. -/
inductive Padded (text : Text) : Text → Prop
  | intro {before after : Text} (hb : ∀ c ∈ before, isBlank c = true)
    (ha : ∀ c ∈ after, isBlank c = true) : Padded text (before ++ text ++ after)

/-- A text that can stand between commas, unchanged by trimming and by splitting. It may be
empty. -/
structure IsPiece (text : Text) : Prop where
  trimmed : text.trim = text
  balanced : isBalanced text = true
  undivided : splitFirst? ',' text = none

section Joined

variable {piece written : Text} {pieces texts : List Text}

theorem IsPiece.trim_written (h : IsPiece piece) (hw : Padded piece written) :
    written.trim = piece := by
  obtain ⟨hb, ha⟩ := hw
  rw [Text.trim_pad hb ha, h.trimmed]

theorem IsPiece.of_padded (h : IsPiece piece) (hw : Padded piece written) :
    isBalanced written = true ∧ splitFirst? ',' written = none := by
  obtain ⟨hb, ha⟩ := hw
  exact ⟨isBalanced_pad hb ha h.balanced,
    (splitFirst?_pad_eq_none_iff rfl hb ha).mpr h.undivided⟩

theorem map_trim_written (hp : ∀ piece ∈ pieces, IsPiece piece)
    (hw : List.Forall₂ Padded pieces texts) : texts.map Text.trim = pieces := by
  induction hw with
  | nil => rfl
  | cons h _ ih =>
    obtain ⟨hpiece, hrest⟩ := List.forall_mem_cons.mp hp
    rw [List.map_cons, hpiece.trim_written h, ih hrest]

theorem forall_mem_written (hp : ∀ piece ∈ pieces, IsPiece piece)
    (hw : List.Forall₂ Padded pieces texts) :
    ∀ t ∈ texts, isBalanced t = true ∧ splitFirst? ',' t = none := by
  induction hw with
  | nil => simp
  | cons h _ ih =>
    obtain ⟨hpiece, hrest⟩ := List.forall_mem_cons.mp hp
    exact List.forall_mem_cons.mpr ⟨hpiece.of_padded h, ih hrest⟩

theorem splitTopLevel_written (hp : ∀ piece ∈ pieces, IsPiece piece) (hne : pieces ≠ [[]])
    (hw : List.Forall₂ Padded pieces texts) :
    splitTopLevel ',' (Text.join [','] texts) = pieces := by
  have htrim := map_trim_written hp hw
  rw [splitTopLevel_join_eq_map (forall_mem_written hp hw) (by rwa [htrim]), htrim]

theorem Text.trim_call {keyword : Text} (h : ∀ c ∈ keyword.head?, isBlank c = false)
    (inner : Text) : Text.trim (Text.call keyword inner) = Text.call keyword inner := by
  cases keyword with
  | nil => exact Text.trim_enclosed rfl rfl inner
  | cons c keyword =>
    simpa [Text.call] using Text.trim_enclosed (h c rfl) rfl (keyword ++ '(' :: inner)

/-- Splitting undoes joining: pieces joined with commas are given back in their order, whatever
blanks stand around the commas. The joined text is the arguments of every call that is made of it
with a keyword without brackets, quotes and commas. Such a call is balanced and no comma divides it,
so that it is a piece for the next joining, if no blank stands before its keyword. -/
theorem splitTopLevel_joined (hp : ∀ piece ∈ pieces, IsPiece piece) (hne : pieces ≠ [[]])
    (hw : List.Forall₂ Padded pieces texts) :
    let joined := Text.join [','] texts
    splitTopLevel ',' joined = pieces ∧
      ∀ keyword : Text, (∀ c ∈ keyword, c ∉ delimiters) → ',' ∉ keyword →
        call? keyword (Text.call keyword joined) = some joined ∧
        isBalanced (Text.call keyword joined) = true ∧
        splitFirst? ',' (Text.call keyword joined) = none ∧
        ((∀ c ∈ keyword.head?, isBlank c = false) → IsPiece (Text.call keyword joined)) := by
  intro joined
  have hjoined : isBalanced joined = true :=
    isBalanced_join fun t ht => (forall_mem_written hp hw t ht).1
  refine ⟨splitTopLevel_written hp hne hw, fun keyword hk hcomma => ?_⟩
  have hbalanced := isBalanced_call hk hjoined
  have hundivided := splitFirst?_call hk hcomma hjoined
  refine ⟨call?_call hjoined, hbalanced, hundivided, fun hhead => ?_⟩
  exact ⟨Text.trim_call hhead joined, hbalanced, hundivided⟩

/-- An empty piece, an apostrophe in a word and a comma between quotes. The call that is made of
them is a piece of the next text. -/
theorem splitTopLevel_joined_twice :
    let inner : Text := "it's ,, 'a, b'"
    let outer : Text := "p(it's ,, 'a, b') , [x, y]"
    splitTopLevel ',' inner = ["it's", "", "'a, b'"] ∧
      splitTopLevel ',' outer = ["p(it's ,, 'a, b')", "[x, y]"] ∧
      call? "q" "q(p(it's ,, 'a, b') , [x, y])" = some outer ∧
      IsPiece "q(p(it's ,, 'a, b') , [x, y])" := by
  intro inner outer
  have hblank : ∀ c ∈ [' '], isBlank c = true := by simp [isBlank]
  have hnone : ∀ c ∈ ([] : Text), isBlank c = true := by simp
  have hpieces : ∀ piece ∈ ([("it's" : Text), "", "'a, b'"] : List Text), IsPiece piece := by
    simp only [List.forall_mem_cons]
    exact ⟨⟨rfl, rfl, rfl⟩, ⟨rfl, rfl, rfl⟩, ⟨rfl, rfl, rfl⟩, by simp⟩
  obtain ⟨hinner, hcall⟩ := splitTopLevel_joined hpieces (by decide)
    (.cons (.intro hnone hblank) (.cons (.intro hnone hnone) (.cons (.intro hblank hnone) .nil)))
  obtain ⟨-, -, -, hpiece⟩ := hcall ['p'] (not_delimiter_of_all rfl) (by simp)
  have hpieces' : ∀ piece ∈ ([("p(it's ,, 'a, b')" : Text), "[x, y]"] : List Text),
      IsPiece piece := by
    simp only [List.forall_mem_cons]
    exact ⟨hpiece (by simp [isBlank]), ⟨rfl, rfl, rfl⟩, by simp⟩
  obtain ⟨houter, hcall'⟩ := splitTopLevel_joined hpieces' (by decide)
    (.cons (.intro hnone hblank) (.cons (.intro hblank hnone) .nil))
  obtain ⟨hargs, -, -, hpiece'⟩ := hcall' ['q'] (not_delimiter_of_all rfl) (by simp)
  exact ⟨hinner, houter, hargs, hpiece' (by simp [isBlank])⟩

end Joined

end Parley
