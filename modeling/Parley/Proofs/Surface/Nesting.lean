import Parley.Proofs.Surface.Trim

/-! # Runs of the scanner

The scanner restarts after a blank, a comma or an equals sign: what it knows of the
text before is then no more than how many brackets and which quote are open. Balanced
texts can therefore be put together at such places, and whatever stands between quotes
that start a token is passed over.
-/

namespace Parley

/-- The characters that change how deep the scanner stands. -/
def delimiters : List Char :=
  ['"', '\'', '(', '[', '{', ')', ']', '}']

theorem forall_mem_delimiters {P : Char → Prop} :
    (∀ c ∈ delimiters, P c) ↔
      P '"' ∧ P '\'' ∧ P '(' ∧ P '[' ∧ P '{' ∧ P ')' ∧ P ']' ∧ P '}' := by
  simp [delimiters]

theorem not_delimiter_of_all {text : Text} (h : text.all (fun c => !delimiters.contains c) = true) :
    ∀ c ∈ text, c ∉ delimiters := by
  simpa using h

theorem not_delimiter_of_isBlank {c : Char} (h : isBlank c = true) : c ∉ delimiters := by
  intro hm
  have hall : ∀ d ∈ delimiters, isBlank d = false := forall_mem_delimiters.mpr (by decide)
  simp [hall c hm] at h

namespace Nesting

variable {n n' : Nesting} {c q : Char} {s t text : Text}

/-- The scanner goes on alike from two states. -/
structure Alike (n n' : Nesting) : Prop where
  depth : n.depth = n'.depth
  quote : n.quote = n'.quote
  atTokenStart : n.atTokenStart = n'.atTokenStart

theorem isTop_iff : n.isTop = true ↔ n.quote = none ∧ n.depth = 0 := by
  simp [isTop]

theorem isClosed_iff :
    n.isClosed = true ↔ n.unbalanced = false ∧ n.depth = 0 ∧ n.quote = none := by
  simp [isClosed, and_assoc]

theorem Alike.isTop (h : n.Alike n') : n.isTop = n'.isTop := by
  rw [Nesting.isTop, Nesting.isTop, h.depth, h.quote]

theorem Alike.feed (h : n.Alike n') (c : Char) : (n.feed c).Alike (n'.feed c) := by
  obtain ⟨depth, quote, unbalanced, previous⟩ := n
  obtain ⟨depth', quote', unbalanced', previous'⟩ := n'
  obtain ⟨rfl, rfl, ht⟩ := h
  simp only [Nesting.feed, feedOpen, ht]
  constructor
  · repeat' split
    all_goals rfl
  · repeat' split
    all_goals rfl
  · rfl

theorem Alike.unbalanced (h : n.Alike n') (hu : n.unbalanced = n'.unbalanced) (c : Char) :
    (n.feed c).unbalanced = (n'.feed c).unbalanced := by
  obtain ⟨depth, quote, unbalanced, previous⟩ := n
  obtain ⟨depth', quote', unbalanced', previous'⟩ := n'
  obtain ⟨rfl, rfl, ht⟩ := h
  obtain rfl : unbalanced = unbalanced' := hu
  simp only [Nesting.feed, feedOpen, ht]
  repeat' split
  all_goals rfl

theorem Alike.isClosed (h : n.Alike n') (hu : n.unbalanced = n'.unbalanced) (text : Text) :
    (n.feedAll text).isClosed = (n'.feedAll text).isClosed := by
  induction text generalizing n n' with
  | nil => simp only [feedAll_nil, Nesting.isClosed, h.depth, h.quote, hu]
  | cons c text ih => exact ih (h.feed c) (h.unbalanced hu c)

/-- Where no character changes how deep the scanner stands, only the last one is remembered. -/
theorem feedAll_quiet
    (h : ∀ c ∈ text, ∀ p, ({ n with previous := p } : Nesting).feed c =
      { n with previous := some c }) :
    n.feedAll text = { n with previous := text.getLast?.or n.previous } := by
  induction text using List.reverseRecOn with
  | nil => rfl
  | append_singleton text c ih =>
    have hc := h c (by simp)
    rw [feedAll_append, ih fun d hd => h d (List.mem_append_left _ hd), feedAll_cons, hc]
    simp

theorem feedAll_of_not_delimiter (hq : n.quote = none) (h : ∀ c ∈ text, c ∉ delimiters) :
    n.feedAll text = { n with previous := text.getLast?.or n.previous } := by
  apply feedAll_quiet
  intro c hc p
  have hn := h c hc
  simp only [delimiters, List.mem_cons, List.not_mem_nil, or_false, not_or] at hn
  simp [feed, feedOpen, hq, hn]

theorem feed_of_not_delimiter (hq : n.quote = none) (hc : c ∉ delimiters) :
    n.feed c = { n with previous := some c } :=
  feedAll_of_not_delimiter hq (List.forall_mem_singleton.mpr hc)

/-- After a character that starts a token at the top level, the scanner is as at the start. -/
theorem alike_feed (h : n.isTop = true) (hc : startsToken c = true) (hd : c ∉ delimiters) :
    (n.feed c).Alike {} := by
  obtain ⟨hquote, hdepth⟩ := isTop_iff.mp h
  rw [feed_of_not_delimiter hquote hd]
  exact ⟨hdepth, hquote, hc⟩

theorem feedAll_inside (hq : n.quote = some q) (h : q ∉ text) :
    n.feedAll text = { n with previous := text.getLast?.or n.previous } := by
  apply feedAll_quiet
  intro c hc p
  have hne : c ≠ q := by
    rintro rfl
    exact h hc
  simp [feed, hq, hne]

/-- A quote opens where it is double or where a token starts. -/
theorem feed_quote (hq : n.quote = none) (h : q = '"' ∨ q = '\'' ∧ n.atTokenStart = true) :
    n.feed q = { n with quote := some q, previous := some q } := by
  rcases h with rfl | ⟨rfl, ht⟩
  · simp [feed, feedOpen, hq]
  · simp [feed, feedOpen, hq, ht]

theorem feedAll_quoted (hq : n.quote = none) (h : q = '"' ∨ q = '\'' ∧ n.atTokenStart = true)
    (ht : q ∉ text) : n.feedAll (q :: (text ++ [q])) = { n with previous := some q } := by
  have hinside : ({ n with quote := some q, previous := some q } : Nesting).feedAll text =
      { n with quote := some q, previous := text.getLast?.or (some q) } :=
    feedAll_inside rfl ht
  rw [feedAll_cons, feed_quote hq h, feedAll_append, hinside]
  simp [feed, hq]

end Nesting

section Balanced

open Nesting

variable {s t text : Text} {c q : Char}

theorem isBalanced_iff :
    isBalanced s = true ↔ (feedAll {} s).unbalanced = false ∧ (feedAll {} s).depth = 0 ∧
      (feedAll {} s).quote = none :=
  isClosed_iff

theorem isBalanced_of_not_delimiter (h : ∀ c ∈ text, c ∉ delimiters) : isBalanced text = true := by
  rw [isBalanced, feedAll_of_not_delimiter rfl h]
  rfl

theorem isBalanced_quoted (hq : q ∈ ['"', '\'']) (ht : q ∉ text) :
    isBalanced (q :: (text ++ [q])) = true := by
  have ho : q = '"' ∨ q = '\'' ∧ ({} : Nesting).atTokenStart = true := by
    simp only [List.mem_cons, List.not_mem_nil, or_false] at hq
    exact hq.imp id fun h => ⟨h, rfl⟩
  rw [isBalanced, feedAll_quoted rfl ho ht]
  rfl

theorem alike_after (hs : isBalanced s = true) (hc : startsToken c = true) (hd : c ∉ delimiters) :
    ((feedAll {} s).feed c).Alike {} ∧ ((feedAll {} s).feed c).unbalanced = false := by
  obtain ⟨hu, hdepth, hquote⟩ := isBalanced_iff.mp hs
  refine ⟨alike_feed (isTop_iff.mpr ⟨hquote, hdepth⟩) hc hd, ?_⟩
  rw [feed_of_not_delimiter hquote hd]
  exact hu

theorem isBalanced_append_cons (hs : isBalanced s = true) (hc : startsToken c = true)
    (hd : c ∉ delimiters) : isBalanced (s ++ c :: t) = isBalanced t := by
  obtain ⟨ha, hu⟩ := alike_after hs hc hd
  rw [isBalanced, feedAll_append, feedAll_cons, ha.isClosed hu]
  rfl

theorem isBalanced_append_comma (hs : isBalanced s = true) (t : Text) :
    isBalanced (s ++ ", " ++ t) = isBalanced t := by
  have hblank := isBalanced_append_cons (s := []) (c := ' ') (t := t) rfl rfl (by decide)
  rw [List.append_assoc, ← hblank]
  exact isBalanced_append_cons hs rfl (by decide)

theorem isBalanced_append_of_not_delimiter (hs : isBalanced s = true)
    (ht : ∀ c ∈ t, c ∉ delimiters) : isBalanced (s ++ t) = true := by
  obtain ⟨hu, hdepth, hquote⟩ := isBalanced_iff.mp hs
  rw [isBalanced, feedAll_append, feedAll_of_not_delimiter hquote ht]
  exact isClosed_iff.mpr ⟨hu, hdepth, hquote⟩

theorem isBalanced_pad {before after : Text} (hb : ∀ c ∈ before, isBlank c = true)
    (ha : ∀ c ∈ after, isBlank c = true) (h : isBalanced text = true) :
    isBalanced (before ++ text ++ after) = true := by
  apply isBalanced_append_of_not_delimiter
  · cases before using List.reverseRecOn with
    | nil => exact h
    | append_singleton before c =>
      have hc := hb c (by simp)
      have hbefore : isBalanced before = true := by
        apply isBalanced_of_not_delimiter
        intro d hd
        exact not_delimiter_of_isBlank (hb d (List.mem_append_left _ hd))
      rw [← List.append_cons, isBalanced_append_cons hbefore, h]
      · simp [startsToken, hc]
      · exact not_delimiter_of_isBlank hc
  · intro c hc
    exact not_delimiter_of_isBlank (ha c hc)

theorem isBalanced_of_trim (h : isBalanced text.trim = true) : isBalanced text = true := by
  obtain ⟨before, after, he, hb, ha⟩ := Text.exists_pad text
  rw [he]
  exact isBalanced_pad hb ha h

end Balanced

end Parley
