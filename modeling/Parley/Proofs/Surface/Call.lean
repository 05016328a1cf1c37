import Parley.Proofs.Surface.Shape
import Parley.Proofs.Surface.Split

/-! # Calls

The scanner reads the arguments of a call one level deeper, and otherwise as it reads
them alone. A call is therefore balanced where its arguments are, and with it every
text that is a name or a call, also behind a question mark. Where the arguments are a
name and some other text, the comma between them is the first one at the top level.
-/

namespace Parley

/-- The call `keyword(inner)` as it is written. -/
def Text.call (keyword inner : Text) : Text :=
  keyword ++ '(' :: inner ++ [')']

theorem call?_call {keyword inner : Text} (h : isBalanced inner = true) :
    call? keyword (Text.call keyword inner) = some inner :=
  call?_eq_some_iff.mpr ⟨rfl, h⟩

namespace Nesting

variable {n : Nesting} {sep c : Char} {text : Text}

/-- The state inside one more bracket. -/
def deepen (n : Nesting) : Nesting :=
  { n with depth := n.depth + 1 }

theorem feedOpen_deepen (h : (n.feedOpen c).unbalanced = false) :
    n.deepen.feedOpen c = (n.feedOpen c).deepen := by
  have ht : n.deepen.atTokenStart = n.atTokenStart := rfl
  unfold feedOpen at h ⊢
  rw [ht]
  split
  · rfl
  · split
    · rfl
    · split
      · -- A bracket that closes must have been open, so that there is one more around it.
        cases hd : n.depth with
        | zero => simp_all
        | succ depth => simp [deepen, hd]
      · rfl

theorem feed_deepen (h : (n.feed c).unbalanced = false) :
    n.deepen.feed c = (n.feed c).deepen := by
  have hq : n.deepen.quote = n.quote := rfl
  unfold feed at h ⊢
  rw [hq]
  cases hn : n.quote with
  | some q =>
    simp only
    split <;> rfl
  | none =>
    rw [hn] at h
    simp only [feedOpen_deepen h]
    rfl

theorem feed_deepen_of_feedAll (h : (n.feedAll (c :: text)).unbalanced = false) :
    n.deepen.feed c = (n.feed c).deepen := by
  apply feed_deepen
  rw [Bool.eq_false_iff]
  intro hu
  have hall := feedAll_unbalanced hu text
  rw [feedAll_cons, hall] at h
  cases h

theorem feedAll_deepen (h : (n.feedAll text).unbalanced = false) :
    n.deepen.feedAll text = (n.feedAll text).deepen := by
  induction text generalizing n with
  | nil => rfl
  | cons c text ih =>
    rw [feedAll_cons, feed_deepen_of_feedAll h]
    exact ih h

/-- No separator inside one more bracket stands at the top level. -/
theorem cutFirst?_deepen (h : (n.feedAll text).unbalanced = false) :
    n.deepen.cutFirst? sep text = none := by
  induction text generalizing n with
  | nil => rfl
  | cons c text ih =>
    have htop : n.deepen.isTop = false := by simp [isTop, deepen]
    rw [cutFirst?, if_neg (by simp [htop]), feed_deepen_of_feedAll h, ih h]
    rfl

/-- An open bracket, also behind a text without any, takes the scanner one level deeper. -/
theorem alike_open {lead : Text} {left : Char} (hb : left ∈ ['(', '[', '{'])
    (hl : ∀ c ∈ lead, c ∉ delimiters) :
    ((feedAll {} lead).feed left).Alike (deepen {}) ∧
      ((feedAll {} lead).feed left).unbalanced = false := by
  simp only [List.mem_cons, List.not_mem_nil, or_false] at hb
  rw [feedAll_of_not_delimiter rfl hl]
  rcases hb with rfl | rfl | rfl <;> exact ⟨⟨rfl, rfl, rfl⟩, rfl⟩

end Nesting

open Nesting

variable {lead inner text : Text} {c : Char}

theorem isBalanced_enclosed (lead : Text) {left right : Char}
    (hb : (left, right) ∈ [('(', ')'), ('[', ']'), ('{', '}')])
    (hl : ∀ c ∈ lead, c ∉ delimiters) (h : isBalanced inner = true) :
    isBalanced (lead ++ left :: inner ++ [right]) = true := by
  obtain ⟨hu, hdepth, hquote⟩ := isBalanced_iff.mp h
  obtain ⟨ha, hu'⟩ := alike_open (List.mem_map_of_mem (f := Prod.fst) hb) hl
  simp only [List.mem_cons, Prod.mk.injEq, List.not_mem_nil, or_false] at hb
  rw [isBalanced, List.append_assoc, List.cons_append, feedAll_append, feedAll_cons,
    ha.isClosed hu', feedAll_append, feedAll_deepen hu]
  rcases hb with ⟨-, rfl⟩ | ⟨-, rfl⟩ | ⟨-, rfl⟩ <;>
    simp [deepen, feed, feedOpen, isClosed, hu, hdepth, hquote]

theorem isBalanced_call (hl : ∀ c ∈ lead, c ∉ delimiters) (h : isBalanced inner = true) :
    isBalanced (Text.call lead inner) = true :=
  isBalanced_enclosed lead (by simp) hl h

theorem splitFirst?_call (hl : ∀ c ∈ lead, c ∉ delimiters) (hcomma : ',' ∉ lead)
    (h : isBalanced inner = true) : splitFirst? ',' (Text.call lead inner) = none := by
  have hleft : '(' ∈ ['(', '[', '{'] := by simp
  obtain ⟨ha, -⟩ := alike_open hleft hl
  have hinner : ((feedAll {} lead).feed '(').cutFirst? ',' (inner ++ [')']) = none := by
    rw [ha.cutFirst?, cutFirst?_append_eq_none_iff]
    exact ⟨cutFirst?_deepen (isBalanced_iff.mp h).1, cutFirst?_of_not_mem (by decide)⟩
  rw [splitFirst?, Option.map_eq_none_iff, Text.call, List.append_assoc, List.cons_append,
    cutFirst?_append_eq_none_iff]
  refine ⟨cutFirst?_of_not_mem hcomma, ?_⟩
  rw [cutFirst?, if_neg (by simp), hinner]
  rfl

theorem not_delimiter_of_isPlainChar (h : isPlainChar c = true) : c ∉ delimiters := by
  intro hm
  have hall : ∀ d ∈ delimiters, isPlainChar d = false := forall_mem_delimiters.mpr (by decide)
  simp [hall c hm] at h

theorem not_delimiter_of_mark {name : Text} (h : name.mark = none) : ∀ c ∈ name, c ∉ delimiters :=
  fun c hc => not_delimiter_of_isPlainChar (mark_eq_none_iff.mp h c hc)

theorem Text.trim_of_mark {name : Text} (h : name.mark = none) : name.trim = name := by
  obtain ⟨s, t, he, hs, ht⟩ := Text.exists_pad name
  have hnot : ∀ {u : Text}, (∀ c ∈ u, c ∈ name) → (∀ c ∈ u, isBlank c = true) → u = [] := by
    intro u hu hb
    refine List.eq_nil_iff_forall_not_mem.mpr fun c hc => ?_
    have hplain := mark_eq_none_iff.mp h c (hu c hc)
    rw [isPlainChar_of_isBlank (hb c hc)] at hplain
    cases hplain
  have hstart : s = [] := hnot (fun c hc => by rw [he]; simp [hc]) hs
  have hend : t = [] := hnot (fun c hc => by rw [he]; simp [hc]) ht
  rw [hstart, hend] at he
  simpa using he.symm

theorem splitFirst?_name {name : Text} (h : name.mark = none) (text : Text) :
    splitFirst? ',' (name ++ ", " ++ text) = some (name, text.trim) := by
  have hcomma : ',' ∉ name := by
    intro hm
    cases mark_eq_none_iff.mp h ',' hm
  have hu : splitFirst? ',' name = none := by
    rw [splitFirst?, cutFirst?_of_not_mem hcomma]
    rfl
  have hb : isBalanced name = true := isBalanced_of_not_delimiter (not_delimiter_of_mark h)
  have htrim : Text.trim (' ' :: text) = text.trim := by
    simpa using Text.trim_pad (s := [' ']) (t := []) (by simp [isBlank]) (by simp) text
  rw [List.append_assoc]
  exact (splitFirst?_append_sep hb hu (' ' :: text)).trans (by rw [Text.trim_of_mark h, htrim])

theorem isBalanced_name {name : Text} (h : name.mark = none) (text : Text) :
    isBalanced (name ++ ", " ++ text) = isBalanced text :=
  isBalanced_append_comma (isBalanced_of_not_delimiter (not_delimiter_of_mark h)) text

/-- A name or a call is balanced, also behind characters that are no brackets or quotes. -/
theorem Plain.isBalanced_append (h : Plain text) (hl : ∀ c ∈ lead, c ∉ delimiters) :
    isBalanced (lead ++ text) = true := by
  have hplain : ∀ {name : Text}, name.mark = none → ∀ c ∈ lead ++ name, c ∉ delimiters := by
    intro name hm
    exact List.forall_mem_append.mpr ⟨hl, not_delimiter_of_mark hm⟩
  cases h with
  | name hn hm => exact isBalanced_of_not_delimiter (hplain hm)
  | @call name inner hm hi => simpa [Text.call] using isBalanced_call (hplain hm) hi

end Parley
