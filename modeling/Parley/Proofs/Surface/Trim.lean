import Mathlib.Data.List.TakeWhile
import Parley.Proofs.Surface.Inside

/-! # Trimming

A text with a character in it that is no blank keeps, when it is trimmed, everything
between its first and its last such character. A trimmed text that goes on therefore
starts with the text that was trimmed before.
-/

namespace Parley.Text

variable {s t u : Text} {c : Char}

theorem trimEnd_append_cons (hc : isBlank c = false) (s t : Text) :
    trimEnd (s ++ c :: t) = s ++ c :: trimEnd t := by
  simp only [trimEnd, List.reverse_append, List.reverse_cons, List.append_assoc,
    List.dropWhile_append, List.cons_append, List.nil_append, List.dropWhile_cons, hc,
    Bool.false_eq_true, if_false]
  split <;> simp_all

theorem trimStart_cons (hc : isBlank c = false) (t : Text) : trimStart (c :: t) = c :: t := by
  simp [trimStart, hc]

theorem trimStart_append_of_blank (hs : ∀ b ∈ s, isBlank b = true) (t : Text) :
    trimStart (s ++ t) = trimStart t := by
  have hd : s.dropWhile isBlank = [] := List.dropWhile_eq_nil_iff.mpr hs
  simp [trimStart, List.dropWhile_append, hd]

theorem isBlankText_iff : isBlankText s = true ↔ ∀ b ∈ s, isBlank b = true := by
  constructor
  · intro h
    by_contra hn
    rw [← List.dropWhile_eq_nil_iff] at hn
    obtain ⟨c, rest, hd⟩ := List.exists_cons_of_ne_nil hn
    have hc : isBlank c = false := by
      have hh := List.head_dropWhile_not isBlank hn
      simpa [hd] using hh
    have ht : trim s = [] ++ c :: trimEnd rest := by
      rw [trim, trimStart, hd]
      exact trimEnd_append_cons hc [] rest
    simp [isBlankText, ht] at h
  · intro h
    have hd : s.dropWhile isBlank = [] := List.dropWhile_eq_nil_iff.mpr h
    simp [isBlankText, trim, trimStart, trimEnd, hd]

theorem isBlankText_eq_false_iff :
    isBlankText s = false ↔ ∃ before c after, s = before ++ c :: after ∧ isBlank c = false := by
  rw [← Bool.not_eq_true, isBlankText_iff]
  constructor
  · intro h
    simp only [not_forall, Bool.not_eq_true] at h
    obtain ⟨c, hm, hc⟩ := h
    obtain ⟨before, after, rfl⟩ := List.append_of_mem hm
    exact ⟨before, c, after, rfl, hc⟩
  · rintro ⟨before, c, after, rfl, hc⟩ h
    simp [h c (by simp)] at hc

theorem trim_append_of_blank (hs : ∀ b ∈ s, isBlank b = true) (hc : isBlank c = false) (t : Text) :
    trim (s ++ c :: t) = c :: trimEnd t := by
  rw [trim, trimStart_append_of_blank hs, trimStart_cons hc]
  exact trimEnd_append_cons hc [] t

theorem trimEnd_append_of_blank (ht : ∀ b ∈ t, isBlank b = true) (s : Text) :
    trimEnd (s ++ t) = trimEnd s := by
  have hd : t.reverse.dropWhile isBlank = [] := by simpa [List.dropWhile_eq_nil_iff] using ht
  simp [trimEnd, List.dropWhile_append, hd]

theorem trim_pad (hs : ∀ b ∈ s, isBlank b = true) (ht : ∀ b ∈ t, isBlank b = true) (u : Text) :
    trim (s ++ u ++ t) = trim u := by
  rw [trim, trim, List.append_assoc, trimStart_append_of_blank hs, trimStart, trimStart,
    List.dropWhile_append]
  split
  · rename_i hu
    have hu' : u.dropWhile isBlank = [] := List.isEmpty_iff.mp hu
    have ht' : t.dropWhile isBlank = [] := List.dropWhile_eq_nil_iff.mpr ht
    rw [hu', ht']
  · exact trimEnd_append_of_blank ht _

theorem trim_enclosed {b : Char} (hc : isBlank c = false) (hb : isBlank b = false) (t : Text) :
    trim (c :: (t ++ [b])) = c :: (t ++ [b]) := by
  have h := trim_append_of_blank (s := []) (by simp) hc (t ++ [b])
  rwa [trimEnd_append_cons hb] at h

theorem exists_pad (u : Text) : ∃ s t, u = s ++ trim u ++ t ∧ (∀ b ∈ s, isBlank b = true) ∧
    ∀ b ∈ t, isBlank b = true := by
  refine ⟨u.takeWhile isBlank, ((trimStart u).reverse.takeWhile isBlank).reverse, ?_, ?_, ?_⟩
  · have hend : trimStart u = trim u ++ ((trimStart u).reverse.takeWhile isBlank).reverse := by
      rw [trim, trimEnd, ← List.reverse_append, List.takeWhile_append_dropWhile,
        List.reverse_reverse]
    rw [List.append_assoc, ← hend, trimStart, List.takeWhile_append_dropWhile]
  · intro b hb
    exact List.mem_takeWhile_imp hb
  · intro b hb
    exact List.mem_takeWhile_imp (List.mem_reverse.mp hb)

theorem trim_append (hs : isBlankText s = false) (hc : isBlank c = false) (u t : Text) :
    ∃ blanks, (∀ b ∈ blanks, isBlank b = true) ∧
      trim (s ++ (u ++ c :: t)) = trim s ++ (blanks ++ u ++ c :: trimEnd t) := by
  have hn : trimStart s ≠ [] := by
    intro h
    simp [isBlankText, trim, h, trimEnd] at hs
  have hstart : trimStart (s ++ (u ++ c :: t)) = trimStart s ++ u ++ c :: t := by
    simp only [trimStart] at hn ⊢
    simp [List.dropWhile_append, hn]
  have hsplit : trimStart s = trim s ++ ((trimStart s).reverse.takeWhile isBlank).reverse := by
    rw [trim, trimEnd, ← List.reverse_append, List.takeWhile_append_dropWhile,
      List.reverse_reverse]
  refine ⟨((trimStart s).reverse.takeWhile isBlank).reverse, fun b hb => ?_, ?_⟩
  · exact List.mem_takeWhile_imp (List.mem_reverse.mp hb)
  · rw [trim, hstart, trimEnd_append_cons hc]
    conv_lhs => rw [hsplit]
    simp

end Parley.Text
