import Parley.Proofs.Surface.Cut

/-! # The parts of management moves

A management move is written from its parts: its kind, then a polarity behind a star, then
a content behind a colon, where the last two may be missing. A kind and a polarity are
words, in which neither mark stands, so the text has its parts in one way only, whatever
marks stand in the content.
-/

namespace Parley

/-- A part behind its mark, if there is one. -/
def Text.marked (mark : Char) : Option Text → Text
  | none => []
  | some part => mark :: part

theorem cutOptional_eq_iff {mark : Char} {text before : Text} {after : Option Text} :
    cutOptional mark text = (before, after) ↔
      text = before ++ Text.marked mark after ∧ mark ∉ before := by
  unfold cutOptional
  cases hc : text.cut? mark with
  | some halves =>
    obtain ⟨b, a⟩ := halves
    obtain ⟨rfl, hm⟩ := Text.cut?_eq_some_iff.mp hc
    constructor
    · rintro ⟨⟩
      exact ⟨rfl, hm⟩
    · rintro ⟨he, hn⟩
      cases after with
      | none =>
        rw [Text.marked, List.append_nil] at he
        exact absurd (he ▸ List.mem_append_right b List.mem_cons_self) hn
      | some after =>
        have hc' := Text.cut?_eq_some_iff.mpr ⟨he, hn⟩
        obtain ⟨rfl, rfl⟩ := Prod.mk.inj (Option.some.inj (hc.symm.trans hc'))
        rfl
  | none =>
    have hn := Text.cut?_eq_none_iff.mp hc
    constructor
    · rintro ⟨⟩
      exact ⟨by simp [Text.marked], hn⟩
    · rintro ⟨rfl, -⟩
      cases after with
      | none => simp [Text.marked]
      | some after => exact absurd (List.mem_append_right before List.mem_cons_self) hn

theorem not_mem_of_isWord {text : Text} {c : Char} (h : isWord text = true)
    (hc : isWordChar c = false) : c ∉ text := by
  intro hm
  have hall := List.all_eq_true.mp (Bool.and_eq_true_iff.mp h).2 c hm
  simp [hc] at hall

namespace IcmShape

variable {shape shape' : IcmShape} {text : Text}

/-- The kind and the polarity of a management move are words. -/
structure IsWritable (shape : IcmShape) : Prop where
  kind : isWord shape.kind = true
  polarity : ∀ p ∈ shape.polarity, isWord p = true

def write (shape : IcmShape) : Text :=
  "icm:" ++ (shape.kind ++ Text.marked '*' shape.polarity ++ Text.marked ':' shape.content)

theorem IsWritable.not_colon (h : shape.IsWritable) :
    ':' ∉ shape.kind ++ Text.marked '*' shape.polarity := by
  rw [List.mem_append, not_or]
  refine ⟨not_mem_of_isWord h.kind rfl, ?_⟩
  cases hp : shape.polarity with
  | none => simp [Text.marked]
  | some p =>
    rw [Text.marked, List.mem_cons, not_or]
    exact ⟨by decide, not_mem_of_isWord (h.polarity p hp) rfl⟩

theorem scan?_eq_some_iff : scan? text = some shape ↔ text = shape.write ∧ shape.IsWritable := by
  have hword : ∀ shape : IcmShape,
      (isWord shape.kind && shape.polarity.all isWord) = true ↔ shape.IsWritable := by
    intro shape
    rw [Bool.and_eq_true, Option.all_eq_true]
    exact ⟨fun h => ⟨h.1, h.2⟩, fun h => ⟨h.kind, h.polarity⟩⟩
  simp only [scan?, Option.bind_eq_bind, Option.bind_eq_some_iff, Text.dropPrefix?_eq_some_iff]
  constructor
  · rintro ⟨rest, rfl, h⟩
    rcases hrest : cutOptional ':' rest with ⟨head, content⟩
    rcases hhead : cutOptional '*' head with ⟨kind, polarity⟩
    simp only [hrest, hhead] at h
    split at h
    · rename_i hw
      obtain rfl := Option.some.inj h
      refine ⟨?_, (hword _).mp hw⟩
      rw [(cutOptional_eq_iff.mp hrest).1, (cutOptional_eq_iff.mp hhead).1]
      rfl
    · cases h
  · rintro ⟨rfl, h⟩
    have hrest := cutOptional_eq_iff.mpr
      ⟨@rfl _ (shape.kind ++ Text.marked '*' shape.polarity ++ Text.marked ':' shape.content),
        h.not_colon⟩
    have hhead := cutOptional_eq_iff.mpr
      ⟨@rfl _ (shape.kind ++ Text.marked '*' shape.polarity), not_mem_of_isWord h.kind rfl⟩
    refine ⟨_, rfl, ?_⟩
    simp only [hrest, hhead]
    exact if_pos ((hword shape).mpr h)

/-- The text of a management move has its parts in one way only. -/
theorem IsWritable.write_inj (h : shape.IsWritable) (h' : shape'.IsWritable)
    (he : shape.write = shape'.write) : shape = shape' := by
  have hs := scan?_eq_some_iff.mpr ⟨rfl, h⟩
  have hs' := scan?_eq_some_iff.mpr ⟨he, h'⟩
  exact Option.some.inj (hs.symm.trans hs')

end IcmShape

end Parley
