import Parley.Proofs.Object.Hash

/-! # Equality of listings

Collections are equal if their items are the same up to order and repetition, and lists
if their items are equal one by one. A collection that is made of a list has as many
items as the list has distinct ones.
-/

namespace Parley

namespace Collection

variable {α : Type} [BEq α] [EquivBEq α] {xs ys : List α}

/-- The distinct items of a list are what is left of it without its repetitions. -/
theorem ofList_eq_eraseDups (items : List α) : ofList items = items.eraseDups := by
  suffices hs : ∀ found, items.foldl insert found =
      List.eraseDupsBy.loop (· == ·) items found.reverse from hs []
  induction items with
  | nil => simp [List.eraseDupsBy.loop]
  | cons item items ih =>
    intro found
    have hany : found.reverse.any (item == ·) = found.any (· == item) := by
      rw [List.any_reverse]
      exact congrArg found.any (funext fun _ => BEq.comm)
    rw [List.foldl_cons, ih, insert, List.eraseDupsBy.loop, hany]
    cases found.any (· == item) <;> simp

theorem sameItems_ofList : SameItems (ofList xs) (ofList ys) ↔ SameItems xs ys := by
  have hx := isSetOf_ofList xs
  have hy := isSetOf_ofList ys
  constructor
  · rintro ⟨hxy, hyx⟩
    constructor
    · intro x hm
      obtain ⟨x', hx', he⟩ := hx.exists_eq x hm
      obtain ⟨y, hy', he'⟩ := hxy x' hx'
      exact ⟨y, hy.mem y hy', BEq.trans (BEq.symm he) he'⟩
    · intro y hm
      obtain ⟨y', hy', he⟩ := hy.exists_eq y hm
      obtain ⟨x, hx', he'⟩ := hyx y' hy'
      exact ⟨x, hx.mem x hx', BEq.trans he' he⟩
  · rintro ⟨hxy, hyx⟩
    constructor
    · intro x hm
      obtain ⟨y, hy', he⟩ := hxy x (hx.mem x hm)
      obtain ⟨y', hy'', he'⟩ := hy.exists_eq y hy'
      exact ⟨y', hy'', BEq.trans he (BEq.symm he')⟩
    · intro y hm
      obtain ⟨x, hx', he⟩ := hyx y (hy.mem y hm)
      obtain ⟨x', hx'', he'⟩ := hx.exists_eq x hx'
      exact ⟨x', hx'', BEq.trans he' he⟩

end Collection

namespace Object

variable {o s : Text} {xs ys : List Object} {ps qs : List Proposition}

theorem set_ofList_beq_iff :
    (set (Collection.ofList xs) == set (Collection.ofList ys)) = true ↔ SameItems xs ys :=
  beq_iff.trans Collection.sameItems_ofList

theorem prereport_ofList_beq_iff :
    (proposition (.prereport o s (Collection.ofList ps)) ==
      proposition (.prereport o s (Collection.ofList qs))) = true ↔ SameItems ps qs := by
  refine beq_iff.trans (Proposition.beq_iff.trans ?_)
  simp only [true_and, Collection.sameItems_ofList]

theorem preconfirmation_beq_iff {pol : Polarity} :
    (proposition (.preconfirmation o s ps pol) == proposition (.preconfirmation o s qs pol)) =
      true ↔ SameList ps qs := by
  refine beq_iff.trans (Proposition.beq_iff.trans ?_)
  simp only [true_and, and_true]

theorem prereport_move_beq_iff :
    (move (.prereport o s ps) none == move (.prereport o s qs) none) = true ↔
      SameList ps qs := by
  refine beq_iff.trans ((and_iff_left rfl).trans (Move.beq_iff.trans ?_))
  simp only [true_and]

theorem alternatives_beq_iff {pol : Polarity} :
    (proposition (.set ps pol) == proposition (.set qs pol)) = true ↔ SameList ps qs := by
  refine beq_iff.trans (Proposition.beq_iff.trans ?_)
  simp only [and_true]

end Object

end Parley
