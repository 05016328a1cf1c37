import Mathlib.Data.List.Forall2
import Parley.Collection
import Parley.Object.Shape

/-! # Sameness and collections

Sameness of shapes is an equivalence, and so is equality of objects and of propositions.
Where equality is reflexive, the distinct items of a list are a set: each item of the
list equals one of them, and no two of them are equal.
-/

namespace Parley

theorem forall₂_imp_of_mem {α β : Type} {R S : α → β → Prop} {l : List α} {m : List β}
    (h : ∀ a ∈ l, ∀ {b}, R a b → S a b) (hr : List.Forall₂ R l m) : List.Forall₂ S l m := by
  induction hr with
  | nil => exact .nil
  | cons hab _ ih =>
    rw [List.forall_mem_cons] at h
    exact .cons (h.1 hab) (ih h.2)

namespace Shape

/-- What holds of leaves, and of a tree where it holds of all its parts or items, holds of every
shape. -/
@[elab_as_elim, induction_eliminator]
theorem induct {P : Shape → Prop} (leaf : ∀ a, P (leaf a))
    (node : ∀ l ps, (∀ p ∈ ps, P p) → P (node l ps))
    (collection : ∀ xs, (∀ x ∈ xs, P x) → P (collection xs)) (s : Shape) : P s := by
  refine @Shape.rec P (fun parts => ∀ p ∈ parts, P p) leaf node collection ?_ ?_ s
  · simp
  · intro p parts hp hparts
    exact List.forall_mem_cons.mpr ⟨hp, hparts⟩

variable {s t u : Shape}

theorem sameParts_iff {ps qs : List Shape} :
    sameParts ps qs = true ↔ List.Forall₂ (fun p q => same p q = true) ps qs := by
  induction ps generalizing qs with
  | nil => cases qs <;> simp [sameParts]
  | cons p ps ih => cases qs <;> simp [sameParts, ih]

theorem same_leaf_iff {a : Atom} : same (leaf a) t = true ↔ t = leaf a := by
  cases t with
  | leaf b => simpa [same] using eq_comm
  | node | collection => simp [same]

theorem same_node_iff {l m : Text} {ps qs : List Shape} :
    same (node l ps) (node m qs) = true ↔
      l = m ∧ List.Forall₂ (fun p q => same p q = true) ps qs := by
  simp [same, sameParts_iff]

theorem exists_of_same_node {l : Text} {ps : List Shape} (h : same (node l ps) t = true) :
    ∃ qs, t = node l qs ∧ List.Forall₂ (fun p q => same p q = true) ps qs := by
  cases t with
  | node m qs =>
    obtain ⟨rfl, hq⟩ := same_node_iff.mp h
    exact ⟨qs, rfl, hq⟩
  | leaf | collection => simp [same] at h

theorem exists_of_same_collection {xs : List Shape} (h : same (collection xs) t = true) :
    ∃ ys, t = collection ys ∧
      (∀ x ∈ xs, ∃ y ∈ ys, same x y = true) ∧ ∀ y ∈ ys, ∃ x ∈ xs, same x y = true := by
  cases t with
  | collection ys => exact ⟨ys, rfl, (same_collection_iff xs ys).mp h⟩
  | leaf | node => simp [same] at h

theorem same_refl (s : Shape) : same s s = true := by
  induction s with
  | leaf a => exact same_leaf_iff.mpr rfl
  | node l ps ih => exact same_node_iff.mpr ⟨rfl, List.forall₂_same.mpr ih⟩
  | collection xs ih =>
    rw [same_collection_iff]
    exact ⟨fun x hx => ⟨x, hx, ih x hx⟩, fun x hx => ⟨x, hx, ih x hx⟩⟩

theorem same_symm (h : same s t = true) : same t s = true := by
  induction s generalizing t with
  | leaf a =>
    obtain rfl := same_leaf_iff.mp h
    exact h
  | node l ps ih =>
    obtain ⟨qs, rfl, hq⟩ := exists_of_same_node h
    exact same_node_iff.mpr ⟨rfl, (forall₂_imp_of_mem ih hq).flip⟩
  | collection xs ih =>
    obtain ⟨ys, rfl, hxy, hyx⟩ := exists_of_same_collection h
    refine (same_collection_iff ys xs).mpr ⟨fun y hy => ?_, fun x hx => ?_⟩
    · obtain ⟨x, hx, hs⟩ := hyx y hy
      exact ⟨x, hx, ih x hx hs⟩
    · obtain ⟨y, hy, hs⟩ := hxy x hx
      exact ⟨y, hy, ih x hx hs⟩

theorem same_trans (h : same s t = true) (h' : same t u = true) : same s u = true := by
  induction s generalizing t u with
  | leaf a =>
    obtain rfl := same_leaf_iff.mp h
    exact h'
  | node l ps ih =>
    obtain ⟨qs, rfl, hq⟩ := exists_of_same_node h
    obtain ⟨rs, rfl, hr⟩ := exists_of_same_node h'
    have hstep : List.Forall₂ (fun p q => ∀ {r}, same q r = true → same p r = true) ps qs :=
      forall₂_imp_of_mem (fun p hp q hpq r => ih p hp hpq) hq
    refine same_node_iff.mpr ⟨rfl, ?_⟩
    clear ih hq h h'
    induction hstep generalizing rs with
    | nil => exact hr
    | cons hp _ ih =>
      cases hr with
      | cons hqr hr => exact .cons (hp hqr) (ih _ hr)
  | collection xs ih =>
    obtain ⟨ys, rfl, hxy, hyx⟩ := exists_of_same_collection h
    obtain ⟨zs, rfl, hyz, hzy⟩ := exists_of_same_collection h'
    refine (same_collection_iff xs zs).mpr ⟨fun x hx => ?_, fun z hz => ?_⟩
    · obtain ⟨y, hy, hs⟩ := hxy x hx
      obtain ⟨z, hz, hs'⟩ := hyz y hy
      exact ⟨z, hz, ih x hx hs hs'⟩
    · obtain ⟨y, hy, hs'⟩ := hzy z hz
      obtain ⟨x, hx, hs⟩ := hyx y hy
      exact ⟨x, hx, ih x hx hs hs'⟩

end Shape

instance : EquivBEq Proposition where
  rfl := Shape.same_refl _
  symm := Shape.same_symm
  trans := Shape.same_trans

instance : EquivBEq Object where
  rfl := Shape.same_refl _
  symm := Shape.same_symm
  trans := Shape.same_trans

namespace Collection

variable {α : Type} [BEq α] {items found : List α}

/-- The items are those of a list, each of them once. -/
structure IsSetOf (items found : List α) : Prop where
  mem : ∀ item ∈ items, item ∈ found
  exists_eq : ∀ item ∈ found, ∃ member ∈ items, (member == item) = true
  distinct : items.Pairwise fun a b => (a == b) = false

theorem mem_insert_of_mem {item : α} (h : item ∈ items) (a : α) : item ∈ insert items a := by
  unfold insert
  split
  · exact h
  · exact List.mem_append_left _ h

variable [ReflBEq α]

theorem IsSetOf.insert (h : IsSetOf items found) (a : α) :
    IsSetOf (insert items a) (found ++ [a]) := by
  have hmem : ∀ item ∈ found, ∃ member ∈ Collection.insert items a, (member == item) = true := by
    intro item hi
    obtain ⟨member, hm, he⟩ := h.exists_eq item hi
    exact ⟨member, mem_insert_of_mem hm a, he⟩
  have hnew : ∃ member ∈ Collection.insert items a, (member == a) = true := by
    unfold Collection.insert
    split
    · rename_i hany
      exact List.any_eq_true.mp hany
    · exact ⟨a, by simp, BEq.rfl⟩
  constructor
  · unfold Collection.insert
    intro item hi
    split at hi
    · exact List.mem_append_left _ (h.mem item hi)
    · rw [List.mem_append] at hi ⊢
      exact hi.imp_left (h.mem item)
  · intro item hi
    rcases List.mem_append.mp hi with hi | hi
    · exact hmem item hi
    · rw [List.mem_singleton.mp hi]
      exact hnew
  · unfold Collection.insert
    split
    · exact h.distinct
    · rename_i hnone
      rw [List.pairwise_append]
      refine ⟨h.distinct, List.pairwise_singleton _ a, ?_⟩
      intro member hm b hb
      rw [List.mem_singleton.mp hb, ← Bool.not_eq_true]
      intro he
      exact hnone (List.any_eq_true.mpr ⟨member, hm, he⟩)

theorem isSetOf_ofList (found : List α) : IsSetOf (ofList found) found := by
  have hrun : ∀ (more items found : List α), IsSetOf items found →
      IsSetOf (more.foldl Collection.insert items) (found ++ more) := by
    intro more
    induction more with
    | nil =>
      intro items found h
      simpa using h
    | cons a more ih =>
      intro items found h
      rw [List.append_cons]
      exact ih _ _ (h.insert a)
  have hempty : IsSetOf ([] : List α) [] := ⟨by simp, by simp, .nil⟩
  exact hrun found [] [] hempty

end Collection

end Parley
