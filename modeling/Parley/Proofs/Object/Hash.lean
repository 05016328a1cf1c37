import Mathlib.Data.BitVec
import Parley.Proofs.Object.Equality

/-! # Hashes

What is fed to a hash is the same for shapes that are the same, whatever function digests
the items of collections. The tally of a collection counts one item of each kind, so it
does not depend on the order of the items nor on repetitions, at any depth. Equality of
objects and their hashes therefore agree.
-/

namespace Parley

namespace Shape

variable {s t : Shape} {w : Nat} {digest : List Nat → BitVec w}

theorem tally_cons (digest : List Nat → BitVec w) (x : Shape) (xs : List Shape) :
    tally digest (x :: xs) =
      if xs.any (same x) then tally digest xs
      else ((tally digest xs).1 + 1, (tally digest xs).2 + digest (tokens digest x)) := by
  rw [tally]

theorem tally_of_distinct {xs : List Shape} (h : xs.Pairwise fun x y => same x y = false) :
    tally digest xs = (xs.length, (xs.map fun x => digest (tokens digest x)).sum) := by
  induction h with
  | nil => rfl
  | @cons x xs hx _ ih =>
    have hany : ¬ xs.any (same x) = true := by simpa using hx
    rw [tally_cons, if_neg hany, ih, List.length_cons, List.map_cons, List.sum_cons,
      BitVec.add_comm]

/-- Of the items that are the same as one shape, one counts. -/
theorem tally_eq_filter {x : Shape} {ys : List Shape} (hx : ∃ y ∈ ys, same x y = true)
    (ht : ∀ y ∈ ys, same x y = true → tokens digest x = tokens digest y) :
    tally digest ys =
      ((tally digest (ys.filter fun y => !same x y)).1 + 1,
        (tally digest (ys.filter fun y => !same x y)).2 + digest (tokens digest x)) := by
  induction ys with
  | nil => simp at hx
  | cons y ys ih =>
    rw [List.forall_mem_cons] at ht
    rw [tally_cons]
    by_cases hy : same x y = true
    · -- The first item is one of them, and it counts unless there is another one.
      rw [List.filter_cons_of_neg (by simp [hy])]
      by_cases hany : ys.any (same y) = true
      · rw [if_pos hany]
        obtain ⟨z, hz, hyz⟩ := List.any_eq_true.mp hany
        exact ih ⟨z, hz, same_trans hy hyz⟩ ht.2
      · rw [if_neg hany, ht.1 hy, List.filter_eq_self.mpr]
        intro z hz
        rw [Bool.not_eq_true', Bool.eq_false_iff]
        intro hxz
        exact hany (List.any_eq_true.mpr ⟨z, hz, same_trans (same_symm hy) hxz⟩)
    · rw [List.filter_cons_of_pos (by simp [hy]), tally_cons]
      have hx' : ∃ y ∈ ys, same x y = true := by simpa [hy] using hx
      -- Nothing that is the same as the first item is left out by the filter.
      have hany : ys.any (same y) = (ys.filter fun y => !same x y).any (same y) := by
        rw [List.any_filter]
        refine List.any_congr rfl fun z => ?_
        cases hyz : same y z with
        | false => simp
        | true =>
          have hxz : same x z = false :=
            Bool.eq_false_iff.mpr fun h => hy (same_trans h (same_symm hyz))
          simp [hxz]
      rw [ih hx' ht.2, hany]
      split
      · rfl
      · rw [BitVec.add_assoc, BitVec.add_comm (digest (tokens digest x)), ← BitVec.add_assoc]

theorem tally_congr {xs ys : List Shape} (hxy : ∀ x ∈ xs, ∃ y ∈ ys, same x y = true)
    (hyx : ∀ y ∈ ys, ∃ x ∈ xs, same x y = true)
    (ht : ∀ x ∈ xs, ∀ {y}, same x y = true → tokens digest x = tokens digest y) :
    tally digest xs = tally digest ys := by
  induction xs generalizing ys with
  | nil =>
    cases ys with
    | nil => rfl
    | cons y ys => simpa using hyx y List.mem_cons_self
  | cons x xs ih =>
    rw [List.forall_mem_cons] at hxy ht
    rw [tally_cons]
    by_cases hany : xs.any (same x) = true
    · rw [if_pos hany]
      obtain ⟨z, hz, hxz⟩ := List.any_eq_true.mp hany
      refine ih hxy.2 (fun y hy => ?_) ht.2
      obtain ⟨w, hw, hwy⟩ := hyx y hy
      rcases List.mem_cons.mp hw with rfl | hw
      · exact ⟨z, hz, same_trans (same_symm hxz) hwy⟩
      · exact ⟨w, hw, hwy⟩
    · -- The first item is like none after it, so these have their like among what is left.
      have hrest : tally digest xs = tally digest (ys.filter fun y => !same x y) := by
        refine ih (fun w hw => ?_) (fun y hy => ?_) ht.2
        · obtain ⟨y, hy, hwy⟩ := hxy.2 w hw
          refine ⟨y, List.mem_filter.mpr ⟨hy, ?_⟩, hwy⟩
          rw [Bool.not_eq_true', Bool.eq_false_iff]
          intro h
          exact hany (List.any_eq_true.mpr ⟨w, hw, same_trans h (same_symm hwy)⟩)
        · obtain ⟨hy, hne⟩ := List.mem_filter.mp hy
          obtain ⟨w, hw, hwy⟩ := hyx y hy
          rcases List.mem_cons.mp hw with rfl | hw
          · simp [hwy] at hne
          · exact ⟨w, hw, hwy⟩
      rw [if_neg hany, tally_eq_filter hxy.1 fun y _ => ht.1, hrest]

theorem partTokens_congr {ps qs : List Shape}
    (h : List.Forall₂ (fun p q => tokens digest p = tokens digest q) ps qs) :
    partTokens digest ps = partTokens digest qs := by
  induction h with
  | nil => rfl
  | cons hp _ ih => rw [partTokens, partTokens, hp, ih]

theorem tokens_congr (h : same s t = true) : tokens digest s = tokens digest t := by
  induction s generalizing t with
  | leaf a =>
    obtain rfl := same_leaf_iff.mp h
    rfl
  | node l ps ih =>
    obtain ⟨qs, rfl, hq⟩ := exists_of_same_node h
    rw [tokens, tokens, partTokens_congr (forall₂_imp_of_mem ih hq)]
  | collection xs ih =>
    obtain ⟨ys, rfl, hxy, hyx⟩ := exists_of_same_collection h
    rw [tokens, tokens, tally_congr hxy hyx ih]

/-- The same tree with the items of its collections in another order, at any depth. -/
inductive Reordered : Shape → Shape → Prop
  | leaf (a : Atom) : Reordered (leaf a) (leaf a)
  | node (l : Text) {ps qs : List Shape} (h : List.Forall₂ Reordered ps qs) :
    Reordered (node l ps) (node l qs)
  | collection {xs ys zs : List Shape} (h : List.Forall₂ Reordered xs ys) (hp : ys.Perm zs) :
    Reordered (collection xs) (collection zs)

theorem Reordered.refl (s : Shape) : s.Reordered s := by
  induction s with
  | leaf a => exact .leaf a
  | node l ps ih => exact .node l (List.forall₂_same.mpr ih)
  | collection xs ih => exact .collection (List.forall₂_same.mpr ih) (.refl xs)

theorem same_collection_of_forall₂ {xs ys : List Shape}
    (h : List.Forall₂ (fun x y => same x y = true) xs ys) :
    same (collection xs) (collection ys) = true := by
  rw [same_collection_iff]
  induction h with
  | nil => simp
  | @cons x y xs ys hxy _ ih =>
    constructor
    · refine List.forall_mem_cons.mpr ⟨⟨y, List.mem_cons_self, hxy⟩, fun x' hx => ?_⟩
      obtain ⟨y', hy, hs⟩ := ih.1 x' hx
      exact ⟨y', List.mem_cons_of_mem y hy, hs⟩
    · refine List.forall_mem_cons.mpr ⟨⟨x, List.mem_cons_self, hxy⟩, fun y' hy => ?_⟩
      obtain ⟨x', hx, hs⟩ := ih.2 y' hy
      exact ⟨x', List.mem_cons_of_mem x hx, hs⟩

theorem same_collection_of_perm {xs ys : List Shape} (h : xs.Perm ys) :
    same (collection xs) (collection ys) = true := by
  rw [same_collection_iff]
  exact ⟨fun x hx => ⟨x, h.subset hx, same_refl x⟩, fun y hy => ⟨y, h.symm.subset hy, same_refl y⟩⟩

theorem Reordered.same (h : s.Reordered t) : Shape.same s t = true := by
  induction s generalizing t with
  | leaf a =>
    cases h
    exact same_refl _
  | node l ps ih =>
    cases h with
    | node _ hq =>
      exact same_node_iff.mpr ⟨rfl, forall₂_imp_of_mem ih hq⟩
  | collection xs ih =>
    cases h with
    | collection hy hperm =>
      have hsame := same_collection_of_forall₂ (forall₂_imp_of_mem ih hy)
      exact same_trans hsame (same_collection_of_perm hperm)

end Shape

namespace Object

variable {a b : Object} {w : Nat}

/-- What is fed to the hash of a set: the number of its items and the sum of their digests. -/
theorem set_tokens (digest : List Nat → BitVec w) {xs : List Object}
    (h : xs.Pairwise fun a b => (a == b) = false) :
    (set xs).shape.tokens digest =
      [2, xs.length, (xs.map fun x => digest (x.shape.tokens digest)).sum.toNat] := by
  have hshapes : (xs.map shape).Pairwise fun s t => s.same t = false := List.pairwise_map.mpr h
  rw [shape, Shape.tokens, shapes_eq_map, Shape.tally_of_distinct hshapes, List.length_map,
    List.map_map]
  rfl

/-- No two items of a collection made of a list are equal, so each of them counts. -/
theorem set_ofList_tokens (digest : List Nat → BitVec w) (found : List Object) :
    let xs := Collection.ofList found
    (set xs).shape.tokens digest =
      [2, xs.length, (xs.map fun x => digest (x.shape.tokens digest)).sum.toNat] :=
  set_tokens digest (Collection.isSetOf_ofList found).distinct

/-- In whatever orders the items of collections come, equal objects are equal, and what is fed to
their hashes agrees for every digest of the items. -/
theorem beq_reordered {a' b' : Object} (h : (a == b) = true) (ha : a.shape.Reordered a'.shape)
    (hb : b.shape.Reordered b'.shape) :
    (a' == b') = true ∧
      (∀ (w : Nat) (digest : List Nat → BitVec w),
        a'.shape.tokens digest = b'.shape.tokens digest) ∧
      a'.hash = b'.hash := by
  have hsame : a'.shape.same b'.shape = true :=
    Shape.same_trans (Shape.same_symm ha.same) (Shape.same_trans h hb.same)
  refine ⟨hsame, fun w digest => Shape.tokens_congr hsame, ?_⟩
  rw [hash, hash, Shape.hash, Shape.hash, Shape.tokens_congr hsame]

/-- Equality of objects is an equivalence that agrees with their hashes, in whatever orders the
items of collections come. Sets and the arguments of reports are equal as sets; numbers and
confidences are equal when their patterns are. -/
theorem beq_lawful :
    (∀ a : Object, (a == a) = true) ∧
    (∀ a b : Object, (a == b) = true → (b == a) = true) ∧
    (∀ a b c : Object, (a == b) = true → (b == c) = true → (a == c) = true) ∧
    (∀ a b a' b' : Object, (a == b) = true →
      a.shape.Reordered a'.shape → b.shape.Reordered b'.shape →
      (a' == b') = true ∧
        (∀ (w : Nat) (digest : List Nat → BitVec w),
          a'.shape.tokens digest = b'.shape.tokens digest) ∧
        a'.hash = b'.hash) ∧
    (∀ xs ys : List Object, (set xs == set ys) = true ↔
      (∀ x ∈ xs, ∃ y ∈ ys, (x == y) = true) ∧ ∀ y ∈ ys, ∃ x ∈ xs, (x == y) = true) ∧
    (∀ (o o' s s' : Text) (ps qs : List Proposition),
      (proposition (.prereport o s ps) == proposition (.prereport o' s' qs)) = true ↔
        o = o' ∧ s = s' ∧
          (∀ p ∈ ps, ∃ q ∈ qs, (p == q) = true) ∧ ∀ q ∈ qs, ∃ p ∈ ps, (p == q) = true) ∧
    (∀ i j : Individual, (individual i == individual j) = true ↔ i = j) ∧
    (∀ (m m' : Move) (r r' : Option Realization),
      (move m r == move m' r') = true ↔ (m == m') = true ∧ r = r') ∧
    ∀ (m m' : Icm) (r r' : Option Realization),
      (icm m r == icm m' r') = true ↔ (m == m') = true ∧ r = r' := by
  refine ⟨fun a => BEq.rfl, fun a b => BEq.symm, fun a b c => BEq.trans, ?_,
    fun _ _ => beq_iff, fun _ _ _ _ _ _ => beq_iff.trans Proposition.beq_iff, fun _ _ => beq_iff,
    fun _ _ _ _ => beq_iff, fun _ _ _ _ => beq_iff⟩
  intro a b a' b' h ha hb
  exact beq_reordered h ha hb

/-- A move heard with a confidence that is not a number, beside a set within a set. -/
theorem beq_lawful_nested :
    let unheard : Object :=
      move .greet (some { perceptionConfidence := some ⟨0x7FF8000000000000⟩ })
    let a : Object := set [set [yes, no], unheard, unheard]
    let b : Object := set [set [no, yes], unheard]
    let b' : Object := set [unheard, set [yes, no]]
    (a == b) = true ∧ (a == b') = true ∧ a.hash = b'.hash := by
  intro unheard a b b'
  have hab : (a == b) = true := by decide
  have hb : b.shape.Reordered b'.shape :=
    .collection (.cons (.collection (.cons (.refl _) (.cons (.refl _) .nil)) (.swap _ _ []))
      (.cons (.refl _) .nil)) (.swap _ _ [])
  obtain ⟨heq, -, hhash⟩ := beq_lawful.2.2.2.1 a b a b' hab (.refl _) hb
  exact ⟨hab, heq, hhash⟩

end Object

end Parley
