import Mathlib.Data.Int.Cast.Lemmas
import Parley.Proofs.Object.Sameness

/-! # Equality field by field

Two things are equal when they are of the same form and each field of one equals that field
of the other. Texts, numbers, names and what is built from them only are compared as they
are. The items of a set and the arguments of a report are compared as sets, all other lists
item by item.
-/

namespace Parley

def SameItems {α : Type} [BEq α] (xs ys : List α) : Prop :=
  (∀ x ∈ xs, ∃ y ∈ ys, (x == y) = true) ∧ ∀ y ∈ ys, ∃ x ∈ xs, (x == y) = true

abbrev SameList {α : Type} [BEq α] (xs ys : List α) : Prop :=
  List.Forall₂ (fun x y => (x == y) = true) xs ys

namespace Shape

theorem same_word_iff {l m : Text} : same (word l) (word m) = true ↔ l = m := by
  simp [word, same_node_iff]

@[simp] theorem same_node_collection (l : Text) (ps xs : List Shape) :
    same (node l ps) (collection xs) = false := by
  rw [same]
  all_goals simp

@[simp] theorem same_collection_node (l : Text) (ps xs : List Shape) :
    same (collection xs) (node l ps) = false := by
  rw [same]
  all_goals simp

@[simp] theorem same_atom_iff {a b : Atom} : same (leaf a) (leaf b) = true ↔ a = b := by
  simp [same]

@[simp] theorem same_ofText_iff {a b : Text} : same (ofText a) (ofText b) = true ↔ a = b := by
  simp [ofText]

theorem same_optional_iff {α : Type} {f : α → Shape} {x y : Option α}
    (hf : ∀ a b, same (f a) (f b) = true ↔ a = b) :
    same (optional (x.map f)) (optional (y.map f)) = true ↔ x = y := by
  cases x <;> cases y <;> simp [optional, word, same_node_iff, hf]

@[simp] theorem same_optional_ofText_iff {x y : Option Text} :
    same (optional (x.map ofText)) (optional (y.map ofText)) = true ↔ x = y :=
  same_optional_iff fun _ _ => same_ofText_iff

section Items

variable {α : Type} [BEq α] {f : α → Shape} {xs ys : List α}

theorem same_list_map_iff (hf : ∀ a b, same (f a) (f b) = (a == b)) :
    same (list (xs.map f)) (list (ys.map f)) = true ↔ SameList xs ys := by
  rw [list, list, same_node_iff, List.forall₂_map_left_iff, List.forall₂_map_right_iff]
  simp only [hf, true_and]

theorem same_collection_map_iff (hf : ∀ a b, same (f a) (f b) = (a == b)) :
    same (collection (xs.map f)) (collection (ys.map f)) = true ↔ SameItems xs ys := by
  simp [SameItems, same_collection_iff, hf]

end Items

end Shape

namespace Polarity

@[simp] theorem same_shape_iff {p q : Polarity} : p.shape.same q.shape = true ↔ p = q := by
  cases p <;> cases q <;> simp [shape, Shape.same_word_iff]

end Polarity

namespace Speaker

@[simp] theorem same_shape_iff {s t : Speaker} : s.shape.same t.shape = true ↔ s = t := by
  cases s <;> cases t <;> simp [shape, Shape.same_word_iff, token]

@[simp] theorem same_optional_shape_iff {s t : Option Speaker} :
    Shape.same (.optional (s.map shape)) (.optional (t.map shape)) = true ↔ s = t :=
  Shape.same_optional_iff fun _ _ => same_shape_iff

end Speaker

theorem IcmKind.token_inj {k l : IcmKind} : k.token = l.token ↔ k = l := by
  rw [← ofToken?_eq_some_iff, ofToken?_token, Option.some_inj, eq_comm]

theorem IcmPolarity.same_optional_token_iff {p q : Option IcmPolarity} :
    Shape.same (.optional (p.map (.word ∘ token))) (.optional (q.map (.word ∘ token))) = true ↔
      p = q := by
  refine Shape.same_optional_iff fun a b => ?_
  cases a <;> cases b <;> simp [Shape.same_word_iff, token]

namespace Sortal

@[simp] theorem same_shape_iff {s t : Sortal} : s.shape.same t.shape = true ↔ s = t := by
  constructor
  · intro h
    cases s <;> cases t
    case custom.custom name name' =>
      simpa [shape, Shape.same_node_iff] using h
    all_goals first | rfl | nomatch h
  · rintro rfl
    exact Shape.same_refl _

end Sortal

namespace Value

@[simp] theorem same_shape_iff {v w : Value} : v.shape.same w.shape = true ↔ v = w := by
  cases v <;> cases w
  case integer.integer | real.real | string.string | personName.personName | dateTime.dateTime |
      enumerated.enumerated =>
    simp [shape, Shape.same_node_iff]
  all_goals exact iff_of_false nofun nofun

end Value

namespace Individual

@[simp] theorem same_shape_iff {i j : Individual} : i.shape.same j.shape = true ↔ i = j := by
  obtain ⟨o, v, s, p⟩ := i
  obtain ⟨o', v', s', p'⟩ := j
  simp [shape, Shape.same_node_iff]

@[simp] theorem same_optional_shape_iff {i j : Option Individual} :
    Shape.same (.optional (i.map shape)) (.optional (j.map shape)) = true ↔ i = j :=
  Shape.same_optional_iff fun _ _ => same_shape_iff

end Individual

namespace Predicate

@[simp] theorem same_shape_iff {p q : Predicate} : p.shape.same q.shape = true ↔ p = q := by
  obtain ⟨o, n, s⟩ := p
  obtain ⟨o', n', s'⟩ := q
  simp [shape, Shape.same_node_iff]

end Predicate

namespace Action

@[simp] theorem same_shape_iff {a b : Action} : a.shape.same b.shape = true ↔ a = b := by
  obtain ⟨o, n⟩ := a
  obtain ⟨o', n'⟩ := b
  simp [shape, Shape.same_node_iff]

end Action

@[simp] theorem ActionStatus.same_shape_iff {s t : ActionStatus} :
    s.shape.same t.shape = true ↔ s = t := by
  cases s
  cases t
  exact iff_of_true (Shape.same_refl _) rfl

namespace ServiceOutcome

@[simp] theorem same_shape_iff {o o' : ServiceOutcome} : o.shape.same o'.shape = true ↔ o = o' := by
  cases o <;> cases o' <;> simp [shape, Shape.word, Shape.same_node_iff]

end ServiceOutcome

theorem Preconfirmation.same_shape_iff {p q : Preconfirmation} :
    p.shape.same q.shape = true ↔ p = q := by
  cases p <;> cases q <;> simp [shape, Shape.same_word_iff]

namespace ServiceActionOptions

@[simp] theorem same_shape_iff {o o' : ServiceActionOptions} :
    o.shape.same o'.shape = true ↔ o = o' := by
  obtain ⟨p, post, plan⟩ := o
  obtain ⟨p', post', plan'⟩ := o'
  simp [shape, Shape.same_node_iff,
    Shape.same_optional_iff fun _ _ => Preconfirmation.same_shape_iff]

end ServiceActionOptions

namespace Realization

@[simp] theorem same_optional_shape_iff {r r' : Option Realization} :
    Shape.same (.optional (r.map shape)) (.optional (r'.map shape)) = true ↔ r = r' := by
  refine Shape.same_optional_iff fun a b => ?_
  obtain ⟨s, c, u, w, d⟩ := a
  obtain ⟨s', c', u', w', d'⟩ := b
  have hreal {x y : Binary64} :
      Shape.same ((.leaf ∘ .real) x) ((.leaf ∘ .real) y) = true ↔ x = y := by
    simp
  simp [shape, Shape.same_node_iff, Shape.same_optional_iff fun _ _ => hreal]

end Realization

theorem Proposition.shapes_eq_map (ps : List Proposition) : shapes ps = ps.map shape := by
  induction ps with
  | nil => rw [shapes, List.map_nil]
  | cons p ps ih => rw [shapes, List.map_cons, ih]

theorem Object.shapes_eq_map (os : List Object) : shapes os = os.map shape := by
  induction os with
  | nil => rw [shapes, List.map_nil]
  | cons o os ih => rw [shapes, List.map_cons, ih]

namespace Proposition

theorem same_shape (p q : Proposition) : p.shape.same q.shape = (p == q) := rfl

theorem same_list_iff {ps qs : List Proposition} :
    Shape.same (.list (shapes ps)) (.list (shapes qs)) = true ↔ SameList ps qs := by
  rw [shapes_eq_map, shapes_eq_map]
  exact Shape.same_list_map_iff same_shape

theorem same_collection_iff {ps qs : List Proposition} :
    Shape.same (.collection (shapes ps)) (.collection (shapes qs)) = true ↔ SameItems ps qs := by
  rw [shapes_eq_map, shapes_eq_map]
  exact Shape.same_collection_map_iff same_shape

end Proposition

namespace Object

theorem same_shape (a b : Object) : a.shape.same b.shape = (a == b) := rfl

theorem same_list_iff {xs ys : List Object} :
    Shape.same (.list (shapes xs)) (.list (shapes ys)) = true ↔ SameList xs ys := by
  rw [shapes_eq_map, shapes_eq_map]
  exact Shape.same_list_map_iff same_shape

theorem same_collection_iff {xs ys : List Object} :
    Shape.same (.collection (shapes xs)) (.collection (shapes ys)) = true ↔ SameItems xs ys := by
  rw [shapes_eq_map, shapes_eq_map]
  exact Shape.same_collection_map_iff same_shape

end Object

theorem Lambda.same_shape (l m : Lambda) : l.shape.same m.shape = (l == m) := rfl

theorem Question.same_shape (q r : Question) : q.shape.same r.shape = (q == r) := rfl

theorem Goal.same_shape (g h : Goal) : g.shape.same h.shape = (g == h) := rfl

theorem Move.same_shape (m n : Move) : m.shape.same n.shape = (m == n) := rfl

theorem IcmContent.same_shape (c d : IcmContent) : c.shape.same d.shape = (c == d) := rfl

theorem Icm.same_shape (m n : Icm) : m.shape.same n.shape = (m == n) := rfl

theorem PlanItem.same_shape (i j : PlanItem) : i.shape.same j.shape = (i == j) := rfl

section Fields

attribute [local simp] Shape.same_node_iff Shape.word Proposition.same_list_iff
  Proposition.same_collection_iff Object.same_list_iff Object.same_collection_iff
  Proposition.same_shape Lambda.same_shape Question.same_shape Goal.same_shape Move.same_shape
  IcmContent.same_shape Icm.same_shape PlanItem.same_shape Object.same_shape

theorem Proposition.beq_iff {p q : Proposition} : (p == q) = true ↔
    match p, q with
    | .predicate p i pol, .predicate p' i' pol' => p = p' ∧ i = i' ∧ pol = pol'
    | .goal g pol, .goal g' pol' => (g == g') = true ∧ pol = pol'
    | .preconfirmation o a ps pol, .preconfirmation o' a' ps' pol' =>
      o = o' ∧ a = a' ∧ SameList ps ps' ∧ pol = pol'
    | .prereport o a ps, .prereport o' a' ps' => o = o' ∧ a = a' ∧ SameItems ps ps'
    | .serviceActionStarted o a, .serviceActionStarted o' a' => o = o' ∧ a = a'
    | .serviceActionTerminated o a, .serviceActionTerminated o' a' => o = o' ∧ a = a'
    | .serviceResult o a ps r, .serviceResult o' a' ps' r' =>
      o = o' ∧ a = a' ∧ SameList ps ps' ∧ r = r'
    | .rejected c r pol, .rejected c' r' pol' => (c == c') = true ∧ r = r' ∧ pol = pol'
    | .set ps pol, .set ps' pol' => SameList ps ps' ∧ pol = pol'
    | .understanding s c pol, .understanding s' c' pol' =>
      s = s' ∧ (c == c') = true ∧ pol = pol'
    | .resolvedness i, .resolvedness i' => (i == i') = true
    | .knowledgePrecondition q pol, .knowledgePrecondition q' pol' =>
      (q == q') = true ∧ pol = pol'
    | .actionStatus a s, .actionStatus a' s' => a = a' ∧ s = s'
    | .implication a c, .implication a' c' => (a == a') = true ∧ (c == c') = true
    | _, _ => False := by
  rw [← same_shape]
  cases p <;> cases q <;> simp [shape]

theorem Lambda.beq_iff {l m : Lambda} : (l == m) = true ↔
    match l, m with
    | .predicate p, .predicate p' => p = p'
    | .goal, .goal => True
    | .implication o a c, .implication o' a' c' => o = o' ∧ (a == a') = true ∧ c = c'
    | _, _ => False := by
  rw [← same_shape]
  cases l <;> cases m <;> simp [shape]

theorem Question.beq_iff {q r : Question} : (q == r) = true ↔
    match q, r with
    | .yesNo p, .yesNo p' => (p == p') = true
    | .wh l, .wh l' => (l == l') = true
    | .alternative ps pol, .alternative ps' pol' => SameList ps ps' ∧ pol = pol'
    | .consequent o a c, .consequent o' a' c' => o = o' ∧ (a == a') = true ∧ c = c'
    | .knowledgePrecondition i, .knowledgePrecondition i' => (i == i') = true
    | _, _ => False := by
  rw [← same_shape]
  cases q <;> cases r <;> simp [shape]

theorem Goal.beq_iff {g h : Goal} : (g == h) = true ↔
    match g, h with
    | .resolve q s, .resolve q' s' => (q == q') = true ∧ s = s'
    | .perform a, .perform a' => a = a'
    | .handle o a, .handle o' a' => o = o' ∧ a = a'
    | _, _ => False := by
  rw [← same_shape]
  cases g <;> cases h <;> simp [shape]

theorem Move.beq_iff {m n : Move} : (m == n) = true ↔
    match m, n with
    | .greet, .greet | .mute, .mute | .unmute, .unmute | .quit, .quit | .thankYou, .thankYou
    | .thankYouResponse, .thankYouResponse => True
    | .ask q, .ask q' => (q == q') = true
    | .answer o, .answer o' | .report o, .report o' => (o == o') = true
    | .prereport o a ps, .prereport o' a' ps' => o = o' ∧ a = a' ∧ SameList ps ps'
    | .request a, .request a' => a = a'
    | _, _ => False := by
  rw [← same_shape]
  cases m <;> cases n <;> simp [shape]

theorem IcmContent.beq_iff {c d : IcmContent} : (c == d) = true ↔
    match c, d with
    | .none, .none | .issue, .issue => True
    | .text t, .text t' => t = t'
    | .semantic o, .semantic o' => (o == o') = true
    | _, _ => False := by
  rw [← same_shape]
  cases c <;> cases d <;> simp [shape]

theorem Icm.beq_iff {m n : Icm} : (m == n) = true ↔
    m.kind = n.kind ∧ m.polarity = n.polarity ∧ (m.content == n.content) = true ∧
      m.contentSpeaker = n.contentSpeaker := by
  obtain ⟨k, p, c, s⟩ := m
  obtain ⟨k', p', c', s'⟩ := n
  rw [← same_shape]
  simp [shape, kind, polarity, content, contentSpeaker, IcmKind.token_inj,
    IcmPolarity.same_optional_token_iff]

theorem PlanItem.beq_iff {i j : PlanItem} : (i == j) = true ↔
    match i, j with
    | .findout d q, .findout d' q' | .raise d q, .raise d' q' => d = d' ∧ (q == q') = true
    | .bind q, .bind q' | .respond q, .respond q' | .consultDB q, .consultDB q' =>
      (q == q') = true
    | .perform a, .perform a' => a = a'
    | .jumpTo g, .jumpTo g' => (g == g') = true
    | .ifThenElse c xs ys, .ifThenElse c' xs' ys' =>
      (c == c') = true ∧ SameList xs xs' ∧ SameList ys ys'
    | .forgetAll, .forgetAll | .signalActionCompletion, .signalActionCompletion => True
    | .forget o, .forget o' | .forgetIssue o, .forgetIssue o'
    | .assumeIssue o, .assumeIssue o' => (o == o') = true
    | .assume p, .assume p' | .assumeShared p, .assumeShared p' => (p == p') = true
    | .signalActionFailure r, .signalActionFailure r' => r = r'
    | .log m, .log m' => m = m'
    | .invokeServiceQuery o low high, .invokeServiceQuery o' low' high' =>
      (o == o') = true ∧ low = low' ∧ high = high'
    | .invokeServiceAction o a options, .invokeServiceAction o' a' options' =>
      o = o' ∧ a = a' ∧ options = options'
    | _, _ => False := by
  rw [← same_shape]
  cases i <;> cases j <;> simp [shape]

theorem Object.beq_iff {a b : Object} : (a == b) = true ↔
    match a, b with
    | .move m r, .move m' r' => (m == m') = true ∧ r = r'
    | .icm m r, .icm m' r' => (m == m') = true ∧ r = r'
    | .proposition p, .proposition p' => (p == p') = true
    | .question q, .question q' => (q == q') = true
    | .planItem i, .planItem i' => (i == i') = true
    | .goal g, .goal g' => (g == g') = true
    | .lambda l, .lambda l' => (l == l') = true
    | .individual i, .individual i' => i = i'
    | .predicate p, .predicate p' => p = p'
    | .action a, .action a' => a = a'
    | .actionStatus s, .actionStatus s' => s = s'
    | .serviceOutcome o, .serviceOutcome o' => o = o'
    | .set xs, .set ys => SameItems xs ys
    | .sequence xs, .sequence ys => SameList xs ys
    | .yes, .yes | .no, .no => True
    | .text t, .text t' => t = t'
    | _, _ => False := by
  rw [← same_shape]
  cases a <;> cases b
  all_goals first
    | (simp [shape]; done)
    | simp [shape, Individual.shape, Predicate.shape, Action.shape, Shape.list]

end Fields

end Parley
