import Parley.Parameter
import Parley.Proofs.Object.Sameness

/-! # Stamps

The plan items that raise questions carry the name of a domain. Stamping an object replaces
this name in all of them, at any depth. Two objects that are stamped with one domain are
equal under every other domain if they are equal under this one, so that which items of a
collection fall together does not depend on the domain.
-/

namespace Parley

mutual

/-- The proposition with a domain in the plan items that raise questions. -/
def Proposition.stamp (domain : Option Text) : Proposition → Proposition
  | .predicate p i pol => .predicate p i pol
  | .goal g pol => .goal (g.stamp domain) pol
  | .preconfirmation o a ps pol => .preconfirmation o a (Proposition.stampAll domain ps) pol
  | .prereport o a ps => .prereport o a (Proposition.stampAll domain ps)
  | .serviceActionStarted o a => .serviceActionStarted o a
  | .serviceActionTerminated o a => .serviceActionTerminated o a
  | .serviceResult o a ps r => .serviceResult o a (Proposition.stampAll domain ps) r
  | .rejected c r pol => .rejected (c.stamp domain) r pol
  | .set ps pol => .set (Proposition.stampAll domain ps) pol
  | .understanding s c pol => .understanding s (c.stamp domain) pol
  | .resolvedness i => .resolvedness (i.stamp domain)
  | .knowledgePrecondition q pol => .knowledgePrecondition (q.stamp domain) pol
  | .actionStatus a s => .actionStatus a s
  | .implication a c => .implication (a.stamp domain) (c.stamp domain)

def Proposition.stampAll (domain : Option Text) : List Proposition → List Proposition
  | [] => []
  | p :: ps => p.stamp domain :: Proposition.stampAll domain ps

def Lambda.stamp (domain : Option Text) : Lambda → Lambda
  | .predicate p => .predicate p
  | .goal => .goal
  | .implication o a c => .implication o (a.stamp domain) c

def Question.stamp (domain : Option Text) : Question → Question
  | .yesNo p => .yesNo (p.stamp domain)
  | .wh l => .wh (l.stamp domain)
  | .alternative ps pol => .alternative (Proposition.stampAll domain ps) pol
  | .consequent o a c => .consequent o (a.stamp domain) c
  | .knowledgePrecondition i => .knowledgePrecondition (i.stamp domain)

def Goal.stamp (domain : Option Text) : Goal → Goal
  | .resolve q s => .resolve (q.stamp domain) s
  | .perform a => .perform a
  | .handle o a => .handle o a

def Move.stamp (domain : Option Text) : Move → Move
  | .greet => .greet
  | .mute => .mute
  | .unmute => .unmute
  | .quit => .quit
  | .thankYou => .thankYou
  | .thankYouResponse => .thankYouResponse
  | .ask q => .ask (q.stamp domain)
  | .answer o => .answer (o.stamp domain)
  | .report o => .report (o.stamp domain)
  | .prereport o a ps => .prereport o a (Proposition.stampAll domain ps)
  | .request a => .request a

def IcmContent.stamp (domain : Option Text) : IcmContent → IcmContent
  | .none => .none
  | .issue => .issue
  | .text t => .text t
  | .semantic o => .semantic (o.stamp domain)

def Icm.stamp (domain : Option Text) : Icm → Icm
  | .mk kind polarity content speaker => .mk kind polarity (content.stamp domain) speaker

/-- The plan item with a domain, if it raises a question, and with the domain in the plan items
inside it. -/
def PlanItem.stamp (domain : Option Text) : PlanItem → PlanItem
  | .findout _ q => .findout domain (q.stamp domain)
  | .raise _ q => .raise domain (q.stamp domain)
  | .bind q => .bind (q.stamp domain)
  | .respond q => .respond (q.stamp domain)
  | .consultDB q => .consultDB (q.stamp domain)
  | .perform a => .perform a
  | .jumpTo g => .jumpTo (g.stamp domain)
  | .ifThenElse c xs ys =>
    .ifThenElse (c.stamp domain) (Object.stampAll domain xs) (Object.stampAll domain ys)
  | .forgetAll => .forgetAll
  | .forget o => .forget (o.stamp domain)
  | .forgetIssue o => .forgetIssue (o.stamp domain)
  | .assume p => .assume (p.stamp domain)
  | .assumeShared p => .assumeShared (p.stamp domain)
  | .assumeIssue o => .assumeIssue (o.stamp domain)
  | .signalActionCompletion => .signalActionCompletion
  | .signalActionFailure r => .signalActionFailure r
  | .log m => .log m
  | .invokeServiceQuery o low high => .invokeServiceQuery (o.stamp domain) low high
  | .invokeServiceAction o a options => .invokeServiceAction o a options

/-- The object with a domain in the plan items that raise questions. -/
def Object.stamp (domain : Option Text) : Object → Object
  | .move m r => .move (m.stamp domain) r
  | .icm m r => .icm (m.stamp domain) r
  | .proposition p => .proposition (p.stamp domain)
  | .question q => .question (q.stamp domain)
  | .planItem i => .planItem (i.stamp domain)
  | .goal g => .goal (g.stamp domain)
  | .lambda l => .lambda (l.stamp domain)
  | .individual i => .individual i
  | .predicate p => .predicate p
  | .action a => .action a
  | .actionStatus s => .actionStatus s
  | .serviceOutcome o => .serviceOutcome o
  | .set xs => .set (Object.stampAll domain xs)
  | .sequence xs => .sequence (Object.stampAll domain xs)
  | .yes => .yes
  | .no => .no
  | .text t => .text t

def Object.stampAll (domain : Option Text) : List Object → List Object
  | [] => []
  | o :: os => o.stamp domain :: Object.stampAll domain os

end

variable (d d' : Option Text)

mutual

theorem Proposition.stamp_stamp (p : Proposition) : (p.stamp d).stamp d' = p.stamp d' := by
  cases p <;> simp only [Proposition.stamp, Proposition.stampAll_stampAll, Proposition.stamp_stamp,
    Goal.stamp_stamp, Object.stamp_stamp]

theorem Proposition.stampAll_stampAll (ps : List Proposition) :
    Proposition.stampAll d' (Proposition.stampAll d ps) = Proposition.stampAll d' ps := by
  cases ps <;> simp only [Proposition.stampAll, Proposition.stampAll_stampAll,
    Proposition.stamp_stamp]

theorem Lambda.stamp_stamp (l : Lambda) : (l.stamp d).stamp d' = l.stamp d' := by
  cases l <;> simp only [Lambda.stamp, Proposition.stamp_stamp]

theorem Question.stamp_stamp (q : Question) : (q.stamp d).stamp d' = q.stamp d' := by
  cases q <;> simp only [Question.stamp, Proposition.stamp_stamp, Proposition.stampAll_stampAll,
    Lambda.stamp_stamp, Object.stamp_stamp]

theorem Goal.stamp_stamp (g : Goal) : (g.stamp d).stamp d' = g.stamp d' := by
  cases g <;> simp only [Goal.stamp, Question.stamp_stamp]

theorem Move.stamp_stamp (m : Move) : (m.stamp d).stamp d' = m.stamp d' := by
  cases m <;> simp only [Move.stamp, Question.stamp_stamp, Object.stamp_stamp,
    Proposition.stampAll_stampAll]

theorem IcmContent.stamp_stamp (c : IcmContent) : (c.stamp d).stamp d' = c.stamp d' := by
  cases c <;> simp only [IcmContent.stamp, Object.stamp_stamp]

theorem Icm.stamp_stamp (m : Icm) : (m.stamp d).stamp d' = m.stamp d' := by
  cases m
  simp only [Icm.stamp, IcmContent.stamp_stamp]

theorem PlanItem.stamp_stamp (i : PlanItem) : (i.stamp d).stamp d' = i.stamp d' := by
  cases i <;> simp only [PlanItem.stamp, Question.stamp_stamp, Goal.stamp_stamp,
    Proposition.stamp_stamp, Object.stamp_stamp, Object.stampAll_stampAll]

theorem Object.stamp_stamp (o : Object) : (o.stamp d).stamp d' = o.stamp d' := by
  cases o <;> simp only [Object.stamp, Move.stamp_stamp, Icm.stamp_stamp, Proposition.stamp_stamp,
    Question.stamp_stamp, PlanItem.stamp_stamp, Goal.stamp_stamp, Lambda.stamp_stamp,
    Object.stampAll_stampAll]

theorem Object.stampAll_stampAll (os : List Object) :
    Object.stampAll d' (Object.stampAll d os) = Object.stampAll d' os := by
  cases os <;> simp only [Object.stampAll, Object.stampAll_stampAll, Object.stamp_stamp]

end

section Forall₂
variable {α β : Type} {R : α → β → Prop} {P : α → Prop} {Q : β → Prop} {l : List α} {m : List β}

theorem forall_mem_iff_of_forall₂ (hr : List.Forall₂ R l m)
    (h : ∀ a ∈ l, ∀ {b}, R a b → (P a ↔ Q b)) : (∀ a ∈ l, P a) ↔ ∀ b ∈ m, Q b := by
  induction hr with
  | nil => simp
  | cons hab _ ih =>
    rw [List.forall_mem_cons] at h
    rw [List.forall_mem_cons, List.forall_mem_cons, h.1 hab, ih h.2]

theorem exists_mem_iff_of_forall₂ (hr : List.Forall₂ R l m)
    (h : ∀ a ∈ l, ∀ {b}, R a b → (P a ↔ Q b)) : (∃ a ∈ l, P a) ↔ ∃ b ∈ m, Q b := by
  induction hr with
  | nil => simp
  | cons hab _ ih =>
    rw [List.forall_mem_cons] at h
    rw [List.exists_mem_cons_iff, List.exists_mem_cons_iff, h.1 hab, ih h.2]

end Forall₂

namespace Shape

def raisingLabels : List Text :=
  ["findout", "raise"]

/-- Shapes that differ in the domains of the plan items that raise questions: one domain is
everywhere in the one, another everywhere in the other. -/
inductive Stamped (a b : Shape) : Shape → Shape → Prop
  | leaf (x : Atom) : Stamped a b (leaf x) (leaf x)
  | raising {l : Text} {s t : Shape} (hl : l ∈ raisingLabels) (h : Stamped a b s t) :
    Stamped a b (node l [a, s]) (node l [b, t])
  | node {l : Text} {ps qs : List Shape} (hl : l ∉ raisingLabels)
    (h : List.Forall₂ (Stamped a b) ps qs) : Stamped a b (node l ps) (node l qs)
  | collection {xs ys : List Shape} (h : List.Forall₂ (Stamped a b) xs ys) :
    Stamped a b (collection xs) (collection ys)

variable {a b s s' t t' : Shape}

theorem forall₂_same_iff {R : Shape → Shape → Prop} {ps ps' qs qs' : List Shape}
    (hp : List.Forall₂ R ps ps') (hq : List.Forall₂ R qs qs')
    (h : ∀ p ∈ ps, ∀ {p' q q'}, R p p' → R q q' → (same p q = true ↔ same p' q' = true)) :
    List.Forall₂ (fun p q => same p q = true) ps qs ↔
      List.Forall₂ (fun p q => same p q = true) ps' qs' := by
  induction hp generalizing qs qs' with
  | nil => cases hq <;> simp
  | cons hpp _ ih =>
    rw [List.forall_mem_cons] at h
    cases hq with
    | nil => simp
    | cons hqq hq => rw [List.forall₂_cons, List.forall₂_cons, h.1 hpp hqq, ih hq h.2]

/-- Whether shapes are the same does not depend on the domain that both have. -/
theorem Stamped.same_iff (h : Stamped a b s s') (h' : Stamped a b t t') :
    same s t = true ↔ same s' t' = true := by
  induction s generalizing s' t t' with
  | leaf x =>
    cases h
    cases h' with
    | leaf y => exact Iff.rfl
    | raising | node | collection => simp [same]
  | node l ps ih =>
    cases h' with
    | leaf y => cases h <;> simp [same]
    | collection _ => cases h <;> simp [same]
    | @raising m _ _ hm hq =>
      cases h with
      | raising hl hp =>
        have hparts := ih _ (List.mem_cons_of_mem _ List.mem_cons_self) hp hq
        simp [same_node_iff, same_refl, hparts]
      | node hl hp =>
        have hne : l ≠ m := fun he => hl (he ▸ hm)
        simp [same_node_iff, hne]
    | @node m _ _ hm hq =>
      cases h with
      | raising hl hp =>
        have hne : l ≠ m := fun he => hm (he ▸ hl)
        simp [same_node_iff, hne]
      | node hl hp => rw [same_node_iff, same_node_iff, forall₂_same_iff hp hq ih]
  | collection xs ih =>
    cases h with
    | collection hx =>
      cases h' with
      | leaf | raising | node => simp [same]
      | collection hy =>
        rw [same_collection_iff, same_collection_iff]
        have hxy := forall_mem_iff_of_forall₂ hx fun x hm x' hxx =>
          exists_mem_iff_of_forall₂ hy fun y _ y' hyy => ih x hm hxx hyy
        have hyx := forall_mem_iff_of_forall₂ hy fun y _ y' hyy =>
          exists_mem_iff_of_forall₂ hx fun x hm x' hxx => ih x hm hxx hyy
        rw [hxy, hyx]

@[simp] theorem stamped_node {l : Text} {ps qs : List Shape} (hl : l ∉ raisingLabels) :
    Stamped a b (node l ps) (node l qs) ↔ List.Forall₂ (Stamped a b) ps qs := by
  constructor
  · intro h
    cases h with
    | raising hm => exact absurd hm hl
    | node _ hp => exact hp
  · exact .node hl

@[simp] theorem stamped_leaf (x : Atom) : Stamped a b (leaf x) (leaf x) :=
  .leaf x

@[simp] theorem stamped_collection {xs ys : List Shape} :
    Stamped a b (collection xs) (collection ys) ↔ List.Forall₂ (Stamped a b) xs ys := by
  constructor
  · rintro ⟨⟩
    assumption
  · exact .collection

@[simp] theorem stamped_ofText (text : Text) : Stamped a b (ofText text) (ofText text) :=
  .leaf _

@[simp] theorem stamped_word {l : Text} (hl : l ∉ raisingLabels) : Stamped a b (word l) (word l) :=
  .node hl .nil

@[simp] theorem stamped_optional {α : Type} {f : α → Shape} (h : ∀ x, Stamped a b (f x) (f x))
    (x : Option α) : Stamped a b (optional (x.map f)) (optional (x.map f)) := by
  cases x with
  | none => exact stamped_word (by decide)
  | some x => exact .node (by decide) (.cons (h x) .nil)

end Shape

section Shapes

variable {a b : Shape}

@[simp] theorem Polarity.shape_stamped (p : Polarity) : Shape.Stamped a b p.shape p.shape := by
  cases p <;> exact Shape.stamped_word (by decide)

@[simp] theorem Speaker.shape_stamped (s : Speaker) : Shape.Stamped a b s.shape s.shape := by
  cases s <;> exact Shape.stamped_word (by decide)

@[simp] theorem Sortal.shape_stamped (s : Sortal) : Shape.Stamped a b s.shape s.shape := by
  cases s with
  | custom name => exact .node (by decide) (.cons (.leaf _) .nil)
  | _ => exact Shape.stamped_word (by decide)

@[simp] theorem Value.shape_stamped (v : Value) : Shape.Stamped a b v.shape v.shape := by
  cases v <;> exact .node (by decide) (.cons (.leaf _) .nil)

@[simp] theorem Individual.shape_stamped (i : Individual) : Shape.Stamped a b i.shape i.shape :=
  .node (by decide) (.cons (.leaf _) (.cons i.value.shape_stamped (.cons i.sort.shape_stamped
    (.cons i.polarity.shape_stamped .nil))))

@[simp] theorem Predicate.shape_stamped (p : Predicate) : Shape.Stamped a b p.shape p.shape :=
  .node (by decide) (.cons (.leaf _) (.cons (.leaf _) (.cons p.sort.shape_stamped .nil)))

@[simp] theorem Action.shape_stamped (x : Action) : Shape.Stamped a b x.shape x.shape :=
  .node (by decide) (.cons (.leaf _) (.cons (.leaf _) .nil))

@[simp] theorem ActionStatus.shape_stamped (s : ActionStatus) :
    Shape.Stamped a b s.shape s.shape := by
  cases s
  exact Shape.stamped_word (by decide)

@[simp] theorem ServiceOutcome.shape_stamped (o : ServiceOutcome) :
    Shape.Stamped a b o.shape o.shape := by
  cases o with
  | successful => exact Shape.stamped_word (by decide)
  | failed reason => exact .node (by decide) (.cons (.leaf _) .nil)

@[simp] theorem ServiceActionOptions.shape_stamped (o : ServiceActionOptions) :
    Shape.Stamped a b o.shape o.shape := by
  refine .node (by decide) (.cons (Shape.stamped_optional ?_ _) (.cons (.leaf _)
    (.cons (.leaf _) .nil)))
  rintro (_ | _) <;> exact Shape.stamped_word (by decide)

@[simp] theorem Realization.shape_stamped (r : Realization) : Shape.Stamped a b r.shape r.shape :=
  .node (by decide) (.cons (Shape.stamped_optional Speaker.shape_stamped _)
    (.cons (Shape.stamped_optional (fun _ => .leaf _) _)
      (.cons (Shape.stamped_optional (fun _ => .leaf _) _)
        (.cons (Shape.stamped_optional Shape.stamped_ofText _)
          (.cons (Shape.stamped_optional Shape.stamped_ofText _) .nil)))))

@[simp] theorem IcmKind.token_not_raising (kind : IcmKind) : kind.token ∉ Shape.raisingLabels := by
  cases kind <;> decide

@[simp] theorem IcmPolarity.token_not_raising (p : IcmPolarity) :
    p.token ∉ Shape.raisingLabels := by
  cases p <;> decide

end Shapes

variable (d d' : Option Text)

def domainShape (domain : Option Text) : Shape :=
  .optional (domain.map .ofText)

mutual

theorem Proposition.shape_stamped (p : Proposition) :
    Shape.Stamped (domainShape d) (domainShape d') (p.stamp d).shape (p.stamp d').shape := by
  cases p <;> simp (disch := first | decide | simp) [Proposition.stamp, Proposition.shape,
    Shape.list, Proposition.shape_stamped, Proposition.shapes_stamped, Goal.shape_stamped,
    Object.shape_stamped]

theorem Proposition.shapes_stamped (ps : List Proposition) :
    List.Forall₂ (Shape.Stamped (domainShape d) (domainShape d'))
      (Proposition.shapes (Proposition.stampAll d ps))
      (Proposition.shapes (Proposition.stampAll d' ps)) := by
  cases ps <;> simp [Proposition.stampAll, Proposition.shapes, Proposition.shape_stamped,
    Proposition.shapes_stamped]

theorem Lambda.shape_stamped (l : Lambda) :
    Shape.Stamped (domainShape d) (domainShape d') (l.stamp d).shape (l.stamp d').shape := by
  cases l <;> simp (disch := decide) [Lambda.stamp, Lambda.shape, Proposition.shape_stamped]

theorem Question.shape_stamped (q : Question) :
    Shape.Stamped (domainShape d) (domainShape d') (q.stamp d).shape (q.stamp d').shape := by
  cases q <;> simp (disch := decide) [Question.stamp, Question.shape, Shape.list,
    Proposition.shape_stamped, Proposition.shapes_stamped, Lambda.shape_stamped,
    Object.shape_stamped]

theorem Goal.shape_stamped (g : Goal) :
    Shape.Stamped (domainShape d) (domainShape d') (g.stamp d).shape (g.stamp d').shape := by
  cases g <;> simp (disch := decide) [Goal.stamp, Goal.shape, Question.shape_stamped]

theorem Move.shape_stamped (m : Move) :
    Shape.Stamped (domainShape d) (domainShape d') (m.stamp d).shape (m.stamp d').shape := by
  cases m <;> simp (disch := decide) [Move.stamp, Move.shape, Shape.list,
    Question.shape_stamped, Proposition.shapes_stamped, Object.shape_stamped]

theorem IcmContent.shape_stamped (c : IcmContent) :
    Shape.Stamped (domainShape d) (domainShape d') (c.stamp d).shape (c.stamp d').shape := by
  cases c <;> simp (disch := decide) [IcmContent.stamp, IcmContent.shape, Object.shape_stamped]

theorem Icm.shape_stamped (m : Icm) :
    Shape.Stamped (domainShape d) (domainShape d') (m.stamp d).shape (m.stamp d').shape := by
  cases m
  simp (disch := first | decide | simp) [Icm.stamp, Icm.shape, IcmContent.shape_stamped]

theorem PlanItem.shape_stamped (i : PlanItem) :
    Shape.Stamped (domainShape d) (domainShape d') (i.stamp d).shape (i.stamp d').shape := by
  cases i with
  | findout domain q => exact .raising (by decide) (Question.shape_stamped q)
  | raise domain q => exact .raising (by decide) (Question.shape_stamped q)
  | _ => simp (disch := decide) [PlanItem.stamp, PlanItem.shape, Shape.list,
      Question.shape_stamped, Goal.shape_stamped, Proposition.shape_stamped,
      Object.shape_stamped, Object.shapes_stamped]

theorem Object.shape_stamped (o : Object) :
    Shape.Stamped (domainShape d) (domainShape d') (o.stamp d).shape (o.stamp d').shape := by
  cases o <;> simp (disch := first | decide | simp) [Object.stamp, Object.shape, Shape.list,
    Move.shape_stamped, Icm.shape_stamped, Proposition.shape_stamped, Question.shape_stamped,
    PlanItem.shape_stamped, Goal.shape_stamped, Lambda.shape_stamped, Object.shapes_stamped]

theorem Object.shapes_stamped (os : List Object) :
    List.Forall₂ (Shape.Stamped (domainShape d) (domainShape d'))
      (Object.shapes (Object.stampAll d os)) (Object.shapes (Object.stampAll d' os)) := by
  cases os <;> simp [Object.stampAll, Object.shapes, Object.shape_stamped, Object.shapes_stamped]

end

variable {d d'}

theorem Proposition.beq_stamp (p q : Proposition) :
    (p.stamp d == q.stamp d) = (p.stamp d' == q.stamp d') :=
  Bool.eq_iff_iff.mpr ((p.shape_stamped d d').same_iff (q.shape_stamped d d'))

theorem Object.beq_stamp (o u : Object) : (o.stamp d == u.stamp d) = (o.stamp d' == u.stamp d') :=
  Bool.eq_iff_iff.mpr ((o.shape_stamped d d').same_iff (u.shape_stamped d d'))

theorem Proposition.stampAll_eq_map (ps : List Proposition) :
    Proposition.stampAll d ps = ps.map (·.stamp d) := by
  induction ps with
  | nil => rw [Proposition.stampAll, List.map_nil]
  | cons p ps ih => rw [Proposition.stampAll, List.map_cons, ih]

theorem Object.stampAll_eq_map (os : List Object) :
    Object.stampAll d os = os.map (·.stamp d) := by
  induction os with
  | nil => rw [Object.stampAll, List.map_nil]
  | cons o os ih => rw [Object.stampAll, List.map_cons, ih]

/-- The distinct items of two images of one list stand at the same places, if the same items have
equal images in both. -/
theorem Collection.exists_ofList_map {α β : Type} [BEq β] {f g : α → β}
    (h : ∀ u v, (f u == f v) = (g u == g v)) (us : List α) :
    ∃ vs : List α, ofList (us.map f) = vs.map f ∧ ofList (us.map g) = vs.map g := by
  have hrun : ∀ (us vs : List α), ∃ ws : List α,
      (us.map f).foldl insert (vs.map f) = ws.map f ∧
        (us.map g).foldl insert (vs.map g) = ws.map g := by
    intro us
    induction us with
    | nil => exact fun vs => ⟨vs, rfl, rfl⟩
    | cons u us ih =>
      intro vs
      have hany : (vs.map f).any (· == f u) = (vs.map g).any (· == g u) := by
        simp [List.any_map, Function.comp_def, h]
      simp only [List.map_cons, List.foldl_cons, insert, hany]
      split
      · exact ih vs
      · simpa using ih (vs ++ [u])
  exact hrun us []

/-- One value with two domains. -/
def Restamped {α : Type} (stamp : Option Text → α → α) (d d' : Option Text) (a a' : α) : Prop :=
  ∃ u, a = stamp d u ∧ a' = stamp d' u

namespace Restamped

variable {α β : Type} {stamp : Option Text → α → α} {stamp' : Option Text → β → β}

/-- A construct that keeps the stamps of its part keeps the two domains. -/
theorem map {a a' : α} (h : Restamped stamp d d' a a') (f : α → β)
    (hf : ∀ domain u, stamp' domain (f u) = f (stamp domain u)) :
    Restamped stamp' d d' (f a) (f a') := by
  obtain ⟨u, rfl, rfl⟩ := h
  exact ⟨f u, (hf d u).symm, (hf d' u).symm⟩

theorem map₂ {γ : Type} {stamp'' : Option Text → γ → γ} {a a' : α} {b b' : β}
    (ha : Restamped stamp d d' a a') (hb : Restamped stamp' d d' b b') (f : α → β → γ)
    (hf : ∀ domain u v, stamp'' domain (f u v) = f (stamp domain u) (stamp' domain v)) :
    Restamped stamp'' d d' (f a b) (f a' b') := by
  obtain ⟨u, rfl, rfl⟩ := ha
  obtain ⟨v, rfl, rfl⟩ := hb
  exact ⟨f u v, (hf d u v).symm, (hf d' u v).symm⟩

theorem eq_stamp {a a' : α} (h : Restamped stamp d d' a a')
    (hs : ∀ u, stamp d' (stamp d u) = stamp d' u) : a' = stamp d' a := by
  obtain ⟨u, rfl, rfl⟩ := h
  exact (hs u).symm

theorem forall₂_iff {l l' : List α} :
    List.Forall₂ (Restamped stamp d d') l l' ↔
      ∃ us : List α, l = us.map (stamp d) ∧ l' = us.map (stamp d') := by
  constructor
  · intro h
    induction h with
    | nil => exact ⟨[], rfl, rfl⟩
    | cons h _ ih =>
      obtain ⟨u, rfl, rfl⟩ := h
      obtain ⟨us, rfl, rfl⟩ := ih
      exact ⟨u :: us, rfl, rfl⟩
  · rintro ⟨us, rfl, rfl⟩
    rw [List.forall₂_map_left_iff, List.forall₂_map_right_iff, List.forall₂_same]
    exact fun u _ => ⟨u, rfl, rfl⟩

/-- Which items of a list fall together does not depend on the domain. -/
theorem ofList [BEq α] (hb : ∀ u v, (stamp d u == stamp d v) = (stamp d' u == stamp d' v))
    {l l' : List α} (h : List.Forall₂ (Restamped stamp d d') l l') :
    List.Forall₂ (Restamped stamp d d') (Collection.ofList l) (Collection.ofList l') := by
  obtain ⟨us, rfl, rfl⟩ := forall₂_iff.mp h
  exact forall₂_iff.mpr (Collection.exists_ofList_map hb us)

theorem propositions {ps ps' : List Proposition}
    (h : List.Forall₂ (Restamped Proposition.stamp d d') ps ps') :
    Restamped Proposition.stampAll d d' ps ps' := by
  obtain ⟨us, rfl, rfl⟩ := forall₂_iff.mp h
  exact ⟨us, (Proposition.stampAll_eq_map us).symm, (Proposition.stampAll_eq_map us).symm⟩

theorem objects {os os' : List Object} (h : List.Forall₂ (Restamped Object.stamp d d') os os') :
    Restamped Object.stampAll d d' os os' := by
  obtain ⟨us, rfl, rfl⟩ := forall₂_iff.mp h
  exact ⟨us, (Object.stampAll_eq_map us).symm, (Object.stampAll_eq_map us).symm⟩

end Restamped

end Parley
