import Parley.Digest
import Parley.Object.Basic

/-! # Shapes

A shape is a labelled tree whose parts are ordered, except in a collection. Two
shapes are the same when they differ only in the order and the repetition of the
items of collections, at any depth. The hash of a shape is computed from tokens
that agree for shapes that are the same: a collection gives the number of its
distinct items and the sum of their digests.
-/

namespace Parley

inductive Atom
  | text (text : Text)
  | number (n : Int)
  | real (x : Binary64)
  | flag (b : Bool)
deriving DecidableEq

/-- A labelled tree with ordered parts and unordered collections. -/
inductive Shape
  | leaf (atom : Atom)
  | node (label : Text) (parts : List Shape)
  | collection (items : List Shape)

namespace Shape

/-- Which columns of a table with rows of length `n` hold a mark. -/
def columns (n : Nat) (rows : List (List Bool)) : List Bool :=
  rows.foldr (List.zipWith (· || ·)) (List.replicate n false)

mutual

/-- The same tree up to the order and repetition of items in collections. Each item of one
collection is compared once with each item of the other: every row and every column of the
comparisons must hold a mark. -/
def same : Shape → Shape → Bool
  | leaf a, leaf b => a == b
  | node l ps, node m qs => l == m && sameParts ps qs
  | collection xs, collection ys =>
    match comparisons xs ys with
    | rows => rows.all (·.any id) && (columns ys.length rows).all id
  | _, _ => false

def sameParts : List Shape → List Shape → Bool
  | [], [] => true
  | p :: ps, q :: qs => same p q && sameParts ps qs
  | _, _ => false

def comparisons : List Shape → List Shape → List (List Bool)
  | [], _ => []
  | x :: xs, ys => ys.map (same x) :: comparisons xs ys

end

theorem comparisons_eq_map (xs ys : List Shape) :
    comparisons xs ys = xs.map fun x => ys.map (same x) := by
  induction xs with
  | nil => rw [comparisons, List.map_nil]
  | cons x xs ih => rw [comparisons, List.map_cons, ih]

theorem columns_comparisons (xs ys : List Shape) :
    columns ys.length (comparisons xs ys) = ys.map fun y => xs.any fun x => same x y := by
  rw [comparisons_eq_map]
  induction xs with
  | nil => simp [columns, List.map_const']
  | cons x xs ih =>
    rw [columns] at ih
    rw [List.map_cons, columns, List.foldr_cons, ih]
    simp [List.zipWith_map]

/-- Collections are the same when each item of either is the same as one of the other. -/
theorem same_collection_iff (xs ys : List Shape) :
    same (collection xs) (collection ys) = true ↔
      (∀ x ∈ xs, ∃ y ∈ ys, same x y) ∧ ∀ y ∈ ys, ∃ x ∈ xs, same x y := by
  rw [same, columns_comparisons, comparisons_eq_map]
  simp

end Shape

namespace Atom

/-- The tokens of a text, which tell where it ends. -/
def textTokens (text : Text) : List Nat :=
  text.length :: text.map Char.toNat

def tokens : Atom → List Nat
  | text t => 0 :: textTokens t
  | number (.ofNat n) => [1, n]
  | number (.negSucc n) => [2, n]
  | real x => [3, x.bits.toNat]
  | flag b => [4, b.toNat]

end Atom

namespace Shape

section Tokens

variable {w : Nat}

mutual

/-- The tokens of a shape, given a digest of lists of tokens to any number of bits. -/
def tokens (digest : List Nat → BitVec w) : Shape → List Nat
  | leaf a => 0 :: a.tokens
  | node l ps => 1 :: Atom.textTokens l ++ partTokens digest ps
  | collection xs =>
    match tally digest xs with
    | (count, sum) => [2, count, sum.toNat]

/-- The tokens of each part, and a mark where they end. -/
def partTokens (digest : List Nat → BitVec w) : List Shape → List Nat
  | [] => [0]
  | p :: ps => 1 :: tokens digest p ++ partTokens digest ps

/-- The number of distinct items and the sum of their digests. -/
def tally (digest : List Nat → BitVec w) : List Shape → Nat × BitVec w
  | [] => (0, 0)
  | x :: xs =>
    match tally digest xs with
    | (count, sum) =>
      if xs.any (same x) then (count, sum) else (count + 1, sum + digest (tokens digest x))

end

end Tokens

def hash (s : Shape) : Digest :=
  .ofList (s.tokens Digest.ofList)

def word (label : Text) : Shape :=
  node label []

def optional (part : Option Shape) : Shape :=
  match part with
  | none => word "none"
  | some p => node "some" [p]

def ofText (text : Text) : Shape :=
  leaf (.text text)

def list (parts : List Shape) : Shape :=
  node "list" parts

end Shape

namespace Polarity

def shape : Polarity → Shape
  | pos => .word "pos"
  | neg => .word "neg"

end Polarity

namespace Speaker

def shape (s : Speaker) : Shape :=
  .word s.token

end Speaker

namespace Sortal

def shape : Sortal → Shape
  | custom name => .node "custom" [.ofText name]
  | sort => .word sort.name

end Sortal

namespace Value

def shape : Value → Shape
  | integer n => .node "integer" [.leaf (.number n)]
  | real x => .node "real" [.leaf (.real x)]
  | string t => .node "string" [.ofText t]
  | personName t => .node "person_name" [.ofText t]
  | dateTime t => .node "datetime" [.ofText t]
  | enumerated t => .node "enumerated" [.ofText t]

end Value

namespace Individual

def shape (i : Individual) : Shape :=
  .node "individual" [.ofText i.ontology, i.value.shape, i.sort.shape, i.polarity.shape]

end Individual

namespace Predicate

def shape (p : Predicate) : Shape :=
  .node "predicate" [.ofText p.ontology, .ofText p.name, p.sort.shape]

end Predicate

namespace Action

def shape (a : Action) : Shape :=
  .node "action" [.ofText a.ontology, .ofText a.name]

end Action

namespace ActionStatus

def shape : ActionStatus → Shape
  | done => .word "done"

end ActionStatus

namespace ServiceOutcome

def shape : ServiceOutcome → Shape
  | successful => .word "successful"
  | failed reason => .node "failed" [.ofText reason]

end ServiceOutcome

namespace Preconfirmation

def shape : Preconfirmation → Shape
  | interrogative => .word "interrogative"
  | assertive => .word "assertive"

end Preconfirmation

namespace ServiceActionOptions

def shape (o : ServiceActionOptions) : Shape :=
  .node "options"
    [.optional (o.preconfirm.map Preconfirmation.shape), .leaf (.flag o.postconfirm),
      .leaf (.flag o.downdatePlan)]

end ServiceActionOptions

namespace Realization

def shape (r : Realization) : Shape :=
  .node "realization"
    [.optional (r.speaker.map Speaker.shape),
      .optional (r.perceptionConfidence.map (.leaf ∘ .real)),
      .optional (r.understandingConfidence.map (.leaf ∘ .real)),
      .optional (r.utterance.map .ofText), .optional (r.dddName.map .ofText)]

end Realization

mutual

def Proposition.shape : Proposition → Shape
  | .predicate p i pol =>
    .node "predicate" [p.shape, .optional (i.map Individual.shape), pol.shape]
  | .goal g pol => .node "goal" [g.shape, pol.shape]
  | .preconfirmation o a ps pol =>
    .node "preconfirmation" [.ofText o, .ofText a, .list (Proposition.shapes ps), pol.shape]
  | .prereport o a ps =>
    .node "prereport" [.ofText o, .ofText a, .collection (Proposition.shapes ps)]
  | .serviceActionStarted o a => .node "service_action_started" [.ofText o, .ofText a]
  | .serviceActionTerminated o a => .node "service_action_terminated" [.ofText o, .ofText a]
  | .serviceResult o a ps r =>
    .node "service_result" [.ofText o, .ofText a, .list (Proposition.shapes ps), r.shape]
  | .rejected c r pol => .node "rejected" [c.shape, .optional (r.map .ofText), pol.shape]
  | .set ps pol => .node "set" [.list (Proposition.shapes ps), pol.shape]
  | .understanding s c pol =>
    .node "understanding" [.optional (s.map Speaker.shape), c.shape, pol.shape]
  | .resolvedness i => .node "resolvedness" [i.shape]
  | .knowledgePrecondition q pol => .node "knowledge_precondition" [q.shape, pol.shape]
  | .actionStatus a s => .node "action_status" [a.shape, s.shape]
  | .implication a c => .node "implication" [a.shape, c.shape]

def Proposition.shapes : List Proposition → List Shape
  | [] => []
  | p :: ps => p.shape :: Proposition.shapes ps

def Lambda.shape : Lambda → Shape
  | .predicate p => .node "predicate" [p.shape]
  | .goal => .word "goal"
  | .implication o a c => .node "implication" [.ofText o, a.shape, c.shape]

def Question.shape : Question → Shape
  | .yesNo p => .node "yes_no" [p.shape]
  | .wh l => .node "wh" [l.shape]
  | .alternative ps pol => .node "alternative" [.list (Proposition.shapes ps), pol.shape]
  | .consequent o a c => .node "consequent" [.ofText o, a.shape, c.shape]
  | .knowledgePrecondition i => .node "knowledge_precondition" [i.shape]

def Goal.shape : Goal → Shape
  | .resolve q s => .node "resolve" [q.shape, s.shape]
  | .perform a => .node "perform" [a.shape]
  | .handle o a => .node "handle" [.ofText o, .ofText a]

def Move.shape : Move → Shape
  | .greet => .word "greet"
  | .mute => .word "mute"
  | .unmute => .word "unmute"
  | .quit => .word "quit"
  | .thankYou => .word "thank_you"
  | .thankYouResponse => .word "thank_you_response"
  | .ask q => .node "ask" [q.shape]
  | .answer o => .node "answer" [o.shape]
  | .report o => .node "report" [o.shape]
  | .prereport o a ps =>
    .node "prereport" [.ofText o, .ofText a, .list (Proposition.shapes ps)]
  | .request a => .node "request" [a.shape]

def IcmContent.shape : IcmContent → Shape
  | .none => .word "none"
  | .issue => .word "issue"
  | .text t => .node "text" [.ofText t]
  | .semantic o => .node "semantic" [o.shape]

def Icm.shape : Icm → Shape
  | .mk kind polarity content speaker =>
    .node "icm" [.word kind.token, .optional (polarity.map (.word ∘ IcmPolarity.token)),
      content.shape, .optional (speaker.map Speaker.shape)]

def PlanItem.shape : PlanItem → Shape
  | .findout d q => .node "findout" [.optional (d.map .ofText), q.shape]
  | .raise d q => .node "raise" [.optional (d.map .ofText), q.shape]
  | .bind q => .node "bind" [q.shape]
  | .respond q => .node "respond" [q.shape]
  | .consultDB q => .node "consult_db" [q.shape]
  | .perform a => .node "perform" [a.shape]
  | .jumpTo g => .node "jump_to" [g.shape]
  | .ifThenElse c xs ys =>
    .node "if_then_else" [c.shape, .list (Object.shapes xs), .list (Object.shapes ys)]
  | .forgetAll => .word "forget_all"
  | .forget o => .node "forget" [o.shape]
  | .forgetIssue o => .node "forget_issue" [o.shape]
  | .assume p => .node "assume" [p.shape]
  | .assumeShared p => .node "assume_shared" [p.shape]
  | .assumeIssue o => .node "assume_issue" [o.shape]
  | .signalActionCompletion => .word "signal_action_completion"
  | .signalActionFailure r => .node "signal_action_failure" [.ofText r]
  | .log m => .node "log" [.ofText m]
  | .invokeServiceQuery o low high =>
    .node "invoke_service_query" [o.shape, .leaf (.number low), .leaf (.number high)]
  | .invokeServiceAction o a options =>
    .node "invoke_service_action" [.ofText o, .ofText a, options.shape]

def Object.shape : Object → Shape
  | .move m r => .node "move" [m.shape, .optional (r.map Realization.shape)]
  | .icm m r => .node "icm" [m.shape, .optional (r.map Realization.shape)]
  | .proposition p => .node "proposition" [p.shape]
  | .question q => .node "question" [q.shape]
  | .planItem i => .node "plan_item" [i.shape]
  | .goal g => .node "goal" [g.shape]
  | .lambda l => .node "lambda" [l.shape]
  | .individual i => i.shape
  | .predicate p => p.shape
  | .action a => a.shape
  | .actionStatus s => .node "action_status" [s.shape]
  | .serviceOutcome o => .node "service_outcome" [o.shape]
  | .set xs => .collection (Object.shapes xs)
  | .sequence xs => .list (Object.shapes xs)
  | .yes => .word "yes"
  | .no => .word "no"
  | .text t => .node "text" [.ofText t]

def Object.shapes : List Object → List Shape
  | [] => []
  | o :: os => o.shape :: Object.shapes os

end

/-! Two things are equal when their shapes are the same. -/

instance : BEq Proposition := ⟨fun p q => p.shape.same q.shape⟩

instance : BEq Lambda := ⟨fun l m => l.shape.same m.shape⟩

instance : BEq Question := ⟨fun q r => q.shape.same r.shape⟩

instance : BEq Goal := ⟨fun g h => g.shape.same h.shape⟩

instance : BEq Move := ⟨fun m n => m.shape.same n.shape⟩

instance : BEq IcmContent := ⟨fun c d => c.shape.same d.shape⟩

instance : BEq Icm := ⟨fun m n => m.shape.same n.shape⟩

instance : BEq PlanItem := ⟨fun i j => i.shape.same j.shape⟩

instance : BEq Object := ⟨fun a b => a.shape.same b.shape⟩

def Object.hash (o : Object) : Digest :=
  o.shape.hash

end Parley
