import Parley.Parser
import Parley.Proofs.Grammar.Order

/-! # Parsers with the rules in another order

An engine knows its rules only through the reading of the first that does not decline.
A parser that tries the rules for moves and plan items in another order therefore reads
every text alike, and it remembers and counts the same on the way.
-/

namespace Parley

namespace Engine

variable {e : Engine} {rules : List Rule}

theorem nested_rules (h : Rule.firstOf rules = Rule.firstOf e.rules) (depth : Nat) :
    ({ e with rules := rules } : Engine).nested depth = e.nested depth := by
  have hdispatch : ({ e with rules := rules } : Engine).dispatch = e.dispatch := by
    funext nested text cache
    simp only [dispatch, h]
  have hwithin : ({ e with rules := rules } : Engine).dispatchWithin = e.dispatchWithin := by
    funext nested text cache
    simp only [dispatchWithin, hdispatch]
  have hobject : ({ e with rules := rules } : Engine).objectWith = e.objectWith := by
    funext nested text cache
    simp only [objectWith, hwithin]
  induction depth with
  | zero => rfl
  | succ depth ih => simp only [nested, ih, hdispatch, hobject]

theorem parse_rules (h : Rule.firstOf rules = Rule.firstOf e.rules) :
    ({ e with rules := rules } : Engine).parse = e.parse := by
  funext text cache
  rw [parse, nested_rules h]
  rfl

end Engine

namespace Parser

/-- The engine of a parser, with the rules for moves and plan items replaced by others. -/
def engineTrying (p : Parser) (order : List Rule) : Engine :=
  { p.engine with rules := order ++ (Grammar.propositionRules ++ Grammar.valueRules) }

/-- Whatever the ontology, the configuration and the cache are, at most one rule for moves and plan
items takes part in reading a text. Tried in any other order they give the same object or error,
and they leave the same cache behind. -/
theorem parse_any_order (p : Parser) :
    (∀ text, (Grammar.moveRules ++ Grammar.planRules).Pairwise fun rule rule' =>
      rule.Passes p.setting text ∨ rule'.Passes p.setting text) ∧
    ∀ order, order.Perm (Grammar.moveRules ++ Grammar.planRules) → ∀ text,
      (p.engineTrying order).parse text p.cache = ((p.parse text).1, (p.parse text).2.cache) := by
  constructor
  · intro text
    refine Grammar.moveRules_planRules_exclusive.imp fun {rule rule'} h => ?_
    exact (h p.setting text).imp Rule.passes_of_eq_declined Rule.passes_of_eq_declined
  · intro order horder text
    rw [engineTrying, Engine.parse_rules (Grammar.firstOf_rules_of_perm horder)]
    rfl

/-- The rule for decorated moves declines a sequence after it has read a member of it, and the
other rules find the cache as it left it, also where they are tried before it. -/
theorem parse_any_order_reversed :
    let p : Parser := ⟨{ name := "travel" }, {}, {}⟩
    let order := (Grammar.moveRules ++ Grammar.planRules).reverse
    (p.engineTrying order).parse "Move([yes])" p.cache =
      (.error (.through (.noRuleMatched "Ontology(travel)") ["Move([yes])"]),
        { entries := [(.of "yes", .yes)], misses := 2 }) := by
  intro p order
  have h := (parse_any_order p).2 order (List.reverse_perm _) "Move([yes])"
  exact h.trans rfl

end Parser

end Parley
