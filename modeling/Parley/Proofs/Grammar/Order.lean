import Mathlib.Data.List.Nodup
import Parley.Engine
import Parley.Proofs.Grammar.Opening

/-! # The order of the rules

No two rules for moves and plan items read texts that open in the same way, so at most
one of them takes part in reading a text. Among themselves they may be tried in any
order, and a text that one of them does not decline is decided by that rule.
-/

namespace Parley

namespace Rule

variable {rule : Rule} {s : Setting} {text : Text}

/-- The rule declines the text and leaves the cache as it is, whatever nested texts would give. -/
def Passes (rule : Rule) (s : Setting) (text : Text) : Prop :=
  ∀ nested cache, (rule s text).run nested cache = (.declined, cache)

/-- The rules before the rule pass, and the rule itself does not decline. -/
def Decides (rules : List Rule) (rule : Rule) (s : Setting) (text : Text) : Prop :=
  ∃ before after, rules = before ++ rule :: after ∧ (∀ r ∈ before, r.Passes s text) ∧
    ∀ nested cache, ((rule s text).run nested cache).1 ≠ .declined

theorem passes_of_eq_declined (h : rule s text = .declined) : rule.Passes s text := by
  intro nested cache
  rw [h]
  rfl

end Rule

namespace Reading

variable {α : Type} {rs rs' : List (Reading α)}

theorem firstOf_append (rs rs' : List (Reading α)) :
    firstOf (rs ++ rs') = (firstOf rs).orElse (firstOf rs') := by
  induction rs with
  | nil => rfl
  | cons r rs ih => rw [List.cons_append, firstOf, ih, firstOf, orElse_assoc]

/-- Readings of which at most one does not decline may be tried in any order. -/
theorem firstOf_perm (h : rs.Perm rs')
    (hd : rs.Pairwise fun r r' => r = declined ∨ r' = declined) : firstOf rs = firstOf rs' := by
  induction h with
  | nil => rfl
  | cons r _ ih => rw [firstOf, firstOf, ih (List.pairwise_cons.mp hd).2]
  | swap r r' rs =>
    rcases (List.pairwise_cons.mp hd).1 r List.mem_cons_self with rfl | rfl <;> rfl
  | trans h _ ih ih' =>
    -- Exclusion is symmetric, so it holds in the list between the two as well.
    exact (ih hd).trans (ih' ((h.pairwise_iff Or.symm).mp hd))

end Reading

namespace Grammar

open Reading

variable {s : Setting} {text : Text} {rule : Rule}

/-- Of two rules that read texts with different openings, one declines. -/
theorem exclusive_of_openings {rules : List Rule} {openings : List (List (Text × Option Char))}
    (h : List.Forall₂ (fun rule openings => ReadsOnly (Text.Opens openings) rule) rules openings)
    (hd : openings.flatten.Nodup) :
    rules.Pairwise fun rule rule' =>
      ∀ s text, rule s text = .declined ∨ rule' s text = .declined := by
  induction h with
  | nil => exact .nil
  | @cons rule opens rules openings h hrest ih =>
    rw [List.flatten_cons, List.nodup_append'] at hd
    obtain ⟨-, hnodup, hdisjoint⟩ := hd
    refine .cons (fun rule' hr s text => ?_) (ih hnodup)
    obtain ⟨opens', ho, h'⟩ := exists_openings hrest hr
    by_cases ht : text.Opens opens
    · refine .inr (h' s text fun ht' => ?_)
      exact hdisjoint ht (List.mem_flatten.mpr ⟨opens', ho, ht'⟩)
    · exact .inl (h s text ht)

/-- Where a text opens like those that one rule reads, every other rule declines it. -/
theorem declined_or_eq_of_openings {rules : List Rule}
    {openings : List (List (Text × Option Char))}
    (h : List.Forall₂ (fun rule openings => ReadsOnly (Text.Opens openings) rule) rules openings)
    (hd : openings.flatten.Nodup) {reader : Rule} {opens : List (Text × Option Char)}
    (hreader : (reader, opens) ∈ rules.zip openings) (ht : text.Opens opens)
    (hr : rule ∈ rules) : rule s text = .declined ∨ rule = reader := by
  induction h with
  | nil => cases hr
  | @cons first opens' rules openings h hrest ih =>
    rw [List.flatten_cons, List.nodup_append'] at hd
    obtain ⟨-, hnodup, hdisjoint⟩ := hd
    rw [List.zip_cons_cons, List.mem_cons] at hreader
    rcases hreader with he | hreader
    · obtain ⟨rfl, rfl⟩ := Prod.mk.injEq .. ▸ he
      rcases List.mem_cons.mp hr with rfl | hr
      · exact .inr rfl
      · obtain ⟨others, ho, hother⟩ := exists_openings hrest hr
        exact .inl (hother s text fun hm =>
          hdisjoint ht (List.mem_flatten.mpr ⟨others, ho, hm⟩))
    · rcases List.mem_cons.mp hr with rfl | hr
      · have hmem : opens ∈ openings := (List.of_mem_zip hreader).2
        exact .inl (h s text fun hm => hdisjoint hm (List.mem_flatten.mpr ⟨opens, hmem, ht⟩))
      · exact ih hnodup hreader hr

theorem nodup_openings : (moveOpenings ++ planOpenings).flatten.Nodup := by
  decide

theorem moveRules_planRules_exclusive :
    (moveRules ++ planRules).Pairwise fun rule rule' =>
      ∀ s text, rule s text = .declined ∨ rule' s text = .declined :=
  exclusive_of_openings (List.rel_append moveRules_readsOnly planRules_readsOnly) nodup_openings

theorem declined_or_eq {reader : Rule} {opens : List (Text × Option Char)}
    (hreader : (reader, opens) ∈ (moveRules ++ planRules).zip (moveOpenings ++ planOpenings))
    (ht : text.Opens opens) (hr : rule ∈ moveRules ++ planRules) :
    rule s text = .declined ∨ rule = reader :=
  declined_or_eq_of_openings (List.rel_append moveRules_readsOnly planRules_readsOnly)
    nodup_openings hreader ht hr

/-- Among themselves the rules for moves and plan items may be tried in any order. -/
theorem firstOf_rules_of_perm {order : List Rule} (h : order.Perm (moveRules ++ planRules)) :
    Rule.firstOf (order ++ (propositionRules ++ valueRules)) = Rule.firstOf rules := by
  funext s text
  have hrules : rules = (moveRules ++ planRules) ++ (propositionRules ++ valueRules) := rfl
  have hperm := h.symm.map fun rule => rule s text
  have hdeclined : ((moveRules ++ planRules).map fun rule => rule s text).Pairwise
      fun r r' => r = .declined ∨ r' = .declined :=
    List.pairwise_map.mpr (moveRules_planRules_exclusive.imp fun h => h s text)
  rw [Rule.firstOf, Rule.firstOf, hrules, List.map_append, firstOf_append,
    ← firstOf_perm hperm hdeclined, ← firstOf_append, ← List.map_append]

/-- A rule for moves or plan items that does not decline a text comes after rules that do. -/
theorem exists_before_of_ne_declined (hr : rule ∈ moveRules ++ planRules)
    (h : rule s text ≠ .declined) :
    ∃ before after, rules = before ++ rule :: after ∧ ∀ r ∈ before, r s text = .declined := by
  obtain ⟨before, after, he⟩ := List.append_of_mem hr
  have hexclusive := moveRules_planRules_exclusive
  rw [he, List.pairwise_append] at hexclusive
  refine ⟨before, after ++ (propositionRules ++ valueRules), ?_, fun r hb => ?_⟩
  · change (moveRules ++ planRules) ++ (propositionRules ++ valueRules) = _
    rw [he, List.append_assoc, List.cons_append]
  · exact (hexclusive.2.2 r hb rule List.mem_cons_self s text).resolve_right h

theorem firstOf_rules_of_ne_declined (hr : rule ∈ moveRules ++ planRules)
    (h : rule s text ≠ .declined) :
    ∃ r, Rule.firstOf rules s text = (rule s text).orElse r := by
  obtain ⟨before, after, he, hb⟩ := exists_before_of_ne_declined hr h
  exact ⟨Rule.firstOf after s text, he ▸ Rule.firstOf_append_cons hb⟩

end Grammar

end Parley
