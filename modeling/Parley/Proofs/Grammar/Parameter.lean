import Parley.Grammar.Parameter
import Parley.Proofs.Reading.Meaning

/-! # Kinds of parameters

The key of a parameter fixes the kind of its value: a grammar ends with values of one
kind, whatever the text is and whatever nested texts denote.
-/

namespace Parley

inductive ParameterKind
  | text
  | boolean
  | integer
  | graphicalType
  | source
  | sortOrder
  | alternatives
  | question
  | questions
  | predicates
deriving DecidableEq

def ParameterValue.kind : ParameterValue → ParameterKind
  | text _ => .text
  | boolean _ => .boolean
  | integer _ => .integer
  | graphicalType _ => .graphicalType
  | source _ => .source
  | sortOrder _ => .sortOrder
  | alternatives _ _ => .alternatives
  | question _ => .question
  | questions _ => .questions
  | predicates _ => .predicates

/-- The keys of parameters and the kinds of their values. -/
def parameterKinds : Table Text ParameterKind :=
  [("graphical_type", .graphicalType), ("source", .source), ("incremental", .boolean),
    ("verbalize", .boolean), ("allow_goal_accommodation", .boolean), ("always_ground", .boolean),
    ("alts", .alternatives), ("service_query", .question), ("default", .question),
    ("device", .text), ("format", .text), ("label_questions", .questions),
    ("related_information", .questions), ("background", .predicates),
    ("ask_features", .predicates), ("sort_order", .sortOrder), ("max_spoken_alts", .integer),
    ("max_reported_hit_count", .integer)]

theorem Table.get?_of_forall₂ {κ α β : Type} [DecidableEq κ] {R : α → β → Prop}
    {table : Table κ α} {table' : Table κ β} {key : κ} {a : α}
    (h : List.Forall₂ (fun entry entry' => entry.1 = entry'.1 ∧ R entry.2 entry'.2) table table')
    (ha : table.get? key = some a) : ∃ b, table'.get? key = some b ∧ R a b := by
  induction h with
  | nil => cases ha
  | @cons entry entry' table table' hentry _ ih =>
    obtain ⟨k, v⟩ := entry
    obtain ⟨k', v'⟩ := entry'
    obtain ⟨rfl, hr⟩ : k = k' ∧ R v v' := hentry
    rw [get?] at ha ⊢
    split at ha
    · rename_i hk
      obtain rfl := Option.some.inj ha
      exact ⟨v', if_pos hk, hr⟩
    · rename_i hk
      rw [if_neg hk]
      exact ih ha

namespace Grammar

open Reading

def ValueGrammar.HasKind (grammar : ValueGrammar) (kind : ParameterKind) : Prop :=
  ∀ s text, (grammar s text).Meets {} fun v => v.kind = kind

theorem meets_of_forall {α : Type} {P : α → Prop} (r : Reading α) (h : ∀ a, P a) :
    r.Meets {} P :=
  (Meets.const r trivial).mono fun a _ => h a

theorem graphicalType_hasKind : ValueGrammar.HasKind graphicalType .graphicalType :=
  fun _ _ => .ite (fun _ => rfl) fun _ => .ite (fun _ => rfl) fun _ => trivial

theorem questionSource_hasKind : ValueGrammar.HasKind questionSource .source :=
  fun _ _ => .ite (fun _ => rfl) fun _ => .ite (fun _ => rfl) fun _ => trivial

theorem sortOrder_hasKind : ValueGrammar.HasKind sortOrder .sortOrder :=
  fun _ _ => .ite (fun _ => rfl) fun _ => trivial

theorem truthValue_hasKind : ValueGrammar.HasKind truthValue .boolean :=
  fun _ _ => meets_map.mpr (meets_of_forall _ fun _ => rfl)

theorem naturalNumber_hasKind : ValueGrammar.HasKind naturalNumber .integer :=
  fun _ _ => meets_map.mpr (meets_of_forall _ fun _ => rfl)

theorem plainText_hasKind : ValueGrammar.HasKind plainText .text :=
  fun _ _ => rfl

theorem alternatives_hasKind : ValueGrammar.HasKind alternatives .alternatives :=
  fun _ _ => meets_bind.mpr (meets_of_forall _ fun _ => rfl)

theorem singleQuestion_hasKind : ValueGrammar.HasKind singleQuestion .question :=
  fun _ _ => meets_map.mpr (meets_of_forall _ fun _ => rfl)

theorem questionList_hasKind : ValueGrammar.HasKind questionList .questions :=
  fun _ _ => .option fun _ _ => meets_bind.mpr (meets_of_forall _ fun _ => rfl)

theorem predicateList_hasKind : ValueGrammar.HasKind predicateList .predicates :=
  fun _ _ => .option fun _ _ => meets_bind.mpr (meets_of_forall _ fun _ => rfl)

/-- The grammar of each key has values of the kind that the key has. -/
theorem valueGrammars_hasKind : List.Forall₂
    (fun (entry : Text × ValueGrammar) (entry' : Text × ParameterKind) =>
      entry.1 = entry'.1 ∧ entry.2.HasKind entry'.2) valueGrammars parameterKinds := by
  simp only [valueGrammars, parameterKinds, List.forall₂_cons, List.forall₂_nil_left_iff,
    and_true, graphicalType_hasKind, questionSource_hasKind, truthValue_hasKind,
    alternatives_hasKind, singleQuestion_hasKind, plainText_hasKind, questionList_hasKind,
    predicateList_hasKind, sortOrder_hasKind, naturalNumber_hasKind]

end Grammar

end Parley
