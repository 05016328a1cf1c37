import Mathlib.Data.List.Forall2
import Parley.Engine
import Parley.Proofs.Reading.Contract

/-! # Meanings of readings

A meaning answers the questions of readings without a cache: every text has its
object or its error once and for all. A reading that keeps to a contract ends as
the contract says, and it depends only on the answers for the texts it may ask for.
-/

namespace Parley

/-- The answers for nested texts where nothing is remembered. -/
structure Meaning where
  object : Text → Except GrammarError Object
  proposition : Text → Outcome Proposition
  probe : Text → Option Object

/-- Two meanings answer alike for a text. -/
structure Meaning.AgreesAt (m m' : Meaning) (t : Text) : Prop where
  object : m.object t = m'.object t
  proposition : m.proposition t = m'.proposition t
  probe : m.probe t = m'.probe t

/-- The answers for texts that a contract allows to ask for are as it grants them. -/
structure Contract.Grants (c : Contract) (m : Meaning) : Prop where
  object : ∀ t o, c.ask t → m.object t = .ok o → c.object t o
  proposition : ∀ t p, c.ask t → m.proposition t = .value p → c.proposition t p
  probe : ∀ t o, c.ask t → m.probe t = some o → c.object t o

/-- The errors for nested texts have causes of the contract. -/
structure Contract.Explains (c : Contract) (m : Meaning) : Prop where
  object : ∀ t err, m.object t = .error err → c.cause err.cause
  proposition : ∀ t err, m.proposition t = .error err → c.cause err.cause

theorem Contract.Grants.default (m : Meaning) : Contract.Grants {} m :=
  ⟨fun _ _ _ _ => trivial, fun _ _ _ _ => trivial, fun _ _ _ _ => trivial⟩

namespace Reading

variable {α β : Type} {m m' : Meaning} {r : Reading α}

def denote (m : Meaning) : Reading α → Outcome α
  | done a => .value a
  | declined => .declined
  | failed cause => .error { cause }
  | object t k =>
    match m.object t with
    | .ok o => (k o).denote m
    | .error e => .error e
  | proposition t k =>
    match m.proposition t with
    | .value p => (k (some p)).denote m
    | .declined => (k none).denote m
    | .error e => .error e
  | probe t k => (k (m.probe t)).denote m

theorem denote_done (a : α) : (done a).denote m = .value a := rfl

theorem denote_object (t : Text) (k : Object → Reading α) :
    (object t k).denote m =
      match m.object t with
      | .ok o => (k o).denote m
      | .error e => .error e := by
  rw [denote]

theorem denote_proposition (t : Text) (k : Option Proposition → Reading α) :
    (proposition t k).denote m =
      match m.proposition t with
      | .value p => (k (some p)).denote m
      | .declined => (k none).denote m
      | .error e => .error e := by
  rw [denote]

theorem denote_probe (t : Text) (k : Option Object → Reading α) :
    (probe t k).denote m = (k (m.probe t)).denote m := rfl

theorem denote_bind (r : Reading α) (f : α → Reading β) :
    (r >>= f).denote m =
      match r.denote m with
      | .value a => (f a).denote m
      | .declined => .declined
      | .error e => .error e := by
  change (r.bind f).denote m = _
  induction r with
  | done | declined | failed => rfl
  | object t k ih =>
    simp only [bind, denote_object]
    cases m.object t with
    | ok o => exact ih o
    | error e => rfl
  | proposition t k ih =>
    simp only [bind, denote_proposition]
    cases m.proposition t with
    | value p => exact ih (some p)
    | declined => exact ih none
    | error e => rfl
  | probe t k ih => exact ih _

theorem denote_orElse (r s : Reading α) :
    (r.orElse s).denote m =
      match r.denote m with
      | .declined => s.denote m
      | result => result := by
  induction r with
  | done | declined | failed => rfl
  | object t k ih =>
    simp only [orElse, denote_object]
    cases m.object t with
    | ok o => exact ih o
    | error e => rfl
  | proposition t k ih =>
    simp only [orElse, denote_proposition]
    cases m.proposition t with
    | value p => exact ih (some p)
    | declined => exact ih none
    | error e => rfl
  | probe t k ih => exact ih _

theorem denote_map (f : α → β) (r : Reading α) :
    (f <$> r).denote m =
      match r.denote m with
      | .value a => .value (f a)
      | .declined => .declined
      | .error e => .error e := by
  rw [map_eq_pure_bind, denote_bind]
  rfl

theorem denote_map_eq_value_iff {f : α → β} {b : β} :
    (f <$> r).denote m = .value b ↔ ∃ a, r.denote m = .value a ∧ f a = b := by
  rw [denote_map]
  cases r.denote m <;> simp

theorem denote_map_eq_declined_iff {f : α → β} :
    (f <$> r).denote m = .declined ↔ r.denote m = .declined := by
  rw [denote_map]
  cases r.denote m <;> simp

theorem denote_bind_eq_value_iff {f : α → Reading β} {b : β} :
    (r >>= f).denote m = .value b ↔ ∃ a, r.denote m = .value a ∧ (f a).denote m = .value b := by
  rw [denote_bind]
  cases r.denote m <;> simp

theorem denote_ofOption_eq_value_iff {x : Option α} {a : α} :
    (ofOption x).denote m = .value a ↔ x = some a := by
  cases x <;> simp [ofOption, denote]

theorem denote_readObject_eq_value_iff {t : Text} {o : Object} :
    (readObject t).denote m = .value o ↔ m.object t = .ok o := by
  rw [readObject, denote_object]
  cases m.object t <;> simp [denote]

theorem denote_readProposition (t : Text) : (readProposition t).denote m = m.proposition t := by
  rw [readProposition, denote_proposition]
  cases m.proposition t <;> rfl

theorem denote_each_eq_value_iff {read : Text → Reading α} {texts : List Text} {values : List α} :
    (each read texts).denote m = .value values ↔
      List.Forall₂ (fun t a => (read t).denote m = .value a) texts values := by
  induction texts generalizing values with
  | nil => simp [each_nil, denote_done, eq_comm]
  | cons t texts ih =>
    simp only [each_cons, denote_bind_eq_value_iff, ih, List.forall₂_cons_left_iff]
    constructor
    · rintro ⟨a, ha, rest, hrest, ⟨⟩⟩
      exact ⟨a, rest, ha, hrest, rfl⟩
    · rintro ⟨a, rest, ha, hrest, rfl⟩
      exact ⟨a, ha, rest, hrest, rfl⟩

theorem denote_each {texts : List Text} {objects : List Object}
    (h : List.Forall₂ (fun t o => m.object t = .ok o) texts objects) :
    (each readObject texts).denote m = .value objects := by
  simpa only [denote_each_eq_value_iff, denote_readObject_eq_value_iff] using h

theorem length_of_denote_each {texts : List Text} {objects : List Object}
    (h : (each readObject texts).denote m = .value objects) : objects.length = texts.length :=
  (denote_each_eq_value_iff.mp h).length_eq.symm

theorem denote_each_error {before after : List Text} {text : Text} {e : GrammarError}
    (hb : ∀ t ∈ before, ∃ o, m.object t = .ok o) (he : m.object text = .error e) :
    (each readObject (before ++ text :: after)).denote m = .error e := by
  induction before with
  | nil =>
    rw [List.nil_append, each_cons]
    simp only [denote_bind, readObject, denote_object, he]
  | cons t before ih =>
    rw [List.forall_mem_cons] at hb
    obtain ⟨o, ho⟩ := hb.1
    rw [List.cons_append, each_cons]
    simp only [denote_bind, readObject, denote_object, denote_done, ho, ih hb.2]

/-- A reading depends only on the answers for texts that it may ask for. -/
theorem Meets.denote_congr {ask : Text → Prop} {P : α → Prop} (h : r.Meets { ask := ask } P)
    (hm : ∀ t, ask t → m.AgreesAt m' t) : r.denote m = r.denote m' := by
  induction r with
  | done | declined | failed => rfl
  | object t k ih =>
    simp only [denote_object, (hm t h.1).object]
    cases m'.object t with
    | ok o => exact ih o (h.2 o trivial)
    | error e => rfl
  | proposition t k ih =>
    simp only [denote_proposition, (hm t h.1).proposition]
    cases m'.proposition t with
    | value p => exact ih (some p) (h.2.2 p trivial)
    | declined => exact ih none h.2.1
    | error e => rfl
  | probe t k ih =>
    simp only [denote_probe, (hm t h.1).probe]
    cases m'.probe t with
    | none => exact ih none h.2.1
    | some o => exact ih (some o) (h.2.2 o trivial)

variable {c : Contract} {P : α → Prop}

theorem Meets.value (h : r.Meets c P) (hm : c.Grants m) {a : α}
    (ha : r.denote m = .value a) : P a := by
  induction r with
  | done b =>
    obtain rfl := Outcome.value.inj ha
    exact h
  | declined => cases ha
  | failed cause => cases ha
  | object t k ih =>
    simp only [denote_object] at ha
    cases ht : m.object t with
    | ok o => exact ih o (h.2 o (hm.object t o h.1 ht)) (by rwa [ht] at ha)
    | error e => rw [ht] at ha; cases ha
  | proposition t k ih =>
    simp only [denote_proposition] at ha
    cases ht : m.proposition t with
    | value p => exact ih _ (h.2.2 p (hm.proposition t p h.1 ht)) (by rwa [ht] at ha)
    | declined => exact ih _ h.2.1 (by rwa [ht] at ha)
    | error e => rw [ht] at ha; cases ha
  | probe t k ih =>
    simp only [denote_probe] at ha
    cases ht : m.probe t with
    | none => exact ih _ h.2.1 (by rwa [ht] at ha)
    | some o => exact ih _ (h.2.2 o (hm.probe t o h.1 ht)) (by rwa [ht] at ha)

/-- An error is new, with a cause of the contract, or it is the error of a nested text. -/
theorem Meets.error (h : r.Meets c P) (hm : c.Grants m) {e : GrammarError}
    (he : r.denote m = .error e) :
    (c.cause e.cause ∧ e.trail = []) ∨
      ∃ t, c.ask t ∧ (m.object t = .error e ∨ m.proposition t = .error e) := by
  induction r with
  | done b => cases he
  | declined => cases he
  | failed cause =>
    obtain rfl := Outcome.error.inj he
    exact .inl ⟨h, rfl⟩
  | object t k ih =>
    simp only [denote_object] at he
    cases ht : m.object t with
    | ok o => exact ih o (h.2 o (hm.object t o h.1 ht)) (by rwa [ht] at he)
    | error e' =>
      rw [ht] at he
      obtain rfl := Outcome.error.inj he
      exact .inr ⟨t, h.1, .inl ht⟩
  | proposition t k ih =>
    simp only [denote_proposition] at he
    cases ht : m.proposition t with
    | value p => exact ih _ (h.2.2 p (hm.proposition t p h.1 ht)) (by rwa [ht] at he)
    | declined => exact ih _ h.2.1 (by rwa [ht] at he)
    | error e' =>
      rw [ht] at he
      obtain rfl := Outcome.error.inj he
      exact .inr ⟨t, h.1, .inr ht⟩
  | probe t k ih =>
    simp only [denote_probe] at he
    cases ht : m.probe t with
    | none => exact ih _ h.2.1 (by rwa [ht] at he)
    | some o => exact ih _ (h.2.2 o (hm.probe t o h.1 ht)) (by rwa [ht] at he)

theorem Meets.cause (h : r.Meets c P) (hm : c.Grants m) (hc : c.Explains m) {e : GrammarError}
    (he : r.denote m = .error e) : c.cause e.cause := by
  rcases h.error hm he with ⟨hnew, -⟩ | ⟨t, -, ho | hp⟩
  · exact hnew
  · exact hc.object t e ho
  · exact hc.proposition t e hp

end Reading

end Parley
