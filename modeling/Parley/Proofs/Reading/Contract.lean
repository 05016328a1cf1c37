import Parley.Reading

/-! # Contracts of readings

A contract says which nested texts a reading may ask for, what it may rely on in
the answers, and with which causes it may fail. A reading meets a contract with a
postcondition if it keeps to the contract whatever it is told, and every value it
ends with has the postcondition. The rules below follow the steps from which
readings are built, so that a contract of a rule is read off its definition.
-/

namespace Parley

/-- What a reading may ask for, may rely on, and may fail with. -/
structure Contract where
  /-- The nested texts that may be asked for. -/
  ask : Text → Prop := fun _ => True
  /-- What is relied on in the object of a nested text. -/
  object : Text → Object → Prop := fun _ _ => True
  /-- What is relied on in the proposition of a nested text. -/
  proposition : Text → Proposition → Prop := fun _ _ => True
  /-- The causes of failures. -/
  cause : Cause → Prop := fun _ => True

namespace Reading

variable {α β : Type} {c : Contract} {P : α → Prop} {Q : β → Prop}

/-- The reading keeps to the contract, and its values have the postcondition. -/
def Meets (c : Contract) (P : α → Prop) : Reading α → Prop
  | done a => P a
  | declined => True
  | failed cause => c.cause cause
  | object t k => c.ask t ∧ ∀ o, c.object t o → (k o).Meets c P
  | proposition t k =>
    c.ask t ∧ (k none).Meets c P ∧ ∀ p, c.proposition t p → (k (some p)).Meets c P
  | probe t k => c.ask t ∧ (k none).Meets c P ∧ ∀ o, c.object t o → (k (some o)).Meets c P

@[simp] theorem meets_done {a : α} : (done a).Meets c P ↔ P a := Iff.rfl

@[simp] theorem meets_pure {a : α} : (pure a : Reading α).Meets c P ↔ P a := Iff.rfl

@[simp] theorem meets_declined : (declined : Reading α).Meets c P ↔ True := Iff.rfl

@[simp] theorem meets_failed {cause : Cause} :
    (failed cause : Reading α).Meets c P ↔ c.cause cause := Iff.rfl

theorem Meets.mono {P' : α → Prop} {r : Reading α} (h : r.Meets c P) (hp : ∀ a, P a → P' a) :
    r.Meets c P' := by
  induction r with
  | done a => exact hp a h
  | declined => trivial
  | failed cause => exact h
  | object t k ih => exact ⟨h.1, fun o ho => ih o (h.2 o ho)⟩
  | proposition t k ih => exact ⟨h.1, ih none h.2.1, fun p hp => ih (some p) (h.2.2 p hp)⟩
  | probe t k ih => exact ⟨h.1, ih none h.2.1, fun o ho => ih (some o) (h.2.2 o ho)⟩

/-- A contract may be replaced by one that allows more and grants less. -/
theorem Meets.weaken {c' : Contract} {r : Reading α} (h : r.Meets c P)
    (hask : ∀ t, c.ask t → c'.ask t) (hobject : ∀ t o, c.ask t → c'.object t o → c.object t o)
    (hprop : ∀ t p, c.ask t → c'.proposition t p → c.proposition t p)
    (hcause : ∀ cause, c.cause cause → c'.cause cause) : r.Meets c' P := by
  induction r with
  | done a => exact h
  | declined => trivial
  | failed cause => exact hcause cause h
  | object t k ih => exact ⟨hask t h.1, fun o ho => ih o (h.2 o (hobject t o h.1 ho))⟩
  | proposition t k ih =>
    exact ⟨hask t h.1, ih none h.2.1, fun p hp => ih (some p) (h.2.2 p (hprop t p h.1 hp))⟩
  | probe t k ih =>
    exact ⟨hask t h.1, ih none h.2.1, fun o ho => ih (some o) (h.2.2 o (hobject t o h.1 ho))⟩

@[simp] theorem meets_bind {r : Reading α} {f : α → Reading β} :
    (r >>= f).Meets c Q ↔ r.Meets c fun a => (f a).Meets c Q := by
  change (r.bind f).Meets c Q ↔ _
  induction r with
  | done | declined | failed => rfl
  | object t k ih | proposition t k ih | probe t k ih => simp only [bind, Meets, ih]

theorem Meets.bind {r : Reading α} {f : α → Reading β} (h : r.Meets c P)
    (hf : ∀ a, P a → (f a).Meets c Q) : (r >>= f).Meets c Q :=
  meets_bind.mpr (h.mono hf)

@[simp] theorem meets_map {r : Reading α} {f : α → β} :
    (f <$> r).Meets c Q ↔ r.Meets c fun a => Q (f a) := by
  rw [map_eq_pure_bind, meets_bind]
  rfl

theorem Meets.map {r : Reading α} {f : α → β} (h : r.Meets c fun a => Q (f a)) :
    (f <$> r).Meets c Q :=
  meets_map.mpr h

theorem Meets.orElse {r s : Reading α} (hr : r.Meets c P) (hs : s.Meets c P) :
    (r.orElse s).Meets c P := by
  induction r with
  | done | failed => exact hr
  | declined => exact hs
  | object t k ih => exact ⟨hr.1, fun o ho => ih o (hr.2 o ho)⟩
  | proposition t k ih => exact ⟨hr.1, ih none hr.2.1, fun p hp => ih (some p) (hr.2.2 p hp)⟩
  | probe t k ih => exact ⟨hr.1, ih none hr.2.1, fun o ho => ih (some o) (hr.2.2 o ho)⟩

theorem Meets.firstOf {rs : List (Reading α)} (h : ∀ r ∈ rs, r.Meets c P) :
    (firstOf rs).Meets c P := by
  induction rs with
  | nil => trivial
  | cons r rs ih =>
    exact (h r List.mem_cons_self).orElse (ih fun s hs => h s (List.mem_cons_of_mem r hs))

@[simp] theorem meets_ofOption {x : Option α} :
    (ofOption x).Meets c P ↔ ∀ a, x = some a → P a := by
  cases x <;> simp [ofOption]

@[simp] theorem meets_guard {b : Bool} {P : Unit → Prop} :
    (guard b).Meets c P ↔ (b = true → P ()) := by
  cases b <;> simp [guard]

theorem Meets.option {x : Option α} {f : α → Reading β}
    (hf : ∀ a, x = some a → (f a).Meets c Q) : (ofOption x >>= f).Meets c Q :=
  meets_bind.mpr (meets_ofOption.mpr hf)

theorem Meets.guarded {b : Bool} {f : Unit → Reading β} (hf : b = true → (f ()).Meets c Q) :
    (guard b >>= f).Meets c Q :=
  meets_bind.mpr (meets_guard.mpr hf)

theorem Meets.ite {p : Prop} [Decidable p] {r s : Reading α} (hr : p → r.Meets c P)
    (hs : ¬ p → s.Meets c P) : (if p then r else s).Meets c P := by
  split <;> rename_i h
  · exact hr h
  · exact hs h

@[simp] theorem meets_ofExcept {x : Except Cause α} :
    (ofExcept x).Meets c P ↔ (∀ a, x = .ok a → P a) ∧ ∀ e, x = .error e → c.cause e := by
  cases x <;> simp [ofExcept]

@[simp] theorem meets_ofOntology {x : Except OntologyError α} :
    (ofOntology x).Meets c P ↔
      (∀ a, x = .ok a → P a) ∧ ∀ e, x = .error e → c.cause (.ontology e) := by
  cases x <;> simp [ofOntology]

@[simp] theorem meets_readObject {t : Text} {P : Object → Prop} :
    (readObject t).Meets c P ↔ c.ask t ∧ ∀ o, c.object t o → P o := Iff.rfl

@[simp] theorem meets_readProposition {t : Text} {P : Proposition → Prop} :
    (readProposition t).Meets c P ↔ c.ask t ∧ ∀ p, c.proposition t p → P p := by
  simp [readProposition, Meets]

theorem Meets.object {t : Text} {f : Object → Reading β} (ht : c.ask t)
    (hf : ∀ o, c.object t o → (f o).Meets c Q) : (readObject t >>= f).Meets c Q :=
  meets_bind.mpr (meets_readObject.mpr ⟨ht, hf⟩)

theorem Meets.proposition {t : Text} {f : Proposition → Reading β} (ht : c.ask t)
    (hf : ∀ p, c.proposition t p → (f p).Meets c Q) : (readProposition t >>= f).Meets c Q :=
  meets_bind.mpr (meets_readProposition.mpr ⟨ht, hf⟩)

theorem Meets.each {read : Text → Reading α} {p : Text → Prop} {texts : List Text}
    (h : ∀ t ∈ texts, (read t).Meets c fun a => P a ∧ p t) :
    (each read texts).Meets c fun values => (∀ a ∈ values, P a) ∧ ∀ t ∈ texts, p t := by
  induction texts with
  | nil =>
    rw [each_nil, meets_done]
    simp
  | cons t texts ih =>
    rw [each_cons]
    refine (h t List.mem_cons_self).bind fun a ha => ?_
    refine (ih fun s hs => h s (List.mem_cons_of_mem t hs)).bind fun values hv => ?_
    rw [meets_pure]
    exact ⟨List.forall_mem_cons.mpr ⟨ha.1, hv.1⟩, List.forall_mem_cons.mpr ⟨ha.2, hv.2⟩⟩

theorem Meets.items {read : Text → Reading α} {p : Text → Prop} {text : Text}
    (h : ∀ t ∈ splitTopLevel ',' text, (read t).Meets c fun a => P a ∧ p t) :
    (items read text).Meets c fun values =>
      (∀ a ∈ values, P a) ∧ ∀ t ∈ splitTopLevel ',' text, p t :=
  .each h

theorem Meets.const {p : Prop} {object : Text → Object → Prop}
    {proposition : Text → Proposition → Prop} (r : Reading α) (h : p) :
    r.Meets { object := object, proposition := proposition } fun _ => p := by
  induction r with
  | done => exact h
  | declined | failed => trivial
  | object t k ih => exact ⟨trivial, fun o _ => ih o⟩
  | proposition t k ih => exact ⟨trivial, ih none, fun p _ => ih (some p)⟩
  | probe t k ih => exact ⟨trivial, ih none, fun o _ => ih (some o)⟩

end Reading

end Parley
