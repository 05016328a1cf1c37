import Parley.Proofs.Grammar.Nested
import Parley.Proofs.Reading.Meaning

/-! # The meaning of an engine

The rules of an engine give every text a meaning, in which nothing is remembered.
It is defined by depth, and since the texts that a rule asks for lie inside the one
it reads, a depth above the length of a text is deep enough: the meaning solves the
equations `meaning_object`, `meaning_proposition` and `meaning_probe`, in which
depth does not occur.
-/

namespace Parley

namespace Engine

variable (e : Engine) {text : Text}

/-- What the first rule that does not decline a text makes of it. -/
def select (m : Meaning) (text : Text) : Except GrammarError Object :=
  match (Rule.firstOf e.rules e.setting text).denote m with
  | .value o => .ok o
  | .declined => .error { cause := .noRuleMatched e.setting.ontology.describe }
  | .error err => .error err

def meaningAt : Nat → Meaning
  | 0 =>
    { object := fun _ => .error { cause := .noRuleMatched e.setting.ontology.describe }
      proposition := fun _ => .declined
      probe := fun _ => none }
  | depth + 1 =>
    { object := fun text => (e.select (meaningAt depth) text).mapError (·.within text)
      proposition := fun text => (Grammar.proposition e.setting text).denote (meaningAt depth)
      probe := fun text => (e.select (meaningAt depth) text).toOption }

/-- The meaning of all texts. -/
def meaning : Meaning where
  object text := (e.meaningAt (depthOf text)).object text
  proposition text := (e.meaningAt (depthOf text)).proposition text
  probe text := (e.meaningAt (depthOf text)).probe text

/-- Every rule of the engine asks only for texts inside the text that it reads. -/
def Descends : Prop :=
  ∀ rule ∈ e.rules, ∀ text, (rule e.setting text).AsksInside text

variable {e}

theorem firstOf_meets {c : Contract} {P : Object → Prop}
    (hrules : ∀ rule ∈ e.rules, (rule e.setting text).Meets c P) :
    (Rule.firstOf e.rules e.setting text).Meets c P := by
  refine Reading.Meets.firstOf fun r hr => ?_
  obtain ⟨rule, hrule, rfl⟩ := List.mem_map.mp hr
  exact hrules rule hrule

theorem Descends.firstOf (he : e.Descends) (text : Text) :
    (Rule.firstOf e.rules e.setting text).AsksInside text :=
  firstOf_meets fun rule hrule => he rule hrule text

theorem Descends.select_congr (he : e.Descends) {m m' : Meaning}
    (hm : ∀ t, t.Inside text → m.AgreesAt m' t) : e.select m text = e.select m' text := by
  rw [select, select, (he.firstOf text).denote_congr hm]

/-- Above the length of a text, its meaning does not depend on the depth. -/
theorem Descends.meaningAt_agrees (he : e.Descends) {depth : Nat} (h : text.length < depth) :
    (e.meaningAt depth).AgreesAt e.meaning text := by
  suffices hs : ∀ n text d d', text.length < n → text.length < d → text.length < d' →
      (e.meaningAt d).AgreesAt (e.meaningAt d') text by
    obtain ⟨hobject, hproposition, hprobe⟩ :=
      hs depth text depth (depthOf text) h h (Nat.lt_succ_self _)
    exact ⟨hobject, hproposition, hprobe⟩
  intro n
  induction n with
  | zero => intro text d d' hn; omega
  | succ n ih =>
    intro text d d' hn hd hd'
    obtain ⟨d, rfl⟩ := Nat.exists_eq_succ_of_ne_zero (Nat.ne_zero_of_lt hd)
    obtain ⟨d', rfl⟩ := Nat.exists_eq_succ_of_ne_zero (Nat.ne_zero_of_lt hd')
    have hin : ∀ t : Text, t.Inside text → (e.meaningAt d).AgreesAt (e.meaningAt d') t := by
      intro t ht
      have := ht.2
      exact ih t d d' (by omega) (by omega) (by omega)
    have hselect := he.select_congr hin
    have hproposition := (Grammar.proposition_asks e.setting text).denote_congr hin
    constructor <;> simp only [meaningAt, hselect, hproposition]

theorem Descends.select_meaningAt (he : e.Descends) (text : Text) :
    e.select (e.meaningAt text.length) text = e.select e.meaning text :=
  he.select_congr fun _ ht => he.meaningAt_agrees ht.2

/-- The object of a text is what the rules make of it; an error takes the text into its trail. -/
theorem Descends.meaning_object (he : e.Descends) (text : Text) :
    e.meaning.object text = (e.select e.meaning text).mapError (·.within text) := by
  rw [← he.select_meaningAt]
  rfl

theorem Descends.meaning_proposition (he : e.Descends) (text : Text) :
    e.meaning.proposition text = (Grammar.proposition e.setting text).denote e.meaning :=
  (Grammar.proposition_asks e.setting text).denote_congr fun _ ht => he.meaningAt_agrees ht.2

theorem Descends.meaning_probe (he : e.Descends) (text : Text) :
    e.meaning.probe text = (e.select e.meaning text).toOption := by
  rw [← he.select_meaningAt]
  rfl

theorem Descends.object_eq_ok_iff (he : e.Descends) {o : Object} :
    e.meaning.object text = .ok o ↔
      (Rule.firstOf e.rules e.setting text).denote e.meaning = .value o := by
  rw [he.meaning_object, select]
  cases (Rule.firstOf e.rules e.setting text).denote e.meaning <;> simp [Except.mapError]

theorem Descends.object_of_error (he : e.Descends) {err : GrammarError}
    (h : (Rule.firstOf e.rules e.setting text).denote e.meaning = .error err) :
    e.meaning.object text = .error (err.within text) := by
  rw [he.meaning_object, select, h]
  rfl

theorem Descends.object_of_declined (he : e.Descends)
    (h : (Rule.firstOf e.rules e.setting text).denote e.meaning = .declined) :
    e.meaning.object text =
      .error (.through (.noRuleMatched e.setting.ontology.describe) [text]) := by
  rw [he.meaning_object, select, h]
  rfl

theorem Descends.probe_of_object (he : e.Descends) {o : Object}
    (h : e.meaning.object text = .ok o) : e.meaning.probe text = some o := by
  rw [he.meaning_object] at h
  rw [he.meaning_probe]
  cases hs : e.select e.meaning text with
  | error err =>
    rw [hs] at h
    cases h
  | ok o' =>
    rw [hs] at h
    obtain rfl := Except.ok.inj h
    rfl

theorem select_value {c : Contract} {m : Meaning} {o : Object} (hm : c.Grants m)
    (hrules : ∀ rule ∈ e.rules, (rule e.setting text).Meets c (c.object text))
    (h : e.select m text = .ok o) : c.object text o := by
  unfold select at h
  split at h
  · rename_i o' ho
    obtain rfl := Except.ok.inj h
    exact (firstOf_meets hrules).value hm ho
  · cases h
  · cases h

/-- What the rules give of a text, where it is granted of nested texts, holds of all texts. -/
theorem grants_meaningAt {c : Contract}
    (hrules : ∀ rule ∈ e.rules, ∀ text, (rule e.setting text).Meets c (c.object text))
    (hforms : ∀ text, (Grammar.proposition e.setting text).Meets c (c.proposition text))
    (depth : Nat) : c.Grants (e.meaningAt depth) := by
  induction depth with
  | zero => refine ⟨fun t o _ h => ?_, fun t p _ h => ?_, fun t o _ h => ?_⟩ <;> cases h
  | succ depth ih =>
    have hselect : ∀ t o, e.select (e.meaningAt depth) t = .ok o → c.object t o :=
      fun t o => select_value ih fun rule hrule => hrules rule hrule t
    refine ⟨fun t o _ h => hselect t o ?_, fun t p _ h => (hforms t).value ih h,
      fun t o _ h => hselect t o ?_⟩
    · change (e.select (e.meaningAt depth) t).mapError _ = _ at h
      cases hs : e.select (e.meaningAt depth) t <;> simp_all [Except.mapError]
    · change (e.select (e.meaningAt depth) t).toOption = _ at h
      cases hs : e.select (e.meaningAt depth) t <;> simp_all [Except.toOption]

theorem select_cause {c : Contract} {m : Meaning} {err : GrammarError} (hm : c.Grants m)
    (hc : c.Explains m) (hnone : c.cause (.noRuleMatched e.setting.ontology.describe))
    (hrules : ∀ rule ∈ e.rules, (rule e.setting text).Meets c (c.object text))
    (h : e.select m text = .error err) : c.cause err.cause := by
  unfold select at h
  split at h
  · cases h
  · obtain rfl := Except.error.inj h
    exact hnone
  · rename_i err' herr
    obtain rfl := Except.error.inj h
    exact (firstOf_meets hrules).cause hm hc herr

/-- If the rules fail with causes of a contract, where it is kept by nested texts, then no text
fails with another cause. -/
theorem explains_meaningAt {c : Contract}
    (hrules : ∀ rule ∈ e.rules, ∀ text, (rule e.setting text).Meets c (c.object text))
    (hforms : ∀ text, (Grammar.proposition e.setting text).Meets c (c.proposition text))
    (hnone : c.cause (.noRuleMatched e.setting.ontology.describe)) (depth : Nat) :
    c.Explains (e.meaningAt depth) := by
  induction depth with
  | zero =>
    refine ⟨fun t err h => ?_, fun t err h => by cases h⟩
    obtain rfl := Except.error.inj h
    exact hnone
  | succ depth ih =>
    have hm := grants_meaningAt hrules hforms depth
    refine ⟨fun t err h => ?_, fun t err h => (hforms t).cause hm ih h⟩
    change (e.select (e.meaningAt depth) t).mapError _ = _ at h
    cases hs : e.select (e.meaningAt depth) t with
    | ok o =>
      rw [hs] at h
      cases h
    | error inner =>
      rw [hs] at h
      obtain rfl := Except.error.inj h
      have hcause : c.cause inner.cause :=
        select_cause hm ih hnone (fun rule hrule => hrules rule hrule t) hs
      exact hcause

theorem grants_meaning {c : Contract} (h : ∀ depth, c.Grants (e.meaningAt depth)) :
    c.Grants e.meaning :=
  ⟨fun t o => (h (depthOf t)).object t o, fun t p => (h (depthOf t)).proposition t p,
    fun t o => (h (depthOf t)).probe t o⟩

theorem explains_meaning {c : Contract} (h : ∀ depth, c.Explains (e.meaningAt depth)) :
    c.Explains e.meaning :=
  ⟨fun t => (h (depthOf t)).object t, fun t => (h (depthOf t)).proposition t⟩

theorem meaning_cached (b : Bool) : ({ e with cached := b } : Engine).meaning = e.meaning := by
  have h : ∀ depth, ({ e with cached := b } : Engine).meaningAt depth = e.meaningAt depth := by
    intro depth
    induction depth with
    | zero => rfl
    | succ depth ih =>
      simp only [meaningAt, ih]
      rfl
  simp only [meaning, h]

end Engine

end Parley
