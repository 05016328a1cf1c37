import Parley.Proofs.Engine.Meaning

/-! # Coherent caches

A cache is coherent if every object in it is what its text means. A reading that
starts with a coherent cache ends as the meaning says and leaves the cache coherent,
so that what was read before has no influence on what is read.
-/

namespace Parley

/-- The answers for a text follow a meaning, and leave the cache as it is to be kept. -/
structure Nested.Follows (nested : Nested) (m : Meaning) (keeps : Cache → Prop) (t : Text) :
    Prop where
  object : ∀ cache, keeps cache →
    (nested.object t cache).1 = m.object t ∧ keeps (nested.object t cache).2
  proposition : ∀ cache, keeps cache →
    (nested.proposition t cache).1 = m.proposition t ∧ keeps (nested.proposition t cache).2
  probe : ∀ cache, keeps cache →
    (nested.probe t cache).1 = m.probe t ∧ keeps (nested.probe t cache).2

/-- A reading whose nested texts are answered by a meaning ends as the meaning says. -/
theorem Reading.Meets.run {α : Type} {r : Reading α} {ask : Text → Prop} {P : α → Prop}
    {nested : Nested} {m : Meaning} {keeps : Cache → Prop} (h : r.Meets { ask := ask } P)
    (hn : ∀ t, ask t → nested.Follows m keeps t) {cache : Cache} (hc : keeps cache) :
    (r.run nested cache).1 = r.denote m ∧ keeps (r.run nested cache).2 := by
  induction r generalizing cache with
  | done | declined | failed => exact ⟨rfl, hc⟩
  | object t k ih =>
    obtain ⟨ht, hk⟩ := (hn t h.1).object cache hc
    simp only [Reading.run, denote, ← ht]
    rcases hr : nested.object t cache with ⟨_ | o, cache'⟩ <;> rw [hr] at hk
    · exact ⟨rfl, hk⟩
    · exact ih o (h.2 o trivial) hk
  | proposition t k ih =>
    obtain ⟨ht, hk⟩ := (hn t h.1).proposition cache hc
    simp only [Reading.run, denote, ← ht]
    rcases hr : nested.proposition t cache with ⟨p | _ | _, cache'⟩ <;> rw [hr] at hk
    · exact ih _ (h.2.2 p trivial) hk
    · exact ih _ h.2.1 hk
    · exact ⟨rfl, hk⟩
  | probe t k ih =>
    obtain ⟨ht, hk⟩ := (hn t h.1).probe cache hc
    have hm : (k (m.probe t)).Meets { ask := ask } P := by
      cases m.probe t with
      | none => exact h.2.1
      | some o => exact h.2.2 o trivial
    simpa only [Reading.run, denote, ht] using ih _ hm hk

namespace Engine

variable {e : Engine} {cache : Cache} {text : Text}

/-- Every object in the cache is what its text means. -/
def Coherent (e : Engine) (cache : Cache) : Prop :=
  ∀ entry ∈ cache.entries, e.meaning.object entry.1.text = .ok entry.2

theorem coherent_empty : e.Coherent {} := fun _ h => nomatch h

theorem coherent_clear : e.Coherent cache.clear := fun _ h => nomatch h

theorem Coherent.object? (hc : e.Coherent cache) {o : Object} (h : cache.object? text = some o) :
    e.meaning.object text = .ok o :=
  hc _ (Table.mem_of_get? h)

theorem Coherent.lookup (hc : e.Coherent cache) (text : Text) :
    e.Coherent (cache.lookup text).2 := by
  unfold Cache.lookup
  split <;> exact hc

theorem Coherent.insert (hc : e.Coherent cache) {o : Object} (h : e.meaning.object text = .ok o) :
    e.Coherent (cache.insert text o) := by
  intro entry he
  rcases Table.mem_insert he with rfl | he
  · exact h
  · exact hc entry he

theorem Descends.dispatch (he : e.Descends) {nested : Nested} {keeps : Cache → Prop}
    (hn : ∀ t, t.Inside text → nested.Follows e.meaning keeps t) (hc : keeps cache) :
    (e.dispatch nested text cache).1 = e.select e.meaning text ∧
      keeps (e.dispatch nested text cache).2 := by
  obtain ⟨hr, hk⟩ := (he.firstOf text).run hn hc
  rw [Engine.dispatch, select, ← hr]
  rcases h : (Rule.firstOf e.rules e.setting text).run nested cache with ⟨o | _ | _, cache'⟩ <;>
    rw [h] at hk <;> exact ⟨rfl, hk⟩

theorem Descends.dispatchWithin (he : e.Descends) {nested : Nested} {keeps : Cache → Prop}
    (hn : ∀ t, t.Inside text → nested.Follows e.meaning keeps t) (hc : keeps cache) :
    (e.dispatchWithin nested text cache).1 = e.meaning.object text ∧
      keeps (e.dispatchWithin nested text cache).2 := by
  obtain ⟨hr, hk⟩ := he.dispatch hn hc
  rw [Engine.dispatchWithin, he.meaning_object, ← hr]
  rcases h : e.dispatch nested text cache with ⟨_ | o, cache'⟩ <;>
    rw [h] at hk <;> exact ⟨rfl, hk⟩

theorem Descends.objectWith (he : e.Descends) {nested : Nested}
    (hn : ∀ t, t.Inside text → nested.Follows e.meaning e.Coherent t) (hc : e.Coherent cache) :
    (e.objectWith nested text cache).1 = e.meaning.object text ∧
      e.Coherent (e.objectWith nested text cache).2 := by
  unfold Engine.objectWith
  split
  · have hl := hc.lookup text
    have hf := cache.lookup_fst text
    unfold remember
    rcases h : cache.lookup text with ⟨_ | o, cache'⟩ <;> rw [h] at hl hf
    · obtain ⟨hr, hk⟩ := he.dispatchWithin hn hl
      simp only
      rw [← hr]
      rcases hd : e.dispatchWithin nested text cache' with ⟨_ | o, cache''⟩ <;> rw [hd] at hr hk
      · exact ⟨rfl, hk⟩
      · exact ⟨rfl, hk.insert hr.symm⟩
    · exact ⟨(hc.object? hf.symm).symm, hl⟩
  · exact he.dispatchWithin hn hc

/-- At a depth above the length of a text, the engine answers as its meaning does. -/
theorem Descends.nested_follows (he : e.Descends) {depth : Nat} (h : text.length < depth) :
    (e.nested depth).Follows e.meaning e.Coherent text := by
  induction depth generalizing text with
  | zero => omega
  | succ depth ih =>
    have hn : ∀ t : Text, t.Inside text → (e.nested depth).Follows e.meaning e.Coherent t := by
      intro t ht
      have := ht.2
      exact ih (by omega)
    refine ⟨fun cache hc => he.objectWith hn hc, fun cache hc => ?_, fun cache hc => ?_⟩
    · rw [he.meaning_proposition]
      exact (Grammar.proposition_asks e.setting text).run hn hc
    · obtain ⟨hr, hk⟩ := he.dispatch hn hc
      simp only [nested]
      rw [he.meaning_probe, ← hr]
      rcases hd : e.dispatch (e.nested depth) text cache with ⟨_ | o, cache'⟩ <;>
        rw [hd] at hk <;> exact ⟨rfl, hk⟩

/-- With a coherent cache, a text is given its meaning, and the cache stays coherent. -/
theorem Descends.parse (he : e.Descends) (hc : e.Coherent cache) (text : Text) :
    (e.parse text cache).1 = e.meaning.object text ∧ e.Coherent (e.parse text cache).2 :=
  (he.nested_follows (Nat.lt_succ_self _)).object cache hc

theorem Descends.read (he : e.Descends) {α : Type} {reading : Reading α}
    (hr : reading.AsksInside text) (hc : e.Coherent cache) :
    (e.read reading text cache).1 = reading.denote e.meaning ∧
      e.Coherent (e.read reading text cache).2 :=
  Reading.Meets.run hr (fun _ ht => he.nested_follows (Nat.lt_succ_of_lt ht.2)) hc

end Engine

end Parley
