import Mathlib.Data.Option.Basic
import Parley.Engine
import Parley.Proofs.Reading.Parallel

/-! # Engines side by side

Two engines whose rules are parallel give corresponding answers, as long as their caches
hold corresponding objects at the same texts and have counted the same. They then keep it
so: both find a text in their caches or neither does.
-/

namespace Parley

section Alike

variable {α β σ : Type}

inductive OutcomesAlike (R : α → β → Prop) (S : σ → σ → Prop) :
    Outcome α × σ → Outcome β × σ → Prop
  | value {a : α} {b : β} {s s' : σ} (h : R a b) (hs : S s s') :
    OutcomesAlike R S (.value a, s) (.value b, s')
  | declined {s s' : σ} (hs : S s s') : OutcomesAlike R S (.declined, s) (.declined, s')
  | error (e : GrammarError) {s s' : σ} (hs : S s s') :
    OutcomesAlike R S (.error e, s) (.error e, s')

/-- Two results with corresponding values or the same error, and corresponding states after them. -/
inductive ResultsAlike (R : α → β → Prop) (S : σ → σ → Prop) :
    Except GrammarError α × σ → Except GrammarError β × σ → Prop
  | ok {a : α} {b : β} {s s' : σ} (h : R a b) (hs : S s s') :
    ResultsAlike R S (.ok a, s) (.ok b, s')
  | error (e : GrammarError) {s s' : σ} (hs : S s s') :
    ResultsAlike R S (.error e, s) (.error e, s')

variable {R : α → β → Prop} {S : σ → σ → Prop} {x : Except GrammarError α × σ}
  {x' : Except GrammarError β × σ}

theorem ResultsAlike.eq_map (h : ResultsAlike R S x x') {f : α → β}
    (hf : ∀ {a b}, R a b → b = f a) : x'.1 = x.1.map f := by
  cases h with
  | ok h => exact congrArg Except.ok (hf h)
  | error e => rfl

theorem ResultsAlike.state (h : ResultsAlike R S x x') : S x.2 x'.2 := by
  cases h with
  | ok _ hs => exact hs
  | error e hs => exact hs

end Alike

namespace Table

variable {κ α β : Type} {R : α → β → Prop} {table : Table κ α} {table' : Table κ β}

/-- Tables with the same keys, in the same order, and corresponding values. -/
def Alike (R : α → β → Prop) (table : Table κ α) (table' : Table κ β) : Prop :=
  List.Forall₂ (fun entry entry' => entry.1 = entry'.1 ∧ R entry.2 entry'.2) table table'

variable [DecidableEq κ]

theorem Alike.get? (h : table.Alike R table') (key : κ) :
    Option.Rel R (table.get? key) (table'.get? key) := by
  induction h with
  | nil => exact .none
  | @cons entry entry' _ _ hentry _ ih =>
    obtain ⟨k, v⟩ := entry
    obtain ⟨k', v'⟩ := entry'
    obtain ⟨rfl, hv⟩ := hentry
    rw [Table.get?, Table.get?]
    split
    · exact .some hv
    · exact ih

theorem Alike.insert (h : table.Alike R table') (key : κ) {v : α} {v' : β} (hv : R v v') :
    (table.insert key v).Alike R (table'.insert key v') := by
  induction h with
  | nil => exact .cons ⟨rfl, hv⟩ .nil
  | @cons entry entry' _ _ hentry hrest ih =>
    obtain ⟨k, w⟩ := entry
    obtain ⟨k', w'⟩ := entry'
    obtain ⟨rfl, hw⟩ := hentry
    rw [Table.insert, Table.insert]
    split
    · exact .cons ⟨rfl, hv⟩ hrest
    · exact .cons ⟨rfl, hw⟩ ih

theorem Alike.insertAscending [LT κ] [DecidableLT κ] (h : table.Alike R table') (key : κ) {v : α}
    {v' : β} (hv : R v v') :
    (table.insertAscending key v).Alike R (table'.insertAscending key v') := by
  induction h with
  | nil => exact .cons ⟨rfl, hv⟩ .nil
  | @cons entry entry' _ _ hentry hrest ih =>
    obtain ⟨k, w⟩ := entry
    obtain ⟨k', w'⟩ := entry'
    obtain ⟨rfl, hw⟩ := hentry
    rw [Table.insertAscending, Table.insertAscending]
    split
    · exact .cons ⟨rfl, hv⟩ (.cons ⟨rfl, hw⟩ hrest)
    · split
      · exact .cons ⟨rfl, hv⟩ hrest
      · exact .cons ⟨rfl, hw⟩ ih

end Table

namespace Cache

variable {R : Object → Object → Prop} {cache cache' : Cache}

/-- Caches with corresponding objects at the same texts, and the same counts. -/
structure Alike (R : Object → Object → Prop) (cache cache' : Cache) : Prop where
  entries : cache.entries.Alike R cache'.entries
  hits : cache.hits = cache'.hits
  misses : cache.misses = cache'.misses

theorem Alike.empty : Alike R {} {} :=
  ⟨.nil, rfl, rfl⟩

theorem Alike.lookup (h : cache.Alike R cache') (text : Text) :
    Option.Rel R (cache.lookup text).1 (cache'.lookup text).1 ∧
      (cache.lookup text).2.Alike R (cache'.lookup text).2 := by
  have hget := h.entries.get? (Key.of text)
  unfold Cache.lookup object?
  generalize cache.entries.get? (Key.of text) = found at hget
  generalize cache'.entries.get? (Key.of text) = found' at hget
  cases hget with
  | none => exact ⟨.none, h.entries, h.hits, congrArg (· + 1) h.misses⟩
  | some ho => exact ⟨.some ho, h.entries, congrArg (· + 1) h.hits, h.misses⟩

theorem Alike.insert (h : cache.Alike R cache') (text : Text) {o o' : Object} (ho : R o o') :
    (cache.insert text o).Alike R (cache'.insert text o') :=
  ⟨h.entries.insert (Key.of text) ho, h.hits, h.misses⟩

theorem Alike.clear (h : cache.Alike R cache') : cache.clear.Alike R cache'.clear :=
  ⟨.nil, h.hits, h.misses⟩

theorem Alike.stats (h : cache.Alike R cache') : cache.stats = cache'.stats := by
  rw [Cache.stats, Cache.stats, h.hits, h.misses, size, size, h.entries.length_eq]

end Cache

/-- Corresponding answers for nested texts, from caches that correspond and do so afterwards. -/
structure Nested.Parallel (c : Correspondence) (nested nested' : Nested) : Prop where
  object : ∀ t {cache cache'}, cache.Alike c.object cache' →
    ResultsAlike c.object (Cache.Alike c.object) (nested.object t cache) (nested'.object t cache')
  proposition : ∀ t {cache cache'}, cache.Alike c.object cache' →
    OutcomesAlike c.proposition (Cache.Alike c.object) (nested.proposition t cache)
      (nested'.proposition t cache')
  probe : ∀ t {cache cache'}, cache.Alike c.object cache' →
    Option.Rel c.object (nested.probe t cache).1 (nested'.probe t cache').1 ∧
      (nested.probe t cache).2.Alike c.object (nested'.probe t cache').2

theorem Reading.Parallel.run {c : Correspondence} {α β : Type} {R : α → β → Prop}
    {r : Reading α} {r' : Reading β} (h : Parallel c R r r') {nested nested' : Nested}
    (hn : nested.Parallel c nested') {cache cache' : Cache} (hc : cache.Alike c.object cache') :
    OutcomesAlike R (Cache.Alike c.object) (r.run nested cache) (r'.run nested' cache') := by
  induction h generalizing cache cache' with
  | done h => exact .value h hc
  | declined => exact .declined hc
  | failed cause => exact .error _ hc
  | @asksObject t k k' _ ih =>
    have hr := hn.object t hc
    rw [Reading.run, Reading.run]
    generalize nested.object t cache = x at hr
    generalize nested'.object t cache' = x' at hr
    cases hr with
    | ok ho hc => exact ih _ _ ho hc
    | error e hc => exact .error e hc
  | @asksProposition t k k' _ _ ihn ih =>
    have hr := hn.proposition t hc
    rw [Reading.run, Reading.run]
    generalize nested.proposition t cache = x at hr
    generalize nested'.proposition t cache' = x' at hr
    cases hr with
    | value hp hc => exact ih _ _ hp hc
    | declined hc => exact ihn hc
    | error e hc => exact .error e hc
  | @probes t k k' _ _ ihn ih =>
    obtain ⟨hr, hc⟩ := hn.probe t hc
    rw [Reading.run, Reading.run]
    rcases hx : nested.probe t cache with ⟨x, after⟩
    rcases hx' : nested'.probe t cache' with ⟨x', after'⟩
    rw [hx, hx'] at hr hc
    cases hr with
    | some ho => exact ih _ _ ho hc
    | none => exact ihn hc

/-- Engines that read every text side by side, and remember it or not alike. -/
structure Engine.Parallel (c : Correspondence) (e e' : Engine) : Prop where
  object : ∀ text, Reading.Parallel c c.object (Rule.firstOf e.rules e.setting text)
    (Rule.firstOf e'.rules e'.setting text)
  proposition : ∀ text, Reading.Parallel c c.proposition (Grammar.proposition e.setting text)
    (Grammar.proposition e'.setting text)
  describe : e.setting.ontology.describe = e'.setting.ontology.describe
  cached : e.cached = e'.cached

namespace Engine.Parallel

variable {c : Correspondence} {e e' : Engine} {nested nested' : Nested} {cache cache' : Cache}

theorem dispatch (h : Parallel c e e') (hn : nested.Parallel c nested') (text : Text)
    (hc : cache.Alike c.object cache') :
    ResultsAlike c.object (Cache.Alike c.object) (e.dispatch nested text cache)
      (e'.dispatch nested' text cache') := by
  have hr := (h.object text).run hn hc
  rw [Engine.dispatch, Engine.dispatch]
  generalize (Rule.firstOf e.rules e.setting text).run nested cache = x at hr
  generalize (Rule.firstOf e'.rules e'.setting text).run nested' cache' = x' at hr
  cases hr with
  | value ho hc => exact .ok ho hc
  | error err hc => exact .error err hc
  | declined hc =>
    rw [h.describe]
    exact .error _ hc

theorem dispatchWithin (h : Parallel c e e') (hn : nested.Parallel c nested') (text : Text)
    (hc : cache.Alike c.object cache') :
    ResultsAlike c.object (Cache.Alike c.object) (e.dispatchWithin nested text cache)
      (e'.dispatchWithin nested' text cache') := by
  have hr := h.dispatch hn text hc
  rw [Engine.dispatchWithin, Engine.dispatchWithin]
  generalize e.dispatch nested text cache = x at hr
  generalize e'.dispatch nested' text cache' = x' at hr
  cases hr with
  | ok ho hc => exact .ok ho hc
  | error err hc => exact .error _ hc

/-- Two readers that answer alike do so when what they read is remembered. -/
theorem remember {read read' : Cache → Except GrammarError Object × Cache} {text : Text}
    (hread : ∀ {cache cache'}, cache.Alike c.object cache' →
      ResultsAlike c.object (Cache.Alike c.object) (read cache) (read' cache'))
    (hc : cache.Alike c.object cache') :
    ResultsAlike c.object (Cache.Alike c.object) (Engine.remember read text cache)
      (Engine.remember read' text cache') := by
  obtain ⟨hl, hc⟩ := hc.lookup text
  rw [Engine.remember, Engine.remember]
  rcases hx : cache.lookup text with ⟨x, after⟩
  rcases hx' : cache'.lookup text with ⟨x', after'⟩
  rw [hx, hx'] at hl hc
  cases hl with
  | some ho => exact .ok ho hc
  | none =>
    -- Both miss the text, read it, and remember what they read.
    have hr := hread hc
    simp only
    generalize read after = y at hr
    generalize read' after' = y' at hr
    cases hr with
    | ok ho hc => exact .ok ho (hc.insert text ho)
    | error err hc => exact .error err hc

theorem objectWith (h : Parallel c e e') (hn : nested.Parallel c nested') (text : Text)
    (hc : cache.Alike c.object cache') :
    ResultsAlike c.object (Cache.Alike c.object) (e.objectWith nested text cache)
      (e'.objectWith nested' text cache') := by
  rw [Engine.objectWith, Engine.objectWith, h.cached]
  split
  · exact remember (h.dispatchWithin hn text) hc
  · exact h.dispatchWithin hn text hc

theorem atDepth (h : Parallel c e e') (depth : Nat) :
    (e.nested depth).Parallel c (e'.nested depth) := by
  induction depth with
  | zero =>
    refine ⟨fun t cache cache' hc => ?_, fun _ _ _ hc => .declined hc,
      fun _ _ _ hc => ⟨.none, hc⟩⟩
    simp only [Engine.nested, h.describe]
    exact .error _ hc
  | succ depth ih =>
    refine ⟨fun t cache cache' hc => h.objectWith ih t hc,
      fun t cache cache' hc => (h.proposition t).run ih hc, fun t cache cache' hc => ?_⟩
    have hr := h.dispatch ih t hc
    simp only [Engine.nested]
    generalize e.dispatch (e.nested depth) t cache = x at hr
    generalize e'.dispatch (e'.nested depth) t cache' = x' at hr
    cases hr with
    | ok ho hc => exact ⟨.some ho, hc⟩
    | error err hc => exact ⟨.none, hc⟩

theorem parse (h : Parallel c e e') (text : Text) (hc : cache.Alike c.object cache') :
    ResultsAlike c.object (Cache.Alike c.object) (e.parse text cache) (e'.parse text cache') :=
  (h.atDepth _).object text hc

theorem read (h : Parallel c e e') {α : Type} {R : α → α → Prop} {r r' : Reading α}
    (hr : Reading.Parallel c R r r') (text : Text) (hc : cache.Alike c.object cache') :
    OutcomesAlike R (Cache.Alike c.object) (e.read r text cache) (e'.read r' text cache') :=
  hr.run (h.atDepth _) hc

end Engine.Parallel

end Parley
