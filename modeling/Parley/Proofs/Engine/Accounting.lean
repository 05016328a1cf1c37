import Parley.Proofs.Engine.Meaning

/-! # Accounting for the cache

A reading looks texts up in the cache, and each text that is missed and then read is
remembered. The log of a run names its lookups in the order in which they are settled. It
follows the answers and the caches of the run itself, and it accounts for everything that
the run does to the cache: the counts grow by the hits and the misses of the log, and the
texts that were read come after what was there before.

That nothing is overwritten rests on the nesting of texts: while a text is read, only
texts inside it are looked up, so it is still missing when it is remembered.
-/

namespace Parley

/-- One attempt to find a text in the cache. -/
inductive Lookup
  | hit (text : Text)
  /-- The text was missed, and then read. -/
  | read (text : Text) (object : Object)
  /-- The text was missed, and could not be read. -/
  | failure (text : Text)

namespace Lookup

def text : Lookup → Text
  | hit t | read t _ | failure t => t

def isHit : Lookup → Bool
  | hit _ => true
  | read .. | failure _ => false

def isRead : Lookup → Bool
  | read .. => true
  | hit _ | failure _ => false

/-- What is remembered after a lookup. -/
def remembered? : Lookup → Option (Cache.Key × Object)
  | read t o => some (.of t, o)
  | hit _ | failure _ => none

theorem length_filterMap_remembered? (log : List Lookup) :
    (log.filterMap remembered?).length = log.countP isRead := by
  rw [List.length_filterMap_eq_countP]
  congr 1
  funext lookup
  cases lookup <;> rfl

theorem countP_isRead_le (log : List Lookup) :
    log.countP isRead ≤ log.countP (fun lookup => !lookup.isHit) := by
  apply List.countP_mono_left
  rintro (t | ⟨t, o⟩ | t) _ h
  · cases h
  · rfl
  · cases h

/-- A counter of 64 bits that is incremented at each lookup of one kind. -/
def counter (kind : Lookup → Bool) (log : List Lookup) : UInt64 :=
  log.foldl (fun n lookup => if kind lookup then n + 1 else n) 0

theorem toNat_counter {kind : Lookup → Bool} {log : List Lookup} (h : log.length < UInt64.size) :
    (counter kind log).toNat = log.countP kind := by
  suffices hrun : ∀ n : UInt64, n.toNat + log.length < UInt64.size →
      (log.foldl (fun n lookup => if kind lookup then n + 1 else n) n).toNat =
        n.toNat + log.countP kind by
    simpa [counter] using hrun 0 (by simpa using h)
  clear h
  induction log with
  | nil => simp
  | cons lookup log ih =>
    intro n hn
    rw [List.length_cons] at hn
    have hstep : (n + 1).toNat = n.toNat + 1 := by
      rw [UInt64.toNat_add]
      exact Nat.mod_eq_of_lt (by change n.toNat + 1 < UInt64.size; omega)
    rw [List.foldl_cons, List.countP_cons]
    split
    · rw [ih (n + 1) (by omega), hstep]
      omega
    · exact ih n (by omega)

theorem mem_of_get?_remembered {log : List Lookup} {t : Text} {o : Object}
    (h : Table.get? (log.filterMap remembered?) (.of t) = some o) : read t o ∈ log := by
  obtain ⟨lookup, hl, he⟩ := List.mem_filterMap.mp (Table.mem_of_get? h)
  cases lookup with
  | hit | failure => cases he
  | read t' o' =>
    simp only [remembered?, Option.some.injEq, Prod.mk.injEq, Cache.Key.of_inj] at he
    obtain ⟨rfl, rfl⟩ := he
    exact hl

end Lookup

namespace Cache

variable {P Q : Text → Prop} {before mid after : Cache} {log log' : List Lookup} {t : Text}
  {o : Object}

/-- The log accounts for what happened to the cache, and its texts have a property. -/
structure Accounts (P : Text → Prop) (before : Cache) (log : List Lookup) (after : Cache) :
    Prop where
  hits : after.hits = before.hits + log.countP Lookup.isHit
  misses : after.misses = before.misses + log.countP fun lookup => !lookup.isHit
  entries : after.entries = before.entries ++ log.filterMap Lookup.remembered?
  texts : ∀ lookup ∈ log, P lookup.text
  /-- What was read had not been there. -/
  fresh : ∀ t o, .read t o ∈ log → before.object? t = none

namespace Accounts

theorem refl (P : Text → Prop) (cache : Cache) : cache.Accounts P [] cache where
  hits := rfl
  misses := rfl
  entries := (List.append_nil _).symm
  texts := fun _ h => nomatch h
  fresh := fun _ _ h => nomatch h

theorem mono (h : before.Accounts P log after) (hp : ∀ t, P t → Q t) :
    before.Accounts Q log after :=
  { h with texts := fun lookup hl => hp lookup.text (h.texts lookup hl) }

/-- What a cache holds is what it held before, and what was read. -/
theorem object? (h : before.Accounts P log after) (t : Text) :
    after.object? t =
      (before.object? t).or (Table.get? (log.filterMap Lookup.remembered?) (.of t)) := by
  rw [Cache.object?, h.entries, Table.get?_append]
  rfl

theorem object?_of_some (h : before.Accounts P log after) (ho : before.object? t = some o) :
    after.object? t = some o := by
  rw [h.object?, ho]
  rfl

theorem read_of_object? (h : before.Accounts P log after) (hb : before.object? t = none)
    (ha : after.object? t = some o) : .read t o ∈ log := by
  rw [h.object?, hb] at ha
  exact Lookup.mem_of_get?_remembered ha

theorem mem_of_read (h : before.Accounts P log after) (hl : .read t o ∈ log) :
    (.of t, o) ∈ after.entries := by
  rw [h.entries]
  exact List.mem_append_right _ (List.mem_filterMap.mpr ⟨_, hl, rfl⟩)

theorem object?_eq_none (h : before.Accounts P log after) (hb : before.object? t = none)
    (ht : ¬ P t) : after.object? t = none := by
  rw [Option.eq_none_iff_forall_ne_some]
  intro o ha
  exact ht (h.texts _ (h.read_of_object? hb ha))

theorem trans (h : before.Accounts P log mid) (h' : mid.Accounts P log' after) :
    before.Accounts P (log ++ log') after where
  hits := by rw [h'.hits, h.hits, List.countP_append]; omega
  misses := by rw [h'.misses, h.misses, List.countP_append]; omega
  entries := by rw [h'.entries, h.entries, List.filterMap_append, List.append_assoc]
  texts := List.forall_mem_append.mpr ⟨h.texts, h'.texts⟩
  fresh := by
    intro t o hl
    rcases List.mem_append.mp hl with hl | hl
    · exact h.fresh t o hl
    · rw [Option.eq_none_iff_forall_ne_some]
      intro o' ho
      have hmid := h.object?_of_some ho
      rw [h'.fresh t o hl] at hmid
      cases hmid

theorem eq_of_nil (h : before.Accounts P [] after) : after = before := by
  have hhits := h.hits
  have hmisses := h.misses
  have hentries := h.entries
  cases after
  cases before
  simp_all

/-- A text that was missed and could not be read leaves what was done on the way. -/
theorem failure (h : Accounts P { before with misses := before.misses + 1 } log after)
    (hp : ∀ u, P u → Q u) (ht : Q t) : before.Accounts Q (log ++ [.failure t]) after where
  hits := by simp [h.hits, Lookup.isHit]
  misses := by simp [h.misses, Lookup.isHit]; omega
  entries := by simp [h.entries, Lookup.remembered?]
  texts := List.forall_mem_append.mpr ⟨(h.mono hp).texts, List.forall_mem_singleton.mpr ht⟩
  fresh := by
    intro u o hl
    exact h.fresh u o (by simpa using hl)

/-- A text that was missed and read while nothing like it was looked up is added at the end. -/
theorem read (h : Accounts P { before with misses := before.misses + 1 } log after)
    (hp : ∀ u, P u → Q u) (ht : Q t) (hb : before.object? t = none) (hnot : ¬ P t) :
    before.Accounts Q (log ++ [.read t o]) (after.insert t o) where
  hits := by simp [h.hits, insert, Lookup.isHit]
  misses := by simp [h.misses, insert, Lookup.isHit]; omega
  entries := by
    have ha : after.object? t = none := h.object?_eq_none hb hnot
    rw [insert, Table.insert_of_get?_none ha]
    simp [h.entries, Lookup.remembered?]
  texts := List.forall_mem_append.mpr ⟨(h.mono hp).texts, List.forall_mem_singleton.mpr ht⟩
  fresh := by
    intro u o' hl
    rcases List.mem_append.mp hl with hl | hl
    · exact h.fresh u o' hl
    · obtain ⟨rfl, -⟩ : u = t ∧ o' = o := by simpa using hl
      exact hb

end Accounts

theorem accounts_hit (h : P t) :
    before.Accounts P [.hit t] { before with hits := before.hits + 1 } where
  hits := rfl
  misses := rfl
  entries := (List.append_nil _).symm
  texts := List.forall_mem_singleton.mpr h
  fresh := by simp

end Cache

/-- The logs of the answers for nested texts. -/
structure Lookups where
  object : Text → Cache → List Lookup
  proposition : Text → Cache → List Lookup
  probe : Text → Cache → List Lookup

/-- The logs account for the answers for a text. -/
structure Nested.Accounted (nested : Nested) (logs : Lookups) (P : Text → Prop) (t : Text) :
    Prop where
  object : ∀ cache : Cache, cache.Accounts P (logs.object t cache) (nested.object t cache).2
  proposition : ∀ cache : Cache,
    cache.Accounts P (logs.proposition t cache) (nested.proposition t cache).2
  probe : ∀ cache : Cache, cache.Accounts P (logs.probe t cache) (nested.probe t cache).2

theorem Nested.Accounted.mono {nested : Nested} {logs : Lookups} {P Q : Text → Prop} {t : Text}
    (h : nested.Accounted logs P t) (hp : ∀ u, P u → Q u) : nested.Accounted logs Q t :=
  ⟨fun cache => (h.object cache).mono hp, fun cache => (h.proposition cache).mono hp,
    fun cache => (h.probe cache).mono hp⟩

namespace Reading

variable {α : Type}

/-- The lookups of a run, which go on as the run does. -/
def lookups (nested : Nested) (logs : Lookups) : Reading α → Cache → List Lookup
  | done _, _ | declined, _ | failed _, _ => []
  | object text next, cache =>
    logs.object text cache ++
      match nested.object text cache with
      | (.ok o, cache) => (next o).lookups nested logs cache
      | (.error _, _) => []
  | proposition text next, cache =>
    logs.proposition text cache ++
      match nested.proposition text cache with
      | (.value p, cache) => (next (some p)).lookups nested logs cache
      | (.declined, cache) => (next none).lookups nested logs cache
      | (.error _, _) => []
  | probe text next, cache =>
    logs.probe text cache ++
      match nested.probe text cache with
      | (found, cache) => (next found).lookups nested logs cache

/-- The log of a run accounts for it, where those of the nested texts do. -/
theorem Meets.accounts {r : Reading α} {ask P : Text → Prop} {Q : α → Prop} {nested : Nested}
    {logs : Lookups} (h : r.Meets { ask := ask } Q)
    (hn : ∀ t, ask t → nested.Accounted logs P t) (cache : Cache) :
    cache.Accounts P (r.lookups nested logs cache) (r.run nested cache).2 := by
  induction r generalizing cache with
  | done | declined | failed => exact .refl P cache
  | object t k ih =>
    have ht := (hn t h.1).object cache
    rw [lookups, run]
    rcases hr : nested.object t cache with ⟨_ | o, cache'⟩ <;> rw [hr] at ht
    · exact ht.trans (.refl P cache')
    · exact ht.trans (ih o (h.2 o trivial) cache')
  | proposition t k ih =>
    have ht := (hn t h.1).proposition cache
    rw [lookups, run]
    rcases hr : nested.proposition t cache with ⟨p | _ | _, cache'⟩ <;> rw [hr] at ht
    · exact ht.trans (ih _ (h.2.2 p trivial) cache')
    · exact ht.trans (ih _ h.2.1 cache')
    · exact ht.trans (.refl P cache')
  | probe t k ih =>
    have ht := (hn t h.1).probe cache
    rw [lookups, run]
    rcases hr : nested.probe t cache with ⟨_ | o, cache'⟩ <;> rw [hr] at ht
    · exact ht.trans (ih _ h.2.1 cache')
    · exact ht.trans (ih _ (h.2.2 o trivial) cache')

theorem lookups_eq_nil {nested : Nested} {logs : Lookups}
    (hobject : ∀ t cache, logs.object t cache = [])
    (hproposition : ∀ t cache, logs.proposition t cache = [])
    (hprobe : ∀ t cache, logs.probe t cache = []) (r : Reading α) (cache : Cache) :
    r.lookups nested logs cache = [] := by
  induction r generalizing cache with
  | done | declined | failed => rfl
  | object t k ih =>
    rw [lookups, hobject, List.nil_append]
    split
    · exact ih _ _
    · rfl
  | proposition t k ih =>
    rw [lookups, hproposition, List.nil_append]
    split
    · exact ih _ _
    · exact ih _ _
    · rfl
  | probe t k ih =>
    rw [lookups, hprobe, List.nil_append]
    exact ih _ _

end Reading

namespace Engine

variable (e : Engine) {text : Text}

def ruleLookups (nested : Nested) (logs : Lookups) (text : Text) (cache : Cache) : List Lookup :=
  (Rule.firstOf e.rules e.setting text).lookups nested logs cache

/-- The lookup of a text that was missed, by how it is read. -/
def missedLookup (text : Text) : Except GrammarError Object → Lookup
  | .ok o => .read text o
  | .error _ => .failure text

/-- The lookups of the object of a text, its own one after those of the texts nested in it. -/
def objectLookups (nested : Nested) (logs : Lookups) (text : Text) (cache : Cache) :
    List Lookup :=
  if e.cached then
    match cache.lookup text with
    | (some _, _) => [.hit text]
    | (none, cache) =>
      e.ruleLookups nested logs text cache ++
        [missedLookup text (e.dispatchWithin nested text cache).1]
  else e.ruleLookups nested logs text cache

def lookupsAt : Nat → Lookups
  | 0 => ⟨fun _ _ => [], fun _ _ => [], fun _ _ => []⟩
  | depth + 1 =>
    { object := e.objectLookups (e.nested depth) (lookupsAt depth)
      proposition := fun text cache =>
        (Grammar.proposition e.setting text).lookups (e.nested depth) (lookupsAt depth) cache
      probe := e.ruleLookups (e.nested depth) (lookupsAt depth) }

def parseLookups (text : Text) (cache : Cache) : List Lookup :=
  (e.lookupsAt (depthOf text)).object text cache

def readLookups {α : Type} (reading : Reading α) (text : Text) (cache : Cache) : List Lookup :=
  reading.lookups (e.nested (depthOf text)) (e.lookupsAt (depthOf text)) cache

variable {e} {nested : Nested} {logs : Lookups}

theorem dispatch_snd (text : Text) (cache : Cache) :
    (e.dispatch nested text cache).2 =
      ((Rule.firstOf e.rules e.setting text).run nested cache).2 := by
  rw [dispatch]
  rcases (Rule.firstOf e.rules e.setting text).run nested cache with ⟨_ | _ | _, cache'⟩ <;> rfl

theorem dispatchWithin_snd (text : Text) (cache : Cache) :
    (e.dispatchWithin nested text cache).2 =
      ((Rule.firstOf e.rules e.setting text).run nested cache).2 := by
  rw [dispatchWithin, ← dispatch_snd]
  rcases e.dispatch nested text cache with ⟨_ | _, cache'⟩ <;> rfl

theorem Descends.objectWith_accounts (he : e.Descends)
    (hn : ∀ t : Text, t.Inside text → nested.Accounted logs (·.Inside text) t) (cache : Cache) :
    cache.Accounts (· <:+: text) (e.objectLookups nested logs text cache)
      (e.objectWith nested text cache).2 := by
  have hrules : ∀ cache : Cache, cache.Accounts (·.Inside text)
      (e.ruleLookups nested logs text cache) (e.dispatchWithin nested text cache).2 := by
    intro cache
    rw [dispatchWithin_snd]
    exact (he.firstOf text).accounts hn cache
  have hinfix : ∀ t : Text, t.Inside text → t <:+: text := fun _ ht => ht.1
  -- No lookup on the way concerns the text itself, so it is still missing when it is remembered.
  have hnot : ¬ text.Inside text := fun ht => lt_irrefl _ ht.2
  unfold objectLookups objectWith
  split
  · cases ho : cache.object? text with
    | some o =>
      rw [remember, Cache.lookup_of_some ho]
      exact Cache.accounts_hit List.infix_rfl
    | none =>
      rw [remember, Cache.lookup_of_none ho]
      have hread := hrules { cache with misses := cache.misses + 1 }
      simp only
      rcases hd : e.dispatchWithin nested text { cache with misses := cache.misses + 1 } with
        ⟨_ | o, cache'⟩ <;> rw [hd] at hread
      · exact hread.failure hinfix List.infix_rfl
      · exact hread.read hinfix List.infix_rfl ho hnot
  · exact (hrules cache).mono hinfix

/-- The lookups of a text concern its parts, and they account for what happens to the cache. -/
theorem Descends.nested_accounted (he : e.Descends) (depth : Nat) (text : Text) :
    (e.nested depth).Accounted (e.lookupsAt depth) (· <:+: text) text := by
  induction depth generalizing text with
  | zero => refine ⟨fun cache => ?_, fun cache => ?_, fun cache => ?_⟩ <;> exact .refl _ cache
  | succ depth ih =>
    have hn : ∀ t : Text, t.Inside text →
        (e.nested depth).Accounted (e.lookupsAt depth) (·.Inside text) t :=
      fun t ht => (ih t).mono fun u hu => .of_isInfix hu ht
    have hinfix : ∀ t : Text, t.Inside text → t <:+: text := fun _ ht => ht.1
    refine ⟨he.objectWith_accounts hn, fun cache => ?_, fun cache => ?_⟩
    · exact ((Grammar.proposition_asks e.setting text).accounts hn cache).mono hinfix
    · have hrun := ((he.firstOf text).accounts hn cache).mono hinfix
      rw [← dispatch_snd] at hrun
      simp only [Engine.nested]
      rcases hd : e.dispatch (e.nested depth) text cache with ⟨_ | o, cache'⟩ <;>
        rw [hd] at hrun <;> exact hrun

theorem Descends.parse_accounts (he : e.Descends) (text : Text) (cache : Cache) :
    cache.Accounts (· <:+: text) (e.parseLookups text cache) (e.parse text cache).2 :=
  (he.nested_accounted (depthOf text) text).object cache

theorem Descends.read_accounts (he : e.Descends) {α : Type} {reading : Reading α}
    (hr : reading.AsksInside text) (cache : Cache) :
    cache.Accounts (· <:+: text) (e.readLookups reading text cache)
      (e.read reading text cache).2 := by
  refine Reading.Meets.accounts hr (fun t ht => ?_) cache
  exact (he.nested_accounted (depthOf text) t).mono fun u hu => hu.trans ht.1

theorem lookupsAt_uncached (h : e.cached = false) (depth : Nat) :
    (∀ t cache, (e.lookupsAt depth).object t cache = []) ∧
      (∀ t cache, (e.lookupsAt depth).proposition t cache = []) ∧
      ∀ t cache, (e.lookupsAt depth).probe t cache = [] := by
  induction depth with
  | zero => exact ⟨fun _ _ => rfl, fun _ _ => rfl, fun _ _ => rfl⟩
  | succ depth ih =>
    obtain ⟨hobject, hproposition, hprobe⟩ := ih
    refine ⟨fun t cache => ?_, fun t cache => ?_, fun t cache => ?_⟩
    · simp only [lookupsAt, objectLookups, h]
      exact Reading.lookups_eq_nil hobject hproposition hprobe _ cache
    · exact Reading.lookups_eq_nil hobject hproposition hprobe _ cache
    · exact Reading.lookups_eq_nil hobject hproposition hprobe _ cache

theorem parseLookups_uncached (h : e.cached = false) (text : Text) (cache : Cache) :
    e.parseLookups text cache = [] :=
  (lookupsAt_uncached h _).1 text cache

theorem readLookups_uncached (h : e.cached = false) {α : Type} (reading : Reading α)
    (text : Text) (cache : Cache) : e.readLookups reading text cache = [] := by
  obtain ⟨hobject, hproposition, hprobe⟩ := lookupsAt_uncached h (depthOf text)
  exact Reading.lookups_eq_nil hobject hproposition hprobe reading cache

theorem parse_of_object? (hc : e.cached = true) {cache : Cache} {o : Object}
    (h : cache.object? text = some o) :
    e.parse text cache = (.ok o, { cache with hits := cache.hits + 1 }) := by
  change e.objectWith _ text cache = _
  rw [objectWith, if_pos hc, remember, Cache.lookup_of_some h]

theorem object?_parse (hc : e.cached = true) {cache : Cache} {o : Object}
    (h : (e.parse text cache).1 = .ok o) : (e.parse text cache).2.object? text = some o := by
  cases ho : cache.object? text with
  | some found =>
    rw [parse_of_object? hc ho] at h ⊢
    obtain rfl := Except.ok.inj h
    exact ho
  | none =>
    change (e.objectWith _ text cache).1 = _ at h
    change (e.objectWith _ text cache).2.object? text = _
    rw [objectWith, if_pos hc, remember, Cache.lookup_of_none ho] at h ⊢
    simp only at h ⊢
    split at h
    · obtain rfl := Except.ok.inj h
      simp
    · cases h

end Engine

end Parley
