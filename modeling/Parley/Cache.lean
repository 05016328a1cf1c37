import Parley.Object.Basic

/-! # The cache

A parser remembers the objects it has read by their exact texts, and counts how
often it found a text and how often it did not. Clearing forgets the objects and
keeps the counts.

The counts are natural numbers. Counters of 64 bits hold them in every session of fewer
than 2^64 lookups, since each lookup adds one to one of them.

What a cache holds is seen through `object?`: inserting changes it at one text, and
looking a text up leaves it as it is.
-/

namespace Parley

/-- A text with its length. The texts nested in one another have long beginnings in
common and different lengths, so that the lengths tell them apart at once. -/
structure Cache.Key where
  length : Nat
  text : Text
deriving DecidableEq

/-- Objects by their texts, and the counts of found and missed texts. -/
structure Cache where
  entries : Table Cache.Key Object := []
  hits : Nat := 0
  misses : Nat := 0

structure CacheStats where
  hits : Nat := 0
  misses : Nat := 0
  entries : Nat := 0
deriving DecidableEq

namespace Cache

def Key.of (text : Text) : Key :=
  ⟨text.length, text⟩

@[simp] theorem Key.of_inj {s t : Text} : Key.of s = Key.of t ↔ s = t :=
  ⟨congrArg Key.text, congrArg Key.of⟩

def object? (cache : Cache) (text : Text) : Option Object :=
  cache.entries.get? (Key.of text)

/-- Looks a text up and counts the attempt. -/
def lookup (cache : Cache) (text : Text) : Option Object × Cache :=
  match cache.object? text with
  | some object => (some object, { cache with hits := cache.hits + 1 })
  | none => (none, { cache with misses := cache.misses + 1 })

def insert (cache : Cache) (text : Text) (object : Object) : Cache :=
  { cache with entries := cache.entries.insert (Key.of text) object }

@[simp] theorem object?_insert (cache : Cache) (s t : Text) (object : Object) :
    (cache.insert s object).object? t = if t = s then some object else cache.object? t := by
  simp [insert, object?, Table.get?_insert]

theorem lookup_fst (cache : Cache) (text : Text) : (cache.lookup text).1 = cache.object? text := by
  unfold lookup
  split <;> simp_all

theorem lookup_of_some {cache : Cache} {text : Text} {object : Object}
    (h : cache.object? text = some object) :
    cache.lookup text = (some object, { cache with hits := cache.hits + 1 }) := by
  rw [lookup, h]

theorem lookup_of_none {cache : Cache} {text : Text} (h : cache.object? text = none) :
    cache.lookup text = (none, { cache with misses := cache.misses + 1 }) := by
  rw [lookup, h]

@[simp] theorem object?_lookup (cache : Cache) (s t : Text) :
    (cache.lookup s).2.object? t = cache.object? t := by
  unfold lookup
  split <;> rfl

def clear (cache : Cache) : Cache :=
  { cache with entries := [] }

@[simp] theorem object?_clear (cache : Cache) (text : Text) : cache.clear.object? text = none :=
  rfl

def size (cache : Cache) : Nat :=
  cache.entries.length

def stats (cache : Cache) : CacheStats :=
  ⟨cache.hits, cache.misses, cache.size⟩

end Cache

def CacheStats.describe (s : CacheStats) : Text :=
  .concat ["CacheStats \x7b hits: ", .ofInt s.hits, ", misses: ", .ofInt s.misses, ", entries: ",
    .ofInt s.entries, " \x7d"]

end Parley
