/-! # Tables

A table maps keys to values and holds each key once. Inserting at a key that is
present replaces its value in place; a new key comes last, or, in a table kept in
ascending order, at its place.
-/

namespace Parley

/-- A finite map, as the list of its entries. -/
abbrev Table (κ α : Type) := List (κ × α)

namespace Table

variable {κ α : Type} [DecidableEq κ]

def get? : Table κ α → κ → Option α
  | [], _ => none
  | (k, v) :: table, key => if k = key then some v else get? table key

def contains (table : Table κ α) (key : κ) : Bool :=
  (get? table key).isSome

/-- The table with a value at a key; a new key comes last. -/
def insert (key : κ) (value : α) : Table κ α → Table κ α
  | [] => [(key, value)]
  | (k, v) :: table =>
    if k = key then (key, value) :: table else (k, v) :: insert key value table

/-- The table in ascending order of keys with a value at a key. -/
def insertAscending [LT κ] [DecidableLT κ] (key : κ) (value : α) : Table κ α → Table κ α
  | [] => [(key, value)]
  | (k, v) :: table =>
    if key < k then (key, value) :: (k, v) :: table
    else if k = key then (key, value) :: table
    else (k, v) :: insertAscending key value table

theorem get?_insert (table : Table κ α) (key k : κ) (value : α) :
    get? (insert key value table) k = if k = key then some value else get? table k := by
  induction table with
  | nil => by_cases h : key = k <;> simp [insert, get?, h, eq_comm]
  | cons entry table ih =>
    obtain ⟨k', v⟩ := entry
    by_cases hk : k' = key
    · subst hk
      by_cases h : k' = k
      · simp [insert, get?, h]
      · simp [insert, get?, h, Ne.symm h]
    · by_cases h : k' = k
      · subst h
        simp [insert, get?, hk]
      · simp [insert, get?, hk, h, ih]

theorem get?_append (table table' : Table κ α) (key : κ) :
    get? (table ++ table') key = (get? table key).or (get? table' key) := by
  induction table with
  | nil => rfl
  | cons entry table ih =>
    obtain ⟨k, v⟩ := entry
    by_cases h : k = key <;> simp [get?, h, ih]

theorem insert_of_get?_none {table : Table κ α} {key : κ} (h : get? table key = none)
    (value : α) : insert key value table = table ++ [(key, value)] := by
  induction table with
  | nil => rfl
  | cons entry table ih =>
    obtain ⟨k, v⟩ := entry
    by_cases hk : k = key
    · simp [get?, hk] at h
    · simp only [get?, if_neg hk] at h
      simp [insert, hk, ih h]

theorem mem_of_get? {table : Table κ α} {key : κ} {value : α} (h : get? table key = some value) :
    (key, value) ∈ table := by
  induction table with
  | nil => cases h
  | cons entry table ih =>
    obtain ⟨k, v⟩ := entry
    rw [get?] at h
    split at h
    · simp_all
    · exact List.mem_cons_of_mem _ (ih h)

theorem mem_insert {table : Table κ α} {key : κ} {value : α} {entry : κ × α}
    (h : entry ∈ insert key value table) : entry = (key, value) ∨ entry ∈ table := by
  induction table with
  | nil => simpa [insert] using h
  | cons first table ih =>
    obtain ⟨k, v⟩ := first
    rw [insert] at h
    split at h
    · rcases List.mem_cons.mp h with h | h
      · exact .inl h
      · exact .inr (List.mem_cons_of_mem _ h)
    · rcases List.mem_cons.mp h with rfl | h
      · exact .inr List.mem_cons_self
      · exact (ih h).imp_right (List.mem_cons_of_mem _)

theorem mem_insertAscending [LT κ] [DecidableLT κ] {table : Table κ α} {key : κ} {value : α}
    {entry : κ × α} (h : entry ∈ insertAscending key value table) :
    entry = (key, value) ∨ entry ∈ table := by
  induction table with
  | nil => simpa [insertAscending] using h
  | cons first table ih =>
    obtain ⟨k, v⟩ := first
    rw [insertAscending] at h
    split at h
    · exact List.mem_cons.mp h
    · split at h
      · rcases List.mem_cons.mp h with h | h
        · exact .inl h
        · exact .inr (List.mem_cons_of_mem _ h)
      · rcases List.mem_cons.mp h with rfl | h
        · exact .inr List.mem_cons_self
        · exact (ih h).imp_right (List.mem_cons_of_mem _)

end Table

end Parley
