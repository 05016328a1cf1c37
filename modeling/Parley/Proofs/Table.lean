import Parley.Table

/-! # Ascending tables

A table whose keys ascend is determined by the values at its keys. Inserting keeps the
order and changes the value at one key, so of several entries that are inserted one
after the other the last one with a key counts.
-/

namespace Parley.Table

variable {κ α : Type} [DecidableEq κ] {table table' : Table κ α} {key : κ} {value : α}

/-- The value of the last entry with a key. -/
def last? (entries : List (κ × α)) (key : κ) : Option α :=
  get? (entries.reverse : Table κ α) key

theorem last?_concat_self (entries : List (κ × α)) (key : κ) (value : α) :
    last? (entries ++ [(key, value)]) key = some value := by
  simp [last?, get?]

theorem last?_concat_of_ne (entries : List (κ × α)) {k key : κ} (value : α) (h : k ≠ key) :
    last? (entries ++ [(k, value)]) key = last? entries key := by
  simp [last?, get?, h]

theorem get?_eq_none_iff : get? table key = none ↔ ∀ entry ∈ table, entry.1 ≠ key := by
  induction table with
  | nil => simp [get?]
  | cons entry table ih =>
    obtain ⟨k, v⟩ := entry
    by_cases h : k = key <;> simp [get?, h, ih]

theorem get?_eq_some_iff (h : (table.map Prod.fst).Nodup) :
    get? table key = some value ↔ (key, value) ∈ table := by
  refine ⟨mem_of_get?, fun hm => ?_⟩
  induction table with
  | nil => cases hm
  | cons entry table ih =>
    obtain ⟨k, v⟩ := entry
    obtain ⟨hfirst, hrest⟩ := List.nodup_cons.mp h
    rw [get?]
    rcases List.mem_cons.mp hm with he | hm
    · obtain ⟨rfl, rfl⟩ := Prod.mk.inj he
      exact if_pos rfl
    · have hk : k ≠ key := by
        rintro rfl
        exact hfirst (List.mem_map.mpr ⟨_, hm, rfl⟩)
      rw [if_neg hk, ih hrest hm]

theorem last?_eq_some_iff {entries : List (κ × α)} (h : (entries.map Prod.fst).Nodup) :
    last? entries key = some value ↔ (key, value) ∈ entries := by
  have hreverse : (entries.reverse.map Prod.fst).Nodup := by
    rw [List.map_reverse]
    exact (List.reverse_perm _).nodup_iff.mpr h
  rw [last?, get?_eq_some_iff hreverse, List.mem_reverse]

theorem last?_perm {entries entries' : List (κ × α)} (hp : entries.Perm entries')
    (h : (entries.map Prod.fst).Nodup) (key : κ) : last? entries key = last? entries' key := by
  have h' : (entries'.map Prod.fst).Nodup := (hp.map Prod.fst).nodup_iff.mp h
  ext value
  rw [last?_eq_some_iff h, last?_eq_some_iff h', hp.mem_iff]

theorem last?_append_cons {before after : List (κ × α)} (h : ∀ entry ∈ after, entry.1 ≠ key) :
    last? (before ++ (key, value) :: after) key = some value := by
  have hnone : get? after.reverse key = none :=
    get?_eq_none_iff.mpr fun entry he => h entry (List.mem_reverse.mp he)
  rw [last?, List.reverse_append, List.reverse_cons, List.append_assoc, get?_append, hnone]
  simp [get?]

variable [LT κ]

/-- Every key is smaller than those after it. -/
def Ascending (table : Table κ α) : Prop :=
  table.Pairwise fun entry entry' => entry.1 < entry'.1

theorem get?_of_lt_keys [Std.Irrefl (α := κ) (· < ·)] (h : ∀ entry ∈ table, key < entry.1) :
    get? table key = none := by
  rw [get?_eq_none_iff]
  rintro entry he rfl
  exact Std.Irrefl.irrefl _ (h entry he)

theorem Ascending.get?_of_lt [Trans (α := κ) (· < ·) (· < ·) (· < ·)]
    [Std.Irrefl (α := κ) (· < ·)] (h : Ascending ((key, value) :: table)) {k : κ}
    (hk : k < key) : get? ((key, value) :: table) k = none := by
  refine get?_of_lt_keys (List.forall_mem_cons.mpr ⟨hk, fun entry he => ?_⟩)
  exact Trans.trans hk ((List.pairwise_cons.mp h).1 entry he)

/-- Ascending tables with the same values at all keys are the same. -/
theorem Ascending.ext [Trans (α := κ) (· < ·) (· < ·) (· < ·)]
    [Std.Trichotomous (α := κ) (· < ·)] [Std.Irrefl (α := κ) (· < ·)] (h : Ascending table)
    (h' : Ascending table') (hget : ∀ key, get? table key = get? table' key) : table = table' := by
  induction table generalizing table' with
  | nil =>
    cases table' with
    | nil => rfl
    | cons entry table' => simpa [get?] using hget entry.1
  | cons entry table ih =>
    obtain ⟨k, v⟩ := entry
    cases table' with
    | nil => simpa [get?] using hget k
    | cons entry' table' =>
      obtain ⟨k', v'⟩ := entry'
      have hkey : k = k' := by
        refine Std.Trichotomous.trichotomous (r := (· < ·)) k k' (fun hlt => ?_) fun hlt => ?_
        · have hnone := h'.get?_of_lt hlt
          rw [← hget] at hnone
          simp [get?] at hnone
        · have hnone := h.get?_of_lt hlt
          rw [hget] at hnone
          simp [get?] at hnone
      subst hkey
      have hvalue : v = v' := by simpa [get?] using hget k
      subst hvalue
      obtain ⟨hfirst, hrest⟩ := List.pairwise_cons.mp h
      obtain ⟨hfirst', hrest'⟩ := List.pairwise_cons.mp h'
      refine congrArg _ (ih hrest hrest' fun key => ?_)
      by_cases hk : k = key
      · subst hk
        rw [get?_of_lt_keys hfirst, get?_of_lt_keys hfirst']
      · simpa [get?, hk] using hget key

variable [DecidableLT κ]

theorem get?_insertAscending (table : Table κ α) (key k : κ) (value : α) :
    get? (insertAscending key value table) k = if k = key then some value else get? table k := by
  induction table with
  | nil => by_cases h : key = k <;> simp [insertAscending, get?, h, eq_comm]
  | cons entry table ih =>
    obtain ⟨k', v⟩ := entry
    rw [insertAscending]
    split
    · by_cases h : key = k
      · simp [get?, h]
      · simp [get?, h, Ne.symm h]
    · split
      · rename_i hk
        subst hk
        by_cases h : k' = k
        · simp [get?, h]
        · simp [get?, h, Ne.symm h]
      · rename_i hk
        by_cases h : k' = k
        · subst h
          simp [get?, hk]
        · simp [get?, h, ih]

/-- The table with the entries of another one, which take precedence. -/
def override (table other : Table κ α) : Table κ α :=
  other.foldr (fun entry t => insertAscending entry.1 entry.2 t) table

theorem get?_override (table other : Table κ α) (key : κ) :
    get? (override table other) key = (get? other key).or (get? table key) := by
  induction other with
  | nil => rfl
  | cons entry other ih =>
    obtain ⟨k, v⟩ := entry
    change get? (insertAscending k v (override table other)) key = _
    rw [get?_insertAscending, ih]
    by_cases h : k = key
    · simp [get?, h]
    · simp [get?, h, Ne.symm h]

variable [Trans (α := κ) (· < ·) (· < ·) (· < ·)] [Std.Trichotomous (α := κ) (· < ·)]

theorem Ascending.insertAscending (h : Ascending table) (key : κ) (value : α) :
    Ascending (insertAscending key value table) := by
  induction table with
  | nil => exact List.pairwise_singleton ..
  | cons entry table ih =>
    obtain ⟨k, v⟩ := entry
    obtain ⟨hfirst, hrest⟩ := List.pairwise_cons.mp h
    rw [Table.insertAscending]
    split
    · rename_i hlt
      refine .cons (List.forall_mem_cons.mpr ⟨hlt, fun entry he => ?_⟩) h
      exact Trans.trans hlt (hfirst entry he)
    · rename_i hlt
      split
      · rename_i hk
        subst hk
        exact .cons hfirst hrest
      · rename_i hk
        refine .cons (fun entry he => ?_) (ih hrest)
        rcases mem_insertAscending he with rfl | he
        · refine Decidable.byContradiction fun hge => ?_
          exact hk (Std.Trichotomous.trichotomous _ _ hge hlt)
        · exact hfirst entry he

theorem Ascending.override (h : Ascending table) (other : Table κ α) :
    Ascending (override table other) := by
  induction other with
  | nil => exact h
  | cons entry other ih => exact ih.insertAscending entry.1 entry.2

/-- Of several tables, the last one with a key takes precedence, however they are put together. -/
theorem override_assoc [Std.Irrefl (α := κ) (· < ·)] (h : Ascending table)
    (second third : Table κ α) :
    (table.override second).override third = table.override (second.override third) := by
  refine Ascending.ext ((h.override second).override third) (h.override _) fun key => ?_
  simp only [get?_override, Option.or_assoc]

theorem insertAscending_override [Std.Irrefl (α := κ) (· < ·)] (h : Ascending table)
    (second : Table κ α) (key : κ) (value : α) :
    Table.insertAscending key value (table.override second) =
      table.override (Table.insertAscending key value second) :=
  override_assoc h second [(key, value)]

end Parley.Table
