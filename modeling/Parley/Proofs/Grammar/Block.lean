import Parley.Grammar.Block
import Parley.Proofs.Surface.Split

/-! # Blocks of realization data and of options

Every entry of a block that gives realization data or options has a known key, and a
value that is a token, a number or a quoted text. No bracket and no comma stands in it
outside quotes, so entries stay whole in a block, the block is balanced, and blanks
around it change nothing. A block fails with what is wrong with one of its entries.
-/

namespace Parley

variable {text : Text} {c : Char}

/-- The characters that change how deep the scanner stands, and the comma. -/
def separators : List Char :=
  ',' :: delimiters

theorem forall_mem_separators {P : Char → Prop} :
    (∀ c ∈ separators, P c) ↔
      P ',' ∧ P '"' ∧ P '\'' ∧ P '(' ∧ P '[' ∧ P '{' ∧ P ')' ∧ P ']' ∧ P '}' := by
  simp [separators, delimiters]

theorem not_separator_of_all (h : text.all (fun c => !separators.contains c) = true) :
    ∀ c ∈ text, c ∉ separators := by
  simpa using h

theorem not_separator_of_isDigit (h : c.isDigit = true) : c ∉ separators := by
  intro hm
  have hall : ∀ d ∈ separators, d.isDigit = false := forall_mem_separators.mpr (by decide)
  simp [hall c hm] at h

namespace DecimalNumeral

theorem exponentOf?_not_separator {e : Int} :
    exponentOf? text = some e → ∀ c ∈ text, c ∉ separators := by
  fun_cases exponentOf? text with
  | case1 => simp
  | case2 negative digits hs hn value =>
    intro _
    simp only [Bool.or_eq_true, Bool.not_eq_true', not_or, Bool.not_eq_false,
      List.all_eq_true] at hn
    have hdigits : ∀ c ∈ digits, c ∉ separators := fun c hc => not_separator_of_isDigit (hn.2 c hc)
    split at hs <;> obtain ⟨-, rfl⟩ := Prod.mk.inj hs
    · exact List.forall_mem_cons.mpr ⟨by decide, hdigits⟩
    · exact List.forall_mem_cons.mpr ⟨by decide, hdigits⟩
    · exact hdigits

theorem read?_not_separator {d : DecimalNumeral} :
    read? text = some d → ∀ c ∈ text, c ∉ separators := by
  have hdigits : ∀ t : Text, ∀ c ∈ t.takeWhile Char.isDigit, c ∉ separators := by
    intro t c hc
    exact not_separator_of_isDigit (List.mem_takeWhile_imp hc)
  have hwhole : ∀ {rest : Text}, text.dropWhile Char.isDigit = rest →
      (∀ c ∈ rest, c ∉ separators) → ∀ c ∈ text, c ∉ separators := by
    rintro rest rfl hrest
    rw [← List.takeWhile_append_dropWhile (p := Char.isDigit) (l := text), List.forall_mem_append]
    exact ⟨hdigits text, hrest⟩
  have hpoint : ∀ {after : Text}, text.dropWhile Char.isDigit = '.' :: after →
      (∀ c ∈ after.dropWhile Char.isDigit, c ∉ separators) → ∀ c ∈ text, c ∉ separators := by
    intro after hafter hrest
    apply hwhole hafter
    rw [List.forall_mem_cons,
      ← List.takeWhile_append_dropWhile (p := Char.isDigit) (l := after), List.forall_mem_append]
    exact ⟨by decide, hdigits after, hrest⟩
  fun_cases read? text with
  | case1 => simp
  | case2 whole tail fraction hn hs =>
    intro _
    have htail : text.dropWhile Char.isDigit = tail := rfl
    clear_value tail
    split at hs <;> obtain ⟨-, hr⟩ := Prod.mk.inj hs
    · exact hpoint htail (by simp [hr])
    · exact hwhole htail (by simp [hr])
  | case3 whole tail fraction hn c exponent hc hs =>
    intro h
    obtain ⟨e, he, -⟩ := Option.map_eq_some_iff.mp h
    have hexponent : ∀ b ∈ c :: exponent, b ∉ separators := by
      refine List.forall_mem_cons.mpr ⟨?_, exponentOf?_not_separator he⟩
      simp only [Bool.or_eq_true, decide_eq_true_eq] at hc
      rcases hc with rfl | rfl <;> decide
    have htail : text.dropWhile Char.isDigit = tail := rfl
    clear_value tail
    split at hs <;> obtain ⟨-, hr⟩ := Prod.mk.inj hs
    · exact hpoint htail (hr ▸ hexponent)
    · exact hwhole htail (hr ▸ hexponent)
  | case4 => simp

end DecimalNumeral

namespace Binary64

theorem equalsFolded_not_separator {word : Text} (h : text.equalsFolded word = true)
    (hw : ∀ d ∈ separators, d ∉ word.map Char.toLower) : ∀ c ∈ text, c ∉ separators := by
  intro c hc hd
  have hlower : ∀ d ∈ separators, d.toLower = d := forall_mem_separators.mpr (by decide)
  have hmem := List.mem_map_of_mem (f := Char.toLower) hc
  rw [beq_iff_eq.mp h, hlower c hd] at hmem
  exact hw c hd hmem

theorem magnitudeOf?_not_separator {n : Nat} (h : magnitudeOf? text = some n) :
    ∀ c ∈ text, c ∉ separators := by
  unfold magnitudeOf? at h
  split at h
  · exact DecimalNumeral.read?_not_separator ‹_›
  · unfold magnitudeOfWord? at h
    split at h
    · rename_i hw
      rcases Bool.or_eq_true_iff.mp hw with hw | hw
      · exact equalsFolded_not_separator hw (forall_mem_separators.mpr (by decide))
      · exact equalsFolded_not_separator hw (forall_mem_separators.mpr (by decide))
    · split at h
      · rename_i hw
        exact equalsFolded_not_separator hw (forall_mem_separators.mpr (by decide))
      · cases h

theorem ofText?_not_separator {x : Binary64} (h : ofText? text = some x) :
    ∀ c ∈ text, c ∉ separators := by
  unfold ofText? at h
  split at h <;> obtain ⟨n, hn, -⟩ := Option.map_eq_some_iff.mp h
  · exact List.forall_mem_cons.mpr ⟨by decide, magnitudeOf?_not_separator hn⟩
  · exact List.forall_mem_cons.mpr ⟨by decide, magnitudeOf?_not_separator hn⟩
  · exact magnitudeOf?_not_separator hn

end Binary64

/-- A value that leaves an entry whole: it is balanced, and no comma divides it. -/
structure IsWhole (value : Text) : Prop where
  balanced : isBalanced value = true
  undivided : splitFirst? ',' value = none

theorem IsWhole.of_not_separator (h : ∀ c ∈ text, c ∉ separators) : IsWhole text where
  balanced := isBalanced_of_not_delimiter fun c hc hd => h c hc (List.mem_cons_of_mem _ hd)
  undivided := by
    rw [splitFirst?, Nesting.cutFirst?_of_not_mem fun hm => h ',' hm List.mem_cons_self]
    rfl

theorem IsWhole.of_unquote? {inner : Text} (h : unquote? text = some inner) : IsWhole text := by
  have hquoted : ∀ {q : Char}, q ∈ ['"', '\''] → quotedBy? q text = some inner → IsWhole text := by
    intro q hq hi
    obtain ⟨rfl, hn⟩ := quotedBy?_eq_some_iff.mp hi
    simp only [List.mem_cons, List.not_mem_nil, or_false] at hq
    have hs : q ≠ ',' := by rcases hq with rfl | rfl <;> decide
    refine ⟨isBalanced_quoted (by simpa using hq) hn, ?_⟩
    rw [splitFirst?, List.cons_append,
      Nesting.cutFirst?_quoted hs rfl (hq.imp_right fun h => ⟨h, rfl⟩) hn]
    rfl
  rcases Option.or_eq_some_iff.mp h with h | ⟨-, h⟩
  · exact hquoted (by simp) h
  · exact hquoted (by simp) h

theorem splitPair?_eq_some {key value : Text} (h : splitPair? text = some (key, value)) :
    ∃ before after : Text,
      text = before ++ '=' :: after ∧ key = before.trim ∧ value = after.trim := by
  obtain ⟨hp, -⟩ := Option.filter_eq_some_iff.mp h
  obtain ⟨⟨before, after⟩, hc, he⟩ := Option.map_eq_some_iff.mp hp
  obtain ⟨rfl, rfl⟩ := Prod.mk.inj he
  obtain ⟨rfl, -⟩ := Text.cut?_eq_some_iff.mp hc
  exact ⟨before, after, rfl, rfl, rfl⟩

/-- A key without brackets, quotes and commas and a value that is whole make up an entry. -/
theorem isEntry_of_splitPair? {key value : Text} (h : splitPair? text = some (key, value))
    (hk : ∀ c ∈ key, c ∉ separators) (hv : IsWhole value) : IsEntry text := by
  obtain ⟨before, after, rfl, rfl, rfl⟩ := splitPair?_eq_some h
  have hkey : IsWhole before.trim := .of_not_separator hk
  have hbefore : isBalanced before = true := isBalanced_of_trim hkey.balanced
  obtain ⟨halike, -⟩ := alike_after hbefore (c := '=') rfl (by decide)
  refine ⟨Text.isBlankText_eq_false_iff.mpr ⟨before, '=', after, rfl, rfl⟩, ?_, ?_⟩
  · rw [isBalanced_append_cons hbefore rfl (by decide)]
    exact isBalanced_of_trim hv.balanced
  · have hb := (splitFirst?_trim_eq_none_iff rfl).mp hkey.undivided
    have ha := (splitFirst?_trim_eq_none_iff rfl).mp hv.undivided
    rw [splitFirst?, Option.map_eq_none_iff] at hb ha ⊢
    refine Nesting.cutFirst?_append_eq_none_iff.mpr ⟨hb, ?_⟩
    rw [Nesting.cutFirst?, if_neg (by simp), halike.cutFirst?, ha]
    rfl

/-- The keys and values of the entries that have both. -/
def keyValues (entries : List Text) : List (Text × Text) :=
  entries.filterMap splitPair?

namespace Grammar

section Entries

variable {α : Type} (fields : Table Text (Text → Option (α → α)))
  (unsupported invalid : Text → Text → Cause)

/-- What is wrong with an entry: it has no key and value, its key is unknown, or its value is not
one that the field takes. -/
def fault? (entry : Text) : Option Cause :=
  match splitPair? entry with
  | none => some (.malformedParameter entry)
  | some (key, value) =>
    match fields.get? key with
    | none => some (unsupported key value)
    | some field => if (field value).isSome then none else some (invalid key value)

variable {fields unsupported invalid} {entry : Text}

theorem fault?_eq_none_iff :
    fault? fields unsupported invalid entry = none ↔ ∃ key value field,
      splitPair? entry = some (key, value) ∧ fields.get? key = some field ∧
        (field value).isSome := by
  rw [fault?]
  cases splitPair? entry with
  | none => simp
  | some pair =>
    obtain ⟨key, value⟩ := pair
    cases hf : fields.get? key with
    | none => simp [hf]
    | some field => simp [hf, Option.isSome_iff_ne_none]

/-- A record made of keys and values follows the fields: one more key and value at the end is one
more update. -/
def Follows (make : List (Text × Text) → α) (fields : Table Text (Text → Option (α → α))) : Prop :=
  ∀ pairs key value field update, fields.get? key = some field → field value = some update →
    make (pairs ++ [(key, value)]) = update (make pairs)

/-- The first entry with which something is wrong decides the error, and without one the record is
the one that the keys and values make. -/
theorem Follows.foldEntries_eq {make : List (Text × Text) → α} (h : Follows make fields)
    (block : Text) :
    foldEntries (setField fields unsupported invalid) (make []) block =
      ((splitTopLevel ',' block).findSome? (fault? fields unsupported invalid)).elim
        (.ok (make (keyValues (splitTopLevel ',' block)))) .error := by
  rw [foldEntries, ← List.nil_append (keyValues _)]
  generalize splitTopLevel ',' block = entries
  -- The induction is on the entries, with the keys and values of those before them.
  generalize ([] : List (Text × Text)) = pairs
  induction entries generalizing pairs with
  | nil =>
    rw [keyValues, List.filterMap_nil, List.append_nil]
    rfl
  | cons entry entries ih =>
    rw [List.foldlM_cons, List.findSome?_cons, fault?]
    cases hp : splitPair? entry with
    | none => rfl
    | some pair =>
      obtain ⟨key, value⟩ := pair
      cases hf : fields.get? key with
      | none => simp [setField, hf, bind, Except.bind]
      | some field =>
        cases hv : field value with
        | none => simp [setField, hf, hv, bind, Except.bind]
        | some update =>
          have hnext := ih (pairs ++ [(key, value)])
          rw [h pairs key value field update hf hv] at hnext
          simpa [setField, hf, hv, bind, Except.bind, keyValues, hp] using hnext

def updated (fields : Table Text (Text → Option (α → α))) (start : α)
    (pairs : List (Text × Text)) : α :=
  pairs.foldl (fun a pair => ((fields.get? pair.1).bind (· pair.2)).elim a (· a)) start

theorem updated_follows (start : α) : Follows (updated fields start) fields := by
  intro pairs key value field update hf hv
  simp [updated, hf, hv]

variable {start a : α} {block : Text} {cause : Cause}

theorem foldEntries_eq_updated : foldEntries (setField fields unsupported invalid) start block =
    ((splitTopLevel ',' block).findSome? (fault? fields unsupported invalid)).elim
      (.ok (updated fields start (keyValues (splitTopLevel ',' block)))) .error :=
  (updated_follows start).foldEntries_eq block

theorem fault?_of_foldEntries_ok
    (h : foldEntries (setField fields unsupported invalid) start block = .ok a) :
    ∀ entry ∈ splitTopLevel ',' block, fault? fields unsupported invalid entry = none := by
  rw [← List.findSome?_eq_none_iff]
  rw [foldEntries_eq_updated] at h
  cases hf : (splitTopLevel ',' block).findSome? (fault? fields unsupported invalid) with
  | none => rfl
  | some found =>
    rw [hf] at h
    cases h

theorem fault?_of_foldEntries_error
    (h : foldEntries (setField fields unsupported invalid) start block = .error cause) :
    ∃ entry ∈ splitTopLevel ',' block, fault? fields unsupported invalid entry = some cause := by
  apply List.exists_of_findSome?_eq_some
  rw [foldEntries_eq_updated] at h
  cases hf : (splitTopLevel ',' block).findSome? (fault? fields unsupported invalid) with
  | none =>
    rw [hf] at h
    cases h
  | some found =>
    rw [hf] at h
    rw [Except.error.inj h]

/-- The keys of fields and the values that they take leave an entry whole. -/
def KeepsEntries (fields : Table Text (Text → Option (α → α))) : Prop :=
  ∀ key field value, fields.get? key = some field → (field value).isSome →
    (∀ c ∈ key, c ∉ separators) ∧ IsWhole value

theorem KeepsEntries.isEntry (h : KeepsEntries fields)
    (he : fault? fields unsupported invalid entry = none) : IsEntry entry := by
  obtain ⟨key, value, field, hp, hf, hv⟩ := fault?_eq_none_iff.mp he
  obtain ⟨hk, hw⟩ := h key field value hf hv
  exact isEntry_of_splitPair? hp hk hw

end Entries

theorem realizationFields_keepsEntries : KeepsEntries realizationFields := by
  intro key field value hf hv
  have hmem := Table.mem_of_get? hf
  simp only [realizationFields, List.mem_cons, Prod.mk.injEq, List.not_mem_nil, or_false] at hmem
  rcases hmem with ⟨rfl, rfl⟩ | ⟨rfl, rfl⟩ | ⟨rfl, rfl⟩ | ⟨rfl, rfl⟩ | ⟨rfl, rfl⟩ <;>
    rw [Option.isSome_map] at hv <;>
    obtain ⟨found, hfound⟩ := Option.isSome_iff_exists.mp hv <;>
    refine ⟨not_separator_of_all rfl, ?_⟩
  · rw [Speaker.ofToken?_eq_some_iff.mp hfound]
    cases found <;> exact .of_not_separator (not_separator_of_all rfl)
  · exact .of_not_separator (Binary64.ofText?_not_separator hfound)
  · exact .of_not_separator (Binary64.ofText?_not_separator hfound)
  · exact .of_unquote? hfound
  · exact .of_unquote? hfound

theorem optionFields_keepsEntries : KeepsEntries optionFields := by
  have hboolean : ∀ {text : Text} {b : Bool}, boolean? text = some b → IsWhole text := by
    intro text b h
    unfold boolean? at h
    split at h
    · rename_i hw
      exact .of_not_separator
        (Binary64.equalsFolded_not_separator hw (forall_mem_separators.mpr (by decide)))
    · split at h
      · rename_i hw
        exact .of_not_separator
          (Binary64.equalsFolded_not_separator hw (forall_mem_separators.mpr (by decide)))
      · cases h
  intro key field value hf hv
  have hmem := Table.mem_of_get? hf
  simp only [optionFields, List.mem_cons, Prod.mk.injEq, List.not_mem_nil, or_false] at hmem
  rcases hmem with ⟨rfl, rfl⟩ | ⟨rfl, rfl⟩ | ⟨rfl, rfl⟩ <;>
    rw [Option.isSome_map] at hv <;>
    obtain ⟨found, hfound⟩ := Option.isSome_iff_exists.mp hv <;>
    refine ⟨not_separator_of_all rfl, ?_⟩
  · unfold Preconfirmation.ofToken? at hfound
    split at hfound
    · rename_i ht
      exact ht ▸ .of_not_separator (not_separator_of_all rfl)
    · split at hfound
      · rename_i ht
        exact ht ▸ .of_not_separator (not_separator_of_all rfl)
      · cases hfound
  · exact hboolean hfound
  · exact hboolean hfound

theorem isBalanced_of_realizationData {block : Text} {data : Realization}
    (hn : block.isBlankText = false) (h : realizationData block = .ok data) :
    isBalanced block = true := by
  refine isBalanced_of_splitTopLevel (fun entry he => ?_) hn
  exact (realizationFields_keepsEntries.isEntry (fault?_of_foldEntries_ok h entry he)).balanced

theorem realizationData_trim (block : Text) :
    realizationData block.trim = realizationData block := by
  rw [realizationData, realizationData, foldEntries, foldEntries, splitTopLevel_trim rfl]

end Grammar

end Parley
