import Parley.Proofs.Grammar.Block
import Parley.Proofs.Surface.Call
import Parley.Proofs.Table

/-! # Fields of blocks

A block of entries sets the fields of a record. Where all entries are valid, each field
has the value of the last entry with its key, so the order of entries with different
keys does not matter. Otherwise the first entry that is not valid decides the error.
-/

namespace Parley

/-- Blanks around an entry belong neither to its key nor to its value. -/
theorem splitPair?_trim (text : Text) : splitPair? text.trim = splitPair? text := by
  obtain ⟨s, t, he, hs, ht⟩ := Text.exists_pad text
  generalize text.trim = u at he
  subst he
  have hcut : (Text.cut? '=' (s ++ u ++ t)).map trimPair = (Text.cut? '=' u).map trimPair := by
    have hs' : '=' ∉ s := not_mem_of_blank rfl hs
    have ht' : '=' ∉ t := not_mem_of_blank rfl ht
    cases hc : Text.cut? '=' u with
    | none =>
      have hu := Text.cut?_eq_none_iff.mp hc
      rw [Text.cut?_eq_none_iff.mpr (by simp [hs', hu, ht'])]
    | some halves =>
      obtain ⟨before, after⟩ := halves
      obtain ⟨rfl, hb⟩ := Text.cut?_eq_some_iff.mp hc
      have hpad : s ++ (before ++ '=' :: after) ++ t = (s ++ before) ++ '=' :: (after ++ t) := by
        simp
      have hbefore : Text.trim (s ++ before) = before.trim := by
        simpa using Text.trim_pad (t := []) hs (by simp) before
      have hafter : Text.trim (after ++ t) = after.trim := by
        simpa using Text.trim_pad (s := []) (by simp) ht after
      rw [hpad, Text.cut?_eq_some_iff.mpr ⟨rfl, by simp [hs', hb]⟩]
      simp [trimPair, hbefore, hafter]
  rw [splitPair?, splitPair?, hcut]

theorem keyValues_map_trim (entries : List Text) :
    keyValues (entries.map Text.trim) = keyValues entries := by
  rw [keyValues, List.filterMap_map]
  exact List.filterMap_congr fun text _ => splitPair?_trim text

namespace Grammar

section Faults

variable {α : Type} {fields : Table Text (Text → Option (α → α))}
  {unsupported invalid : Text → Text → Cause} {entry : Text}

theorem fault?_trim_eq_none_iff :
    fault? fields unsupported invalid entry.trim = none ↔
      fault? fields unsupported invalid entry = none := by
  rw [fault?_eq_none_iff, fault?_eq_none_iff, splitPair?_trim]

/-- A block is read entry by entry, and the last entry of each key counts. -/
structure Overrides (read : Text → Except Cause α) (fault : Text → Option Cause)
    (make : List (Text × Text) → α) : Prop where
  /-- An entry with which nothing is wrong is whole. -/
  isEntry : ∀ entry, fault entry = none → IsEntry entry
  /-- Valid entries make up the record of their keys and values. -/
  valid : ∀ entries : List Text, (∀ entry ∈ entries, fault entry = none) →
    read (.join [','] entries) = .ok (make (keyValues entries))
  /-- The order of valid entries with different keys does not matter. -/
  perm : ∀ entries entries' : List Text, (∀ entry ∈ entries, fault entry = none) →
    ((keyValues entries).map Prod.fst).Nodup → entries.Perm entries' →
    read (.join [','] entries') = read (.join [','] entries)
  /-- The first entry with which something is wrong decides the error. -/
  error : ∀ (entries : List Text) (cause : Cause), (∀ entry ∈ entries, IsEntry entry) →
    entries.findSome? (fun entry => fault entry.trim) = some cause →
    read (.join [','] entries) = .error cause

theorem Follows.foldEntries_join {make : List (Text × Text) → α} (h : Follows make fields)
    {entries : List Text} (he : ∀ entry ∈ entries, IsEntry entry) :
    foldEntries (setField fields unsupported invalid) (make []) (.join [','] entries) =
      (entries.findSome? fun entry => fault? fields unsupported invalid entry.trim).elim
        (.ok (make (keyValues entries))) .error := by
  rw [h.foldEntries_eq, splitTopLevel_join he, List.findSome?_map, keyValues_map_trim]
  rfl

theorem Follows.overrides {make : List (Text × Text) → α} (h : Follows make fields)
    (hk : KeepsEntries fields)
    (hl : ∀ pairs pairs', (∀ key, Table.last? pairs key = Table.last? pairs' key) →
      make pairs = make pairs') :
    Overrides (foldEntries (setField fields unsupported invalid) (make []))
      (fault? fields unsupported invalid) make := by
  have hvalid : ∀ entries : List Text,
      (∀ entry ∈ entries, fault? fields unsupported invalid entry = none) →
      foldEntries (setField fields unsupported invalid) (make []) (.join [','] entries) =
        .ok (make (keyValues entries)) := by
    intro entries he
    have hnone : entries.findSome? (fun entry =>
        fault? fields unsupported invalid entry.trim) = none :=
      List.findSome?_eq_none_iff.mpr fun entry hm => fault?_trim_eq_none_iff.mpr (he entry hm)
    rw [h.foldEntries_join fun entry hm => hk.isEntry (he entry hm), hnone, Option.elim_none]
  refine ⟨fun entry => hk.isEntry, hvalid, fun entries entries' he hn hp => ?_,
    fun entries cause he hc => ?_⟩
  · have he' : ∀ entry ∈ entries', fault? fields unsupported invalid entry = none :=
      fun entry hm => he entry (hp.mem_iff.mpr hm)
    have hpairs : (keyValues entries).Perm (keyValues entries') := hp.filterMap splitPair?
    rw [hvalid entries he, hvalid entries' he', hl _ _ (Table.last?_perm hpairs hn)]
  · rw [h.foldEntries_join he, hc, Option.elim_some]

end Faults

end Grammar

/-- The realization data in which each field has the value of the last entry with its key. -/
def Realization.ofKeyValues (pairs : List (Text × Text)) : Realization where
  speaker := (Table.last? pairs "speaker").bind Speaker.ofToken?
  perceptionConfidence := (Table.last? pairs "perception_confidence").bind Binary64.ofText?
  understandingConfidence := (Table.last? pairs "understanding_confidence").bind Binary64.ofText?
  utterance := (Table.last? pairs "utterance").bind unquote?
  dddName := (Table.last? pairs "ddd_name").bind unquote?

/-- The options in which each field has the value of the last entry with its key. -/
def ServiceActionOptions.ofKeyValues (pairs : List (Text × Text)) : ServiceActionOptions where
  preconfirm := (Table.last? pairs "preconfirm").bind Preconfirmation.ofToken?
  postconfirm := ((Table.last? pairs "postconfirm").bind Grammar.boolean?).getD false
  downdatePlan := ((Table.last? pairs "downdate_plan").bind Grammar.boolean?).getD true

namespace Grammar

theorem realization_follows : Follows Realization.ofKeyValues realizationFields := by
  intro pairs key value field update hf hv
  have hmem := Table.mem_of_get? hf
  simp only [realizationFields, List.mem_cons, Prod.mk.injEq, List.not_mem_nil, or_false] at hmem
  rcases hmem with ⟨rfl, rfl⟩ | ⟨rfl, rfl⟩ | ⟨rfl, rfl⟩ | ⟨rfl, rfl⟩ | ⟨rfl, rfl⟩ <;>
    obtain ⟨found, hfound, rfl⟩ := Option.map_eq_some_iff.mp hv <;>
    simp (disch := decide) only [Realization.ofKeyValues, Table.last?_concat_self,
      Table.last?_concat_of_ne, Option.bind_some, hfound]

theorem options_follow : Follows ServiceActionOptions.ofKeyValues optionFields := by
  intro pairs key value field update hf hv
  have hmem := Table.mem_of_get? hf
  simp only [optionFields, List.mem_cons, Prod.mk.injEq, List.not_mem_nil, or_false] at hmem
  rcases hmem with ⟨rfl, rfl⟩ | ⟨rfl, rfl⟩ | ⟨rfl, rfl⟩ <;>
    obtain ⟨found, hfound, rfl⟩ := Option.map_eq_some_iff.mp hv <;>
    simp (disch := decide) only [ServiceActionOptions.ofKeyValues, Table.last?_concat_self,
      Table.last?_concat_of_ne, Option.bind_some, Option.getD_some, hfound]

/-- What is wrong with an entry of realization data. -/
def realizationFault? : Text → Option Cause :=
  fault? realizationFields (fun key _ => .unsupportedRealizationData key) .invalidRealizationData

def optionFault? : Text → Option Cause :=
  fault? optionFields .unsupportedParameter .invalidParameter

theorem realizationData_overrides :
    Overrides realizationData realizationFault? Realization.ofKeyValues :=
  realization_follows.overrides realizationFields_keepsEntries fun pairs pairs' h => by
    simp only [Realization.ofKeyValues, h]

theorem serviceActionOptions_overrides :
    Overrides serviceActionOptions optionFault? ServiceActionOptions.ofKeyValues :=
  options_follow.overrides optionFields_keepsEntries fun pairs pairs' h => by
    simp only [ServiceActionOptions.ofKeyValues, h]

/-- The entry of a key with a text between double quotes. -/
def quotedEntry (key text : Text) : Text :=
  key ++ '=' :: '"' :: text ++ ['"']

theorem splitPair?_quotedEntry {key : Text} (hk : key.mark = none) (hn : key ≠ []) (text : Text) :
    splitPair? (quotedEntry key text) = some (key, '"' :: text ++ ['"']) := by
  have hequals : '=' ∉ key := by
    intro hm
    cases mark_eq_none_iff.mp hk '=' hm
  have hentry : quotedEntry key text = key ++ '=' :: ('"' :: text ++ ['"']) := by
    simp [quotedEntry]
  have htrim : Text.trim ('"' :: text ++ ['"']) = '"' :: text ++ ['"'] :=
    Text.trim_enclosed rfl rfl text
  rw [hentry, splitPair?, Text.cut?_eq_some_iff.mpr ⟨rfl, hequals⟩, Option.map_some, trimPair,
    Text.trim_of_mark hk, htrim]
  simp [hn]

theorem unquote?_doubleQuoted {text : Text} (h : '"' ∉ text) :
    unquote? ('"' :: text ++ ['"']) = some text := by
  rw [unquote?, quotedBy?_eq_some_iff.mpr ⟨rfl, h⟩]
  rfl

/-- The fields of realization data that hold a quoted text. -/
inductive QuotedField
  | utterance
  | dddName

namespace QuotedField

def key : QuotedField → Text
  | utterance => "utterance"
  | dddName => "ddd_name"

def get : QuotedField → Realization → Option Text
  | utterance => Realization.utterance
  | dddName => Realization.dddName

def set : QuotedField → Text → Realization → Realization
  | utterance, text, data => { data with utterance := some text }
  | dddName, text, data => { data with dddName := some text }

theorem get_ofKeyValues (field : QuotedField) (pairs : List (Text × Text)) :
    field.get (.ofKeyValues pairs) = (Table.last? pairs field.key).bind unquote? := by
  cases field <;> rfl

theorem splitPair?_entry (field : QuotedField) (text : Text) :
    splitPair? (quotedEntry field.key text) = some (field.key, '"' :: text ++ ['"']) := by
  cases field <;> exact splitPair?_quotedEntry rfl (by decide) text

theorem fault?_quotedEntry (field : QuotedField) {text : Text} (h : '"' ∉ text) :
    realizationFault? (quotedEntry field.key text) = none := by
  refine fault?_eq_none_iff.mpr ⟨field.key, _, fun text => (unquote? text).map field.set,
    field.splitPair?_entry text, by cases field <;> rfl, ?_⟩
  simp only [unquote?_doubleQuoted h, Option.map_some, Option.isSome_some]

theorem realizationData_quotedEntry (field : QuotedField) {text : Text} (h : '"' ∉ text)
    {before after : List Text} (he : ∀ entry ∈ before ++ after, realizationFault? entry = none)
    (hl : ∀ pair ∈ keyValues after, pair.1 ≠ field.key) :
    ∃ data, realizationData (.join [','] (before ++ quotedEntry field.key text :: after)) =
      .ok data ∧ field.get data = some text := by
  have hvalid : ∀ entry ∈ before ++ quotedEntry field.key text :: after,
      realizationFault? entry = none := by
    intro entry hm
    rcases List.mem_append.mp hm with hm | hm
    · exact he entry (List.mem_append_left _ hm)
    · rcases List.mem_cons.mp hm with rfl | hm
      · exact field.fault?_quotedEntry h
      · exact he entry (List.mem_append_right _ hm)
  have hlast : Table.last? (keyValues (before ++ quotedEntry field.key text :: after)) field.key =
      some ('"' :: text ++ ['"']) := by
    rw [keyValues, List.filterMap_append, List.filterMap_cons_some (field.splitPair?_entry text)]
    exact Table.last?_append_cons hl
  refine ⟨_, realizationData_overrides.valid _ hvalid, ?_⟩
  rw [field.get_ofKeyValues, hlast]
  exact unquote?_doubleQuoted h

end QuotedField

end Grammar

end Parley
