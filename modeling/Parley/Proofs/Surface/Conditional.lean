import Parley.Proofs.Surface.Cut

/-! # The parts of conditionals

A conditional is cut at the last ` else ` and, before that, at the last ` then `, where a
blank is added at the end of the text that is searched. The cuts are found exactly where
the parts of a conditional say: in each branch, with a blank on both sides, its keyword
does not stand again. Found by their positions in bytes, the cuts lie between characters
of the text without that blank.
-/

namespace Parley

namespace Text

variable {pattern text before after s t : Text} {c : Char}

theorem isInfix_of_not_mem (hc : c ∉ s) (h : c :: pattern <:+: s ++ t) : c :: pattern <:+: t := by
  induction s with
  | nil => exact h
  | cons b s ih =>
    rw [List.mem_cons, not_or] at hc
    rw [List.cons_append, List.infix_cons_iff, List.cons_prefix_cons] at h
    rcases h with ⟨rfl, -⟩ | h
    · exact absurd rfl hc.1
    · exact ih hc.2 h

theorem cutLast?_append (h : cutLast? pattern text = some (before, after)) (lead : Text) :
    cutLast? pattern (lead ++ text) = some (lead ++ before, after) := by
  induction lead with
  | nil => exact h
  | cons c lead ih =>
    rw [List.cons_append, cutLast?, ih]
    rfl

theorem cutLast?_eq_some_iff (hp : pattern ≠ []) :
    cutLast? pattern text = some (before, after) ↔
      text = before ++ pattern ++ after ∧ ¬ pattern <:+: (pattern ++ after).tail := by
  constructor
  · exact cutLast?_eq_some hp
  · rintro ⟨rfl, hl⟩
    obtain ⟨c, pattern, rfl⟩ := List.exists_cons_of_ne_nil hp
    have hnone : cutLast? (c :: pattern) (pattern ++ after) = none :=
      (cutLast?_eq_none_iff hp).mpr hl
    have hfirst : cutLast? (c :: pattern) (c :: (pattern ++ after)) = some ([], after) := by
      have hd : dropPrefix? (c :: pattern) (c :: (pattern ++ after)) = some after :=
        dropPrefix?_eq_some_iff.mpr rfl
      rw [cutLast?, hnone, hd]
      rfl
    simpa using cutLast?_append hfirst before

end Text

section Conditional

variable {word text before after rest : Text}

/-- A text is cut at the last word that a blank follows. The word starts with its only blank, so
that two of its places do not overlap but in that blank. -/
theorem cutLastPadded?_eq_some_iff (hw : ' ' ∉ word) :
    cutLastPadded? (' ' :: word ++ [' ']) text = some (before, after) ↔
      ∃ rest, text = before ++ ' ' :: word ++ rest ∧ FollowsLast (' ' :: word) rest ∧
        after = rest.tail := by
  constructor
  · exact cutLastPadded?_eq_some (' ' :: word) (by simp)
  · rintro ⟨rest, rfl, hrest, rfl⟩
    have hlast : ¬ ' ' :: word ++ [' '] <:+: word ++ (rest ++ [' ']) :=
      fun h => hrest.not_again (Text.isInfix_of_not_mem hw h)
    have hcut : ∀ tail : Text, rest ++ [' '] = ' ' :: tail →
        Text.cutLast? (' ' :: word ++ [' ']) (before ++ ' ' :: word ++ rest ++ [' ']) =
          some (before, tail) := by
      intro tail ht
      rw [ht] at hlast
      refine (Text.cutLast?_eq_some_iff (by simp)).mpr ⟨?_, by simpa using hlast⟩
      rw [List.append_assoc, ht]
      simp
    rw [cutLastPadded?]
    cases rest with
    | nil =>
      rw [hcut [] rfl]
      rfl
    | cons c rest =>
      obtain rfl : c = ' ' := hrest.starts_blank c rfl
      rw [hcut (rest ++ [' ']) rfl]
      simp

theorem followsLast_iff (hn : ¬ ' ' :: word ++ [' '] <:+: [' ', ' ']) :
    (FollowsLast (' ' :: word) rest ∧ after = rest.tail) ↔
      (rest = ' ' :: after ∨ rest = [] ∧ after = []) ∧
        ¬ ' ' :: word ++ [' '] <:+: ' ' :: after ++ [' '] := by
  constructor
  · rintro ⟨h, rfl⟩
    cases rest with
    | nil => exact ⟨.inr ⟨rfl, rfl⟩, hn⟩
    | cons c rest =>
      obtain rfl : c = ' ' := h.starts_blank c rfl
      exact ⟨.inl rfl, h.not_again⟩
  · rintro ⟨rfl | ⟨rfl, rfl⟩, h⟩
    · exact ⟨⟨by simp, h⟩, rfl⟩
    · refine ⟨⟨by simp, fun hi => ?_⟩, rfl⟩
      exact hn (hi.trans (List.infix_cons (List.infix_refl [' '])))

/-- The parts of a conditional are found in each text that is made of them, and in no other. The
blank before an empty branch may be missing. -/
theorem ConditionalShape.scan?_eq_some_iff {c x y : Text} :
    scan? text = some ⟨c, x, y⟩ ↔
      c ≠ [] ∧
        (∃ x' y' : Text, text = "if " ++ c ++ " then" ++ x' ++ " else" ++ y' ∧
          (x' = ' ' :: x ∨ x' = [] ∧ x = []) ∧ (y' = ' ' :: y ∨ y' = [] ∧ y = [])) ∧
        ¬ (" then " : Text) <:+: ' ' :: x ++ [' '] ∧
        ¬ (" else " : Text) <:+: ' ' :: y ++ [' '] := by
  have hthen : ¬ (" then " : Text) <:+: [' ', ' '] := by decide
  have helse : ¬ (" else " : Text) <:+: [' ', ' '] := by decide
  constructor
  · intro h
    obtain ⟨x', y', ht, hc, hx, hy, hx', hy'⟩ := scan?_eq_some h
    obtain ⟨hxs, hxn⟩ := (@followsLast_iff "then" _ _ hthen).mp ⟨hx, hx'⟩
    obtain ⟨hys, hyn⟩ := (@followsLast_iff "else" _ _ helse).mp ⟨hy, hy'⟩
    exact ⟨hc, ⟨x', y', ht, hxs, hys⟩, hxn, hyn⟩
  · rintro ⟨hc, ⟨x', y', rfl, hxs, hys⟩, hxn, hyn⟩
    obtain ⟨hx, rfl⟩ := (@followsLast_iff "then" _ _ hthen).mpr ⟨hxs, hxn⟩
    obtain ⟨hy, rfl⟩ := (@followsLast_iff "else" _ _ helse).mpr ⟨hys, hyn⟩
    have hbody : Text.dropPrefix? "if " ("if " ++ c ++ " then" ++ x' ++ " else" ++ y') =
        some (c ++ " then" ++ x' ++ " else" ++ y') := by
      rw [Text.dropPrefix?_eq_some_iff]
      simp only [List.append_assoc]
    have hhead : cutLastPadded? " else " (c ++ " then" ++ x' ++ " else" ++ y') =
        some (c ++ " then" ++ x', y'.tail) :=
      (@cutLastPadded?_eq_some_iff "else" _ _ _ (by decide)).mpr ⟨y', rfl, hy, rfl⟩
    have hcondition : cutLastPadded? " then " (c ++ " then" ++ x') = some (c, x'.tail) :=
      (@cutLastPadded?_eq_some_iff "then" _ _ _ (by decide)).mpr ⟨x', rfl, hx, rfl⟩
    simp only [scan?, hbody, hhead, hcondition, Option.bind_eq_bind, Option.bind_some]
    rw [if_neg (by simpa using hc)]

end Conditional

section Position

namespace Text

variable {text before after pattern : Text} {i : Nat}

def bytes : Text → Nat
  | [] => 0
  | c :: text => c.utf8Size + bytes text

/-- The texts before and after a position in bytes, which lies between two characters or at one of
the ends. -/
def splitAt? : Nat → Text → Option (Text × Text)
  | 0, text => some ([], text)
  | _ + 1, [] => none
  | i + 1, c :: text =>
    if c.utf8Size ≤ i + 1 then
      (splitAt? (i + 1 - c.utf8Size) text).map fun (before, after) => (c :: before, after)
    else none

def lastAt? (pattern : Text) : Text → Option Nat
  | [] => none
  | c :: text =>
    match lastAt? pattern text with
    | some i => some (c.utf8Size + i)
    | none => if pattern.isPrefixOf (c :: text) then some 0 else none

theorem bytes_append (s t : Text) : (s ++ t).bytes = s.bytes + t.bytes := by
  induction s with
  | nil => simp [bytes]
  | cons c s ih => simp [bytes, ih, Nat.add_assoc]

theorem splitAt?_append (s t : Text) : splitAt? s.bytes (s ++ t) = some (s, t) := by
  induction s with
  | nil => cases t <;> rfl
  | cons c s ih =>
    have hc := c.utf8Size_pos
    obtain ⟨i, hi⟩ : ∃ i, c.utf8Size + bytes s = i + 1 := ⟨c.utf8Size + bytes s - 1, by omega⟩
    have hrest : i + 1 - c.utf8Size = bytes s := by omega
    rw [bytes, hi, List.cons_append, splitAt?, if_pos (by omega), hrest, ih]
    rfl

theorem lastAt?_eq_map (pattern text : Text) :
    lastAt? pattern text = (cutLast? pattern text).map fun (before, _) => before.bytes := by
  induction text with
  | nil => rfl
  | cons c text ih =>
    rw [lastAt?, cutLast?, ih]
    cases cutLast? pattern text with
    | some halves => rfl
    | none =>
      cases hd : dropPrefix? pattern (c :: text) with
      | none =>
        have hp : ¬ pattern <+: c :: text := by
          rintro ⟨rest, hr⟩
          cases hd.symm.trans (dropPrefix?_eq_some_iff.mpr hr.symm)
        simp [hp]
      | some rest =>
        have hp : pattern <+: c :: text := ⟨rest, (dropPrefix?_eq_some_iff.mp hd).symm⟩
        simp [hp, bytes]

end Text

/-- The text behind a position. Nothing stands behind a blank that is added at the end. -/
def behind? (i : Nat) (text : Text) : Option Text :=
  if i = text.bytes + 1 then some [] else (Text.splitAt? i text).map Prod.snd

/-- The halves of a text at the last `pattern`, found by its position in the text with a blank added
at its end. The outer value is missing where a position is out of the range of the text or inside of
a character. -/
def cutLastAt? (pattern text : Text) : Option (Option (Text × Text)) :=
  match Text.lastAt? pattern (text ++ [' ']) with
  | none => some none
  | some i => do
    let (before, _) ← Text.splitAt? i text
    let after ← behind? (i + pattern.bytes) text
    return some (before, after)

/-- The parts of a conditional, found by positions. -/
def ConditionalShape.scanAt? (text : Text) : Option (Option ConditionalShape) :=
  match Text.dropPrefix? "if " text with
  | none => some none
  | some body => do
    let some (head, alternative) ← cutLastAt? " else " body | return none
    let some (condition, consequent) ← cutLastAt? " then " head | return none
    return if condition.isEmpty then none else some ⟨condition, consequent, alternative⟩

/-- The position of a word that a blank follows is in range of the text without that blank, and so
is the position behind it, but for the blank. -/
theorem cutLastAt?_eq {word : Text} (hw : word ≠ []) (text : Text) :
    cutLastAt? (word ++ [' ']) text = some (cutLastPadded? (word ++ [' ']) text) := by
  rw [cutLastAt?, Text.lastAt?_eq_map]
  cases hc : Text.cutLast? (word ++ [' ']) (text ++ [' ']) with
  | none => simp [cutLastPadded?, hc]
  | some halves =>
    obtain ⟨before, after⟩ := halves
    obtain ⟨rest, rfl, hrest, hafter⟩ :=
      cutLastPadded?_eq_some word hw (by rw [cutLastPadded?, hc]; rfl)
    have hbefore : Text.splitAt? before.bytes (before ++ word ++ rest) =
        some (before, word ++ rest) := by
      rw [List.append_assoc, Text.splitAt?_append]
    have hbehind : behind? (before.bytes + (word ++ [' ']).bytes) (before ++ word ++ rest) =
        some rest.tail := by
      have hblank : Text.bytes [' '] = 1 := rfl
      rw [behind?]
      cases rest with
      | nil =>
        rw [List.append_nil, Text.bytes_append, Text.bytes_append, hblank, if_pos (by omega)]
        rfl
      | cons c rest =>
        obtain rfl : c = ' ' := hrest.starts_blank c rfl
        have hsplit : before ++ word ++ ' ' :: rest = before ++ (word ++ [' ']) ++ rest := by simp
        rw [hsplit, ← Text.bytes_append, Text.splitAt?_append,
          if_neg (by rw [Text.bytes_append _ rest]; omega)]
        rfl
    simp only [cutLastPadded?, hc, Option.map_some, hbefore, hbehind, hafter]
    rfl

theorem ConditionalShape.scanAt?_eq (text : Text) : scanAt? text = some (scan? text) := by
  have helse := fun body => @cutLastAt?_eq " else" (by decide) body
  have hthen := fun head => @cutLastAt?_eq " then" (by decide) head
  rw [scanAt?, scan?]
  cases Text.dropPrefix? "if " text with
  | none => rfl
  | some body =>
    change (cutLastAt? (" else" ++ [' ']) body >>= _) =
      some (cutLastPadded? (" else" ++ [' ']) body >>= _)
    rw [helse]
    cases cutLastPadded? (" else" ++ [' ']) body with
    | none => rfl
    | some halves =>
      obtain ⟨head, alternative⟩ := halves
      change (cutLastAt? (" then" ++ [' ']) head >>= _) =
        some (cutLastPadded? (" then" ++ [' ']) head >>= _)
      rw [hthen]
      cases cutLastPadded? (" then" ++ [' ']) head <;> rfl

/-- A conditional whose branches do not hold their own keywords again is cut into its parts,
whatever its condition holds. Every text that is cut is such a conditional, up to the blanks before
empty branches. Each cut is made at a position between two characters of the text, or behind the
blank that is added at its end. -/
theorem ConditionalShape.scan?_parts :
    (∀ c x y : Text, c ≠ [] → ¬ (" then " : Text) <:+: ' ' :: x ++ [' '] →
        ¬ (" else " : Text) <:+: ' ' :: y ++ [' '] →
        scan? ("if " ++ c ++ " then " ++ x ++ " else " ++ y) = some ⟨c, x, y⟩) ∧
      (∀ text c x y : Text, scan? text = some ⟨c, x, y⟩ ↔
        c ≠ [] ∧
          (∃ x' y' : Text, text = "if " ++ c ++ " then" ++ x' ++ " else" ++ y' ∧
            (x' = ' ' :: x ∨ x' = [] ∧ x = []) ∧ (y' = ' ' :: y ∨ y' = [] ∧ y = [])) ∧
          ¬ (" then " : Text) <:+: ' ' :: x ++ [' '] ∧
          ¬ (" else " : Text) <:+: ' ' :: y ++ [' ']) ∧
      ∀ text, scanAt? text = some (scan? text) := by
  refine ⟨fun c x y hc hx hy => ?_, fun _ _ _ _ => scan?_eq_some_iff, scanAt?_eq⟩
  refine scan?_eq_some_iff.mpr ⟨hc, ⟨' ' :: x, ' ' :: y, ?_, .inl rfl, .inl rfl⟩, hx, hy⟩
  have hthen : (" then " : Text) = " then" ++ [' '] := rfl
  have helse : (" else " : Text) = " else" ++ [' '] := rfl
  rw [hthen, helse]
  simp only [List.append_assoc, List.singleton_append]

/-- A conditional in the condition and another keyword in a branch, and a conditional without
branches whose condition takes more bytes than characters. -/
theorem ConditionalShape.scan?_parts_nested :
    scan? "if if p() then q() then bind(?r()) else s else t" =
        some ⟨"if p() then q()", "bind(?r()) else s", "t"⟩ ∧
      scan? "if né() then else" = some ⟨"né()", "", ""⟩ ∧
      scanAt? "if né() then else" = some (some ⟨"né()", "", ""⟩) := by
  obtain ⟨hwritten, hread, hposition⟩ := scan?_parts
  have hempty : scan? "if né() then else" = some ⟨"né()", "", ""⟩ :=
    (hread ..).mpr ⟨by decide, ⟨"", "", rfl, .inr ⟨rfl, rfl⟩, .inr ⟨rfl, rfl⟩⟩, by decide,
      by decide⟩
  refine ⟨?_, hempty, ?_⟩
  · exact hwritten "if p() then q()" "bind(?r()) else s" "t" (by decide) (by decide) (by decide)
  · rw [hposition, hempty]

end Position

end Parley
