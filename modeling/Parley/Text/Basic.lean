/-! # Texts

A text is the list of its characters, so a scanner is a function by recursion on
the text and a piece of a text is a sublist of it. The functions here cut a text
at fixed pieces: at its ends, at one character, or at the last place where a
pattern stands.
-/

namespace Parley

/-- A text, as the list of its characters. -/
abbrev Text := List Char

/-- A string literal stands for the list of its characters. -/
instance : Coe String Text := ⟨String.toList⟩

namespace Text

def concat (pieces : List Text) : Text :=
  pieces.flatten

/-- The pieces written one after the other, with `glue` between neighbours. -/
def join (glue : Text) : List Text → Text
  | [] => []
  | [piece] => piece
  | piece :: pieces => piece ++ glue ++ join glue pieces

def dropPrefix? : (lead text : Text) → Option Text
  | [], text => some text
  | _ :: _, [] => none
  | a :: lead, b :: text => if a = b then dropPrefix? lead text else none

def dropSuffix? (tail text : Text) : Option Text :=
  (dropPrefix? tail.reverse text.reverse).map List.reverse

/-- The texts before and after the first `mark`. -/
def cut? (mark : Char) : Text → Option (Text × Text)
  | [] => none
  | c :: text =>
    if c = mark then some ([], text)
    else (cut? mark text).map fun (before, after) => (c :: before, after)

/-- The texts before and after the last place where `pattern` stands. -/
def cutLast? (pattern : Text) : Text → Option (Text × Text)
  | [] => none
  | c :: text =>
    match cutLast? pattern text with
    | some (before, after) => some (c :: before, after)
    | none => (dropPrefix? pattern (c :: text)).map fun after => ([], after)

/-- Equality up to the case of the letters from A to Z. -/
def equalsFolded (a b : Text) : Bool :=
  a.map Char.toLower == b.map Char.toLower

/-- The decimal numeral of an integer. -/
def ofInt : Int → Text
  | .ofNat n => Nat.toDigits 10 n
  | .negSucc n => '-' :: Nat.toDigits 10 (n + 1)

theorem dropPrefix?_eq_some_iff {lead text rest : Text} :
    dropPrefix? lead text = some rest ↔ text = lead ++ rest := by
  induction lead generalizing text with
  | nil => simp [dropPrefix?]
  | cons a lead ih =>
    cases text with
    | nil => simp [dropPrefix?]
    | cons b text =>
      by_cases h : a = b
      · simp [dropPrefix?, h, ih]
      · simp [dropPrefix?, h, Ne.symm h]

theorem dropSuffix?_eq_some_iff {tail text rest : Text} :
    dropSuffix? tail text = some rest ↔ text = rest ++ tail := by
  simp only [dropSuffix?, Option.map_eq_some_iff, dropPrefix?_eq_some_iff]
  constructor
  · rintro ⟨r, h, rfl⟩
    simpa using congrArg List.reverse h
  · rintro rfl
    exact ⟨rest.reverse, by simp, by simp⟩

end Text

end Parley
