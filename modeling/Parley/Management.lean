import Parley.Text.Basic

/-! # Kinds of management moves

Interactive communication management talks about the dialogue itself: about what
was heard, understood and accepted, and about the issues taken up again.
-/

namespace Parley

inductive IcmKind
  | reraise
  | accommodate
  | resume
  | loadPlan
  | perception
  | acceptance
  | semantic
  | understanding
deriving DecidableEq

namespace IcmKind

def all : List IcmKind :=
  [reraise, accommodate, resume, loadPlan, perception, acceptance, semantic, understanding]

def token : IcmKind → Text
  | reraise => "reraise"
  | accommodate => "accommodate"
  | resume => "resume"
  | loadPlan => "loadplan"
  | perception => "per"
  | acceptance => "acc"
  | semantic => "sem"
  | understanding => "und"

def ofToken? (text : Text) : Option IcmKind :=
  all.find? fun kind => kind.token = text

theorem ofToken?_token (k : IcmKind) : ofToken? k.token = some k := by cases k <;> decide

theorem ofToken?_eq_some_iff {text : Text} {k : IcmKind} :
    ofToken? text = some k ↔ text = k.token := by
  constructor
  · intro h
    have ht : k.token = text := by simpa using List.find?_some h
    exact ht.symm
  · rintro rfl
    exact ofToken?_token k

end IcmKind

inductive IcmPolarity
  | pos
  | neg
  | interrogative
deriving DecidableEq

namespace IcmPolarity

def all : List IcmPolarity :=
  [pos, neg, interrogative]

def token : IcmPolarity → Text
  | pos => "pos"
  | neg => "neg"
  | interrogative => "int"

def ofToken? (text : Text) : Option IcmPolarity :=
  all.find? fun polarity => polarity.token = text

theorem ofToken?_token (p : IcmPolarity) : ofToken? p.token = some p := by cases p <;> decide

theorem ofToken?_eq_some_iff {text : Text} {p : IcmPolarity} :
    ofToken? text = some p ↔ text = p.token := by
  constructor
  · intro h
    have ht : p.token = text := by simpa using List.find?_some h
    exact ht.symm
  · rintro rfl
    exact ofToken?_token p

end IcmPolarity

end Parley
