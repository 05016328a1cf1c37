import Parley.Proofs.Grammar.Shape
import Parley.Proofs.Parser.Session
import Parley.Proofs.Surface.Boundary

/-! # The end of a decorated move

Where the individuals of an ontology have words as names, a text that denotes
something does not go on with a comma to another one. Of the candidates for the end
of a decorated move at most one denotes something, so the order in which they are
tried does not matter.
-/

namespace Parley

namespace Grammar

open Reading

variable {order : List (Text × Text) → List (Text × Text)} {m : Meaning}

/-- The rule for `Move(<move>, key=value, ...)` that tries the candidates for the end of the move
in another order. -/
def decoratedMoveBy (order : List (Text × Text) → List (Text × Text)) : Rule := fun _ text => do
  let inner ← ofOption (call? "Move" text)
  let (found, rest) ← probeMove (order (commaCuts inner))
  let block := blockAfter rest
  if block.isEmpty then return found
  else return found.decorate (← ofExcept (realizationData block))

def rulesBy (order : List (Text × Text) → List (Text × Text)) : List Rule :=
  decoratedMoveBy order :: rules.tail

theorem rulesBy_id : rulesBy id = rules := rfl

theorem rulesBy_asks (horder : ∀ cuts, (order cuts).Perm cuts) (setting : Setting) (text : Text)
    {rule : Rule} (h : rule ∈ rulesBy order) : (rule setting text).AsksInside text := by
  rcases List.mem_cons.mp h with rfl | h
  · refine .call fun inner hi => .bind (probeMove_asks text fun cut hc => ?_) fun _ => ?_
    · exact .of_isInfix (commaCuts_isInfix inner ((horder _).mem_iff.mp hc)) hi
    · exact .ite trivial (.bind asksInside_ofExcept fun _ => trivial)
  · exact rules_asks setting text (List.mem_of_mem_tail h)

/-- What a candidate for the end of a move gives, if it denotes a move. -/
def candidate (m : Meaning) (cut : Text × Text) : Option (Object × Text) :=
  if cut.1.isBlankText then none
  else ((m.probe cut.1).filter (·.isMove)).map fun found => (found, cut.2)

theorem probeMove_denote (cuts : List (Text × Text)) :
    (probeMove cuts).denote m =
      match cuts.findSome? (candidate m) with
      | some result => .value result
      | none => .declined := by
  induction cuts with
  | nil => rfl
  | cons cut more ih =>
    obtain ⟨head, rest⟩ := cut
    rw [List.findSome?_cons, candidate, probeMove]
    split
    · exact ih
    · rw [denote]
      cases m.probe head with
      | none => exact ih
      | some found => cases hm : found.isMove <;> simp [hm, Option.filter, denote, ih]

theorem exists_probe_of_candidate {cut : Text × Text} (h : (candidate m cut).isSome) :
    ∃ o, m.probe cut.1 = some o := by
  unfold candidate at h
  split at h
  · cases h
  · cases hp : m.probe cut.1 with
    | none => simp [hp] at h
    | some o => exact ⟨o, rfl⟩

/-- Two candidates for the end of a move of which both have the shape of what denotes something
are one. -/
theorem commaCuts_unique {inner : Text} {a b : Text × Text} (ha : a ∈ commaCuts inner)
    (hb : b ∈ commaCuts inner) (hsa : Shaped a.1) (hsb : Shaped b.1) : a = b := by
  have hlonger : ∀ {a b : Text × Text}, a ∈ commaCuts inner → b ∈ commaCuts inner →
      Shaped a.1 → Shaped b.1 → a.1 <+: b.1 → a = b := by
    rintro ⟨s, rest⟩ ⟨t, rest'⟩ ha hb hsa hsb ⟨more, rfl⟩
    obtain ⟨he, hr⟩ := commaCuts_append inner ha
    obtain ⟨he', -⟩ := commaCuts_append inner hb
    have hrest : rest = more ++ rest' := by simpa using he.symm.trans he'
    cases more with
    | nil => simp [hrest]
    | cons c more =>
      rcases hr with rfl | ⟨tail, rfl⟩
      · cases hrest
      · obtain rfl : ',' = c := (List.cons.inj hrest).1
        exact absurd hsb (hsa.not_append (.stop ⟨[], ',', more, rfl, by simp, by simp⟩))
  have hpa : a.1 <+: inner := ⟨a.2, (commaCuts_append inner ha).1.symm⟩
  have hpb : b.1 <+: inner := ⟨b.2, (commaCuts_append inner hb).1.symm⟩
  rcases List.prefix_or_prefix_of_prefix hpa hpb with h | h
  · exact hlonger ha hb hsa hsb h
  · exact (hlonger hb ha hsb hsa h).symm

theorem findSome?_of_unique {α β : Type} {f : α → Option β} {xs : List α} {a : α} {b : β}
    (hu : ∀ a ∈ xs, ∀ b ∈ xs, (f a).isSome → (f b).isSome → a = b) (ha : a ∈ xs)
    (hf : f a = some b) : xs.findSome? f = some b := by
  obtain ⟨b', hb'⟩ := Option.isSome_iff_exists.mp
    (List.findSome?_isSome_iff.mpr ⟨a, ha, Option.isSome_of_eq_some hf⟩)
  obtain ⟨a', ha', hf'⟩ := List.exists_of_findSome?_eq_some hb'
  obtain rfl := hu a' ha' a ha (by simp [hf']) (by simp [hf])
  rw [hb', ← hf', hf]

theorem findSome?_perm {α β : Type} {f : α → Option β} {xs ys : List α} (h : xs.Perm ys)
    (hu : ∀ a ∈ xs, ∀ b ∈ xs, (f a).isSome → (f b).isSome → a = b) :
    xs.findSome? f = ys.findSome? f := by
  have hu' : ∀ a ∈ ys, ∀ b ∈ ys, (f a).isSome → (f b).isSome → a = b :=
    fun a ha b hb => hu a (h.mem_iff.mpr ha) b (h.mem_iff.mpr hb)
  cases hx : xs.findSome? f with
  | none =>
    rw [eq_comm, List.findSome?_eq_none_iff]
    exact fun a ha => List.findSome?_eq_none_iff.mp hx a (h.mem_iff.mpr ha)
  | some b =>
    obtain ⟨a, ha, hf⟩ := List.exists_of_findSome?_eq_some hx
    exact (findSome?_of_unique hu' (h.mem_iff.mp ha) hf).symm

theorem candidate_unique (hm : shaping.Grants m) {inner : Text} {a b : Text × Text}
    (ha : a ∈ commaCuts inner) (hb : b ∈ commaCuts inner) (hca : (candidate m a).isSome)
    (hcb : (candidate m b).isSome) : a = b := by
  obtain ⟨oa, hoa⟩ := exists_probe_of_candidate hca
  obtain ⟨ob, hob⟩ := exists_probe_of_candidate hcb
  exact commaCuts_unique ha hb (hm.probe _ oa trivial hoa) (hm.probe _ ob trivial hob)

/-- Where only shaped texts denote something, the order of the candidates does not matter. -/
theorem decoratedMoveBy_denote (horder : ∀ cuts, (order cuts).Perm cuts) (hm : shaping.Grants m)
    (setting : Setting) (text : Text) :
    (decoratedMoveBy order setting text).denote m = (decoratedMove setting text).denote m := by
  have hprobe : ∀ inner, (probeMove (order (commaCuts inner))).denote m =
      (probeMove (commaCuts inner)).denote m := by
    intro inner
    have hfind := findSome?_perm (f := candidate m) (horder (commaCuts inner)).symm
      fun a ha b hb => candidate_unique hm ha hb
    rw [probeMove_denote, probeMove_denote, hfind]
  simp only [decoratedMoveBy, decoratedMove, denote_bind, hprobe]

end Grammar

namespace Parser

variable {p : Parser} {order : List (Text × Text) → List (Text × Text)}

/-- The engine of a parser that tries the candidates for the end of a decorated move in another
order. -/
def engineBy (p : Parser) (order : List (Text × Text) → List (Text × Text)) : Engine :=
  { p.engine with rules := Grammar.rulesBy order }

theorem meaningAt_shaping
    (hnames : ∀ entry ∈ p.ontology.individuals, isWord entry.1 = true) (depth : Nat) :
    shaping.Grants (p.engine.meaningAt depth) :=
  Engine.grants_meaningAt (fun _ hrule _ => Grammar.rules_shaped hnames hrule)
    (fun _ => Grammar.proposition_plain) depth

theorem shaped_of_parse {ontology : Ontology} {config : Config} {text : Text} {o : Object}
    (hnames : ∀ entry ∈ ontology.individuals, isWord entry.1 = true)
    (hp : Reachable ontology config p) (h : (p.parse text).1 = .ok o) : Shaped text := by
  rw [(hp.continues.parse text).1] at h
  exact (Engine.grants_meaning (meaningAt_shaping hnames)).object text o trivial h

theorem engineBy_select (horder : ∀ cuts, (order cuts).Perm cuts) {m : Meaning}
    (hm : shaping.Grants m) (text : Text) :
    (p.engineBy order).select m text = p.engine.select m text := by
  have hfirst : (Rule.firstOf (p.engineBy order).rules (p.engineBy order).setting text).denote m =
      (Rule.firstOf p.engine.rules p.engine.setting text).denote m := by
    change (Rule.firstOf (Grammar.rulesBy order) p.setting text).denote m =
      (Rule.firstOf Grammar.rules p.setting text).denote m
    rw [← Grammar.rulesBy_id]
    simp only [Grammar.rulesBy, Rule.firstOf, List.map_cons, Reading.firstOf,
      Reading.denote_orElse, Grammar.decoratedMoveBy_denote horder hm]
    rfl
  rw [Engine.select, Engine.select, hfirst]
  rfl

theorem engineBy_meaning (horder : ∀ cuts, (order cuts).Perm cuts)
    (hnames : ∀ entry ∈ p.ontology.individuals, isWord entry.1 = true) :
    (p.engineBy order).meaning = p.engine.meaning := by
  have h : ∀ depth, (p.engineBy order).meaningAt depth = p.engine.meaningAt depth := by
    intro depth
    induction depth with
    | zero => rfl
    | succ depth ih =>
      have hselect := engineBy_select (p := p) horder (meaningAt_shaping hnames depth)
      simp only [Engine.meaningAt, ih, hselect]
      rfl
  simp only [Engine.meaning, h]

/-- Where individuals have words as names, a text that denotes something does not go on with a
comma to another one. So at most one candidate for the end of a decorated move denotes something,
and the answers do not depend on the order in which they are tried. -/
theorem parse_comma_unique {ontology : Ontology} {config : Config} {p q : Parser}
    (hnames : ∀ entry ∈ ontology.individuals, isWord entry.1 = true)
    (hp : Reachable ontology config p) (hq : Reachable ontology config q) :
    (∀ s t o o', (p.parse s).1 = .ok o → (q.parse (s ++ ',' :: t)).1 ≠ .ok o') ∧
      (∀ inner, ∀ a ∈ Grammar.commaCuts inner, ∀ b ∈ Grammar.commaCuts inner, ∀ o o',
        (p.parse a.1).1 = .ok o → (q.parse b.1).1 = .ok o' → a = b) ∧
      ∀ order : List (Text × Text) → List (Text × Text), (∀ cuts, (order cuts).Perm cuts) →
        ∀ text, ((p.engineBy order).parse text p.cache).1 = (q.parse text).1 := by
  have hkp := hp.continues
  have hkq := hq.continues
  have hshaped : ∀ {p : Parser}, Continues ⟨ontology, config, {}⟩ p → ∀ {text o},
      (p.parse text).1 = .ok o → Shaped text := by
    intro p hk text o ho
    rw [(hk.parse text).1] at ho
    exact (Engine.grants_meaning (meaningAt_shaping hnames)).object text o trivial ho
  refine ⟨fun s t o o' ho ho' => ?_, fun inner a ha b hb o o' ho ho' => ?_,
    fun order horder text => ?_⟩
  · refine (hshaped hkp ho).not_append (.stop ?_) (hshaped hkq ho')
    exact ⟨[], ',', t, rfl, by simp, by simp⟩
  · exact Grammar.commaCuts_unique ha hb (hshaped hkp ho) (hshaped hkq ho')
  · have hnp : ∀ entry ∈ p.ontology.individuals, isWord entry.1 = true := hkp.ontology ▸ hnames
    have hmeaning := engineBy_meaning (p := p) horder hnp
    have hdescends : (p.engineBy order).Descends :=
      fun _ hrule text => Grammar.rulesBy_asks horder p.setting text hrule
    have hcoherent : (p.engineBy order).Coherent p.cache := by
      intro entry he
      rw [hmeaning]
      exact hkp.coherent entry he
    rw [(hdescends.parse hcoherent text).1, (hkq.parse text).1, hmeaning, hkp.engine]

/-- The move before its realization data is found, although a comma stands inside it, and it is
found from the last comma on as well. -/
theorem parse_comma_unique_answer :
    let ontology : Ontology := { name := "travel", individuals := [("paris", .custom "city")] }
    let p : Parser := ⟨ontology, {}, {}⟩
    let answer : Move := .answer (.sequence [.no, .yes])
    (p.parse "answer([no,yes])").1 = .ok (.move answer none) ∧
      (∀ o, (p.parse "answer([no,yes]),speaker=USR").1 ≠ .ok o) ∧
      (p.parse "Move(answer([no,yes]),speaker=USR)").1 =
        .ok (.move answer (some { speaker := some .user })) ∧
      ((p.engineBy List.reverse).parse "Move(answer([no,yes]),speaker=USR)" p.cache).1 =
        .ok (.move answer (some { speaker := some .user })) := by
  intro ontology p answer
  have hnames : ∀ entry ∈ ontology.individuals, isWord entry.1 = true := by decide
  have hp : Reachable ontology {} p := ⟨[], rfl⟩
  have hanswer : (p.parse "answer([no,yes])").1 = .ok (.move answer none) := rfl
  have hmove : (p.parse "Move(answer([no,yes]),speaker=USR)").1 =
      .ok (.move answer (some { speaker := some .user })) := rfl
  obtain ⟨hcomma, -, horder⟩ := parse_comma_unique hnames hp hp
  refine ⟨hanswer, fun o => ?_, hmove, (horder List.reverse List.reverse_perm _).trans hmove⟩
  exact hcomma "answer([no,yes])" "speaker=USR" _ o hanswer

end Parser

end Parley
