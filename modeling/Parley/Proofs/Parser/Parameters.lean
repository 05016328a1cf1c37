import Parley.Proofs.Grammar.Parameter
import Parley.Proofs.Parser.Session
import Parley.Proofs.Surface.Split
import Parley.Proofs.Table

/-! # Blocks of parameters

With a comma between them, two blocks of parameters make up one: its parameters are
those of the first block, overridden by those of the second, and it fails as the first
block does, or else as the second. Every parameter has the kind of its key, and braces
around a block without braces change nothing.
-/

namespace Parley

/-- The error with another text in the place of the one that was given. -/
def GrammarError.givenAs (e : GrammarError) (text : Text) : GrammarError :=
  ⟨e.cause, e.trail.dropLast ++ [text], some text⟩

@[simp] theorem GrammarError.within_givenAs (e : GrammarError) (s t : Text) :
    (e.within s).givenAs t = e.within t := by
  simp [givenAs, within, Trail.within]

section Entries

variable {block s t : Text}

theorem braced?_eq_none_of_ends (h : ¬ (block.head? = some '{' ∧ block.getLast? = some '}')) :
    braced? block = none := by
  rw [Option.eq_none_iff_forall_ne_some]
  intro inner hi
  rw [braced?_eq_some_iff] at hi
  exact h ⟨by rw [hi]; rfl, by rw [hi]; exact List.getLast?_concat⟩

theorem blockEntries_of_not_braced (h : braced? block.trim = none) :
    Parser.blockEntries block = splitTopLevel ',' block := by
  rw [Parser.blockEntries, h]
  exact splitTopLevel_trim rfl block

theorem blockEntries_braced (block : Text) :
    Parser.blockEntries ('{' :: block ++ ['}']) = splitTopLevel ',' block := by
  have htrim : Text.trim ('{' :: block ++ ['}']) = '{' :: block ++ ['}'] :=
    Text.trim_enclosed rfl rfl block
  have hbraced : braced? ('{' :: block ++ ['}']) = some block := braced?_eq_some_iff.mpr rfl
  rw [Parser.blockEntries, htrim, hbraced]
  rfl

theorem head?_trim_append_comma (hs : s.isBlankText = false) (t : Text) :
    (Text.trim (s ++ ',' :: t)).head? = s.trim.head? := by
  obtain ⟨blanks, -, htrim⟩ := Text.trim_append hs (c := ',') rfl [] t
  have hne : s.trim ≠ [] := by simpa [Text.isBlankText] using hs
  obtain ⟨c, rest, hc⟩ := List.exists_cons_of_ne_nil hne
  rw [List.nil_append] at htrim
  rw [htrim, hc]
  rfl

theorem blockEntries_append_comma (hb : isBalanced s = true) (hs : s.isBlankText = false)
    (ht : t.isBlankText = false) (hs' : s.trim.head? ≠ some '{') (ht' : t.trim.head? ≠ some '{') :
    Parser.blockEntries (s ++ ',' :: t) = Parser.blockEntries s ++ Parser.blockEntries t := by
  have hopen : ∀ {u : Text}, u.head? ≠ some '{' → braced? u = none :=
    fun hu => braced?_eq_none_of_ends fun h => hu h.1
  have hst : (Text.trim (s ++ ',' :: t)).head? ≠ some '{' := by
    rwa [head?_trim_append_comma hs]
  rw [blockEntries_of_not_braced (hopen hst), blockEntries_of_not_braced (hopen hs'),
    blockEntries_of_not_braced (hopen ht'), splitTopLevel_append_comma hb hs ht]

end Entries

namespace Engine

variable {e : Engine} {found : Parameters} {block s t : Text}

theorem entriesMeaning_append (found : Parameters) (texts texts' : List Text) :
    e.entriesMeaning found (texts ++ texts') =
      e.entriesMeaning found texts >>= fun found' => e.entriesMeaning found' texts' := by
  induction texts generalizing found with
  | nil => rfl
  | cons text texts ih =>
    rw [List.cons_append, entriesMeaning, entriesMeaning]
    split
    · rfl
    · split
      · exact ih _
      · rfl

theorem entriesMeaning_eq_override (h : found.Ascending) (texts : List Text) :
    e.entriesMeaning found texts = (e.entriesMeaning [] texts).map found.override := by
  suffices hs : ∀ other, e.entriesMeaning (found.override other) texts =
      (e.entriesMeaning other texts).map found.override from hs []
  induction texts with
  | nil => exact fun _ => rfl
  | cons text texts ih =>
    intro other
    rw [entriesMeaning, entriesMeaning]
    split
    · rfl
    · split
      · rw [← ih, Table.insertAscending_override h]
      · rfl

theorem entriesMeaning_ascending {texts : List Text} {found' : Parameters} (h : found.Ascending)
    (hf : e.entriesMeaning found texts = .ok found') : found'.Ascending := by
  rw [entriesMeaning_eq_override h] at hf
  cases he : e.entriesMeaning [] texts with
  | error err =>
    rw [he] at hf
    cases hf
  | ok other =>
    rw [he] at hf
    obtain rfl := Except.ok.inj hf
    exact h.override other

theorem parametersMeaning_ok (h : e.parametersMeaning block = .ok found) :
    e.entriesMeaning [] (Parser.blockEntries block) = .ok found := by
  rw [parametersMeaning] at h
  cases he : e.entriesMeaning [] (Parser.blockEntries block) with
  | error err =>
    rw [he] at h
    cases h
  | ok found' =>
    rw [he] at h
    exact h

theorem parameterMeaning_kind {key value : Text} {v : ParameterValue}
    (h : e.parameterMeaning key value = .ok v) : parameterKinds.get? key = some v.kind := by
  obtain ⟨grammar, hg, hv⟩ := parameterMeaning_ok h
  obtain ⟨kind, hk, hkind⟩ := Table.get?_of_forall₂ Grammar.valueGrammars_hasKind hg
  rw [hk, (hkind e.setting value).value (.default _) hv]

theorem parametersMeaning_append_comma (hb : isBalanced s = true) (hs : s.isBlankText = false)
    (ht : t.isBlankText = false) (hs' : s.trim.head? ≠ some '{') (ht' : t.trim.head? ≠ some '{') :
    e.parametersMeaning (s ++ ',' :: t) =
      match e.parametersMeaning s, e.parametersMeaning t with
      | .ok first, .ok second => .ok (first.override second)
      | .error err, _ => .error (err.givenAs (s ++ ',' :: t))
      | .ok _, .error err => .error (err.givenAs (s ++ ',' :: t)) := by
  simp only [parametersMeaning]
  rw [blockEntries_append_comma hb hs ht hs' ht', entriesMeaning_append]
  cases hfirst : e.entriesMeaning [] (Parser.blockEntries s) with
  | error err => simp [Except.mapError, bind, Except.bind]
  | ok first =>
    have hasc : first.Ascending := entriesMeaning_ascending .nil hfirst
    have hrest : e.entriesMeaning first (Parser.blockEntries t) =
      (e.entriesMeaning [] (Parser.blockEntries t)).map first.override :=
        entriesMeaning_eq_override hasc _
    cases hsecond : e.entriesMeaning [] (Parser.blockEntries t) with
    | error err => simp [Except.mapError, bind, Except.bind, hrest, hsecond, Except.map]
    | ok second => simp [Except.mapError, bind, Except.bind, hrest, hsecond, Except.map]

theorem parametersMeaning_braced
    (h : ¬ (block.trim.head? = some '{' ∧ block.trim.getLast? = some '}')) :
    e.parametersMeaning ('{' :: block ++ ['}']) =
      (e.parametersMeaning block).mapError (·.givenAs ('{' :: block ++ ['}'])) := by
  rw [parametersMeaning, parametersMeaning, blockEntries_braced,
    blockEntries_of_not_braced (braced?_eq_none_of_ends h)]
  cases e.entriesMeaning [] (splitTopLevel ',' block) <;> simp [Except.mapError]

end Engine

namespace Parser

variable {ontology : Ontology} {config : Config} {p q : Parser}

/-- In every state two blocks without braces, with a comma between them, give the parameters of the
first overridden by those of the second, or the error of the first of them that fails. The keys of
parameters ascend, and each has its kind of values. Braces around a block that has none change
nothing. Only the end of a trail, which is the block, tells the errors apart. -/
theorem parseParameters_blocks (hp : Reachable ontology config p)
    (hq : Reachable ontology config q) :
    (∀ s t : Text, s.isBlankText = false → t.isBlankText = false →
      s.trim.head? ≠ some '{' → t.trim.head? ≠ some '{' → isBalanced s = true →
      (q.parseParameters (s ++ ',' :: t)).1 =
        match (p.parseParameters s).1, (p.parseParameters t).1 with
        | .ok first, .ok second => .ok (first.override second)
        | .error err, _ => .error (err.givenAs (s ++ ',' :: t))
        | .ok _, .error err => .error (err.givenAs (s ++ ',' :: t))) ∧
    (∀ block err, (p.parseParameters block).1 = .error err → err.input? = some block) ∧
    (∀ block found, (p.parseParameters block).1 = .ok found → found.Ascending ∧
      ∀ entry ∈ found, parameterKinds.get? entry.1 = some entry.2.kind) ∧
    ∀ block : Text, ¬ (block.trim.head? = some '{' ∧ block.trim.getLast? = some '}') →
      (q.parseParameters ('{' :: block ++ ['}'])).1 =
        (p.parseParameters block).1.mapError (·.givenAs ('{' :: block ++ ['}'])) := by
  have hmeaning : ∀ {r block}, Reachable ontology config r →
      (r.parseParameters block).1 = (engine ⟨ontology, config, {}⟩).parametersMeaning block :=
    fun hr => (hr.continues.parseParameters _).1
  simp only [hmeaning hp, hmeaning hq]
  refine ⟨fun s t hs ht hs' ht' hb => Engine.parametersMeaning_append_comma hb hs ht hs' ht',
    fun block err h => ?_, fun block found h => ⟨?_, ?_⟩,
    fun block h => Engine.parametersMeaning_braced h⟩
  · rw [Engine.parametersMeaning] at h
    cases he : (engine ⟨ontology, config, {}⟩).entriesMeaning [] (blockEntries block) with
    | ok found =>
      rw [he] at h
      cases h
    | error inner =>
      rw [he] at h
      obtain rfl := Except.error.inj h
      exact inner.within_input? block
  · exact Engine.entriesMeaning_ascending .nil (Engine.parametersMeaning_ok h)
  · exact Engine.entriesMeaning_forall
      (P := fun entry => parameterKinds.get? entry.1 = some entry.2.kind)
      (fun _ _ _ => Engine.parameterMeaning_kind) (by simp) (Engine.parametersMeaning_ok h)

/-- A key that both blocks give, a quoted comma in the first one, and a second block that fails. -/
theorem parseParameters_blocks_device :
    let p : Parser := ⟨{ name := "travel" }, {}, {}⟩
    (p.parseParameters "device=\"a,b\",verbalize=true, verbalize=FALSE").1 =
        .ok [("device", .text "\"a,b\""), ("verbalize", .boolean false)] ∧
      (p.parseParameters "verbalize=true,default=?%").1 =
        .error (.through (.noRuleMatched "Ontology(travel)")
          ["%", "default=?%", "verbalize=true,default=?%"]) ∧
      (p.parseParameters "\x7bdefault=?%\x7d").1 =
        .error (.through (.noRuleMatched "Ontology(travel)")
          ["%", "default=?%", "\x7bdefault=?%\x7d"]) := by
  intro p
  have hp : Reachable { name := "travel" } {} p := ⟨[], rfl⟩
  obtain ⟨happend, -, -, hbraced⟩ := parseParameters_blocks hp hp
  refine ⟨?_, ?_, ?_⟩
  · exact happend "device=\"a,b\",verbalize=true" " verbalize=FALSE" rfl rfl (by decide)
      (by decide) rfl
  · exact happend "verbalize=true" "default=?%" rfl rfl (by decide) (by decide) rfl
  · exact hbraced "default=?%" (by decide)

end Parser

end Parley
