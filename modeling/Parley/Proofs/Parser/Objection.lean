import Parley.Proofs.Parser.Sorting

/-! # Objections of the ontology

An ontology can object to five things, and while texts are read it objects to two of
them: a word in the place of a predicate is not declared, and a predicate is applied to
an individual of another sort. A text that is no individual is declined, and so are the
names of individuals and actions that the ontology does not know.
-/

namespace Parley

namespace Parser

variable {p : Parser}

theorem engine_justified (p : Parser) : (sorting p.setting).Explains p.engine.meaning :=
  Engine.explains_meaning (Engine.explains_meaningAt (fun _ hrule _ => Grammar.rules_sorted hrule)
    (fun _ => Grammar.proposition_sorted) trivial)

theorem parameterMeaning_justified {key value : Text} {err : GrammarError}
    (h : p.engine.parameterMeaning key value = .error err) : err.cause.Justified p.setting := by
  unfold Engine.parameterMeaning at h
  split at h
  · obtain rfl := Except.error.inj h
    trivial
  · rename_i grammar hg
    split at h
    · cases h
    · obtain rfl := Except.error.inj h
      trivial
    · rename_i inner hinner
      obtain rfl := Except.error.inj h
      rw [GrammarError.within_cause]
      exact (Grammar.valueGrammars_sorted hg).cause p.engine_sorting p.engine_justified hinner

theorem entriesMeaning_justified {texts : List Text} {found : Parameters} {err : GrammarError}
    (h : p.engine.entriesMeaning found texts = .error err) : err.cause.Justified p.setting := by
  induction texts generalizing found with
  | nil => cases h
  | cons text rest ih =>
    rw [Engine.entriesMeaning] at h
    split at h
    · obtain rfl := Except.error.inj h
      trivial
    · split at h
      · exact ih h
      · rename_i inner hinner
        obtain rfl := Except.error.inj h
        exact parameterMeaning_justified hinner

theorem parametersMeaning_justified {block : Text} {err : GrammarError}
    (h : p.engine.parametersMeaning block = .error err) : err.cause.Justified p.setting := by
  rw [Engine.parametersMeaning] at h
  cases he : p.engine.entriesMeaning [] (blockEntries block) with
  | ok found =>
    rw [he] at h
    cases h
  | error inner =>
    rw [he] at h
    obtain rfl := Except.error.inj h
    rw [GrammarError.within_cause]
    exact entriesMeaning_justified he

/-- In every state an objection of the ontology, in the error of a text or of a block of parameters,
is justified: it names a word that is no predicate, or a predicate with its sort and another sort.
There is no other objection, since a text is an individual or is declined. -/
theorem objections_justified {ontology : Ontology} {config : Config} {p : Parser}
    (hp : Reachable ontology config p) :
    (∀ text, Grammar.individual p.setting text = .declined ∨
      ∃ i, Grammar.individual p.setting text = .done i) ∧
    (∀ text err, (p.parse text).1 = .error err →
      err.cause.Justified ⟨ontology, config.domainName⟩) ∧
    ∀ block err, (p.parseParameters block).1 = .error err →
      err.cause.Justified ⟨ontology, config.domainName⟩ := by
  have hk := hp.continues
  refine ⟨fun text => Grammar.individual_cases p.setting text, fun text err h => ?_,
    fun block err h => ?_⟩
  · rw [(hk.parse text).1] at h
    exact (engine_justified ⟨ontology, config, {}⟩).object text err h
  · rw [(hk.parseParameters block).1] at h
    exact parametersMeaning_justified h

/-- A misspelt predicate in a question of a plan, and a predicate of numbers that is applied to a
city in a parameter. -/
theorem objections_justified_price :
    let ontology : Ontology :=
      { name := "travel", predicates := [("price", .integer)],
        individuals := [("paris", .custom "city")] }
    let p : Parser := ⟨ontology, {}, {}⟩
    let unknown : OntologyError := .unknownPredicate "prize" "travel"
    let mismatch : OntologyError := .sortMismatch "price" .integer "paris" (.custom "city")
    (p.parse "findout(?X.prize(X))").1 =
        .error (.through (.ontology unknown) ["X.prize(X)", "findout(?X.prize(X))"]) ∧
      (p.parseParameters "default=?price(paris)").1 =
        .error (.through (.ontology mismatch)
          ["price(paris)", "default=?price(paris)", "default=?price(paris)"]) ∧
      unknown.Justified ⟨ontology, none⟩ ∧ mismatch.Justified ⟨ontology, none⟩ := by
  intro ontology p unknown mismatch
  have hp : Reachable ontology {} p := ⟨[], rfl⟩
  have hunknown : (p.parse "findout(?X.prize(X))").1 =
      .error (.through (.ontology unknown) ["X.prize(X)", "findout(?X.prize(X))"]) := rfl
  have hmismatch : (p.parseParameters "default=?price(paris)").1 =
      .error (.through (.ontology mismatch)
        ["price(paris)", "default=?price(paris)", "default=?price(paris)"]) := rfl
  obtain ⟨-, hparse, hparameters⟩ := objections_justified hp
  exact ⟨hunknown, hmismatch, hparse _ _ hunknown, hparameters _ _ hmismatch⟩

end Parser

end Parley
