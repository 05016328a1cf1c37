import Parley.Proofs.Grammar.Sorting
import Parley.Proofs.Parser.Session

/-! # Sorts of what a parser answers

Whatever a parser has read before, the objects that it answers are well-sorted, and
so are all objects in the values of parameters.
-/

namespace Parley

namespace Parser

variable {p : Parser}

theorem engine_sorting (p : Parser) : (sorting p.setting).Grants p.engine.meaning :=
  Engine.grants_meaning (Engine.grants_meaningAt (fun _ hrule _ => Grammar.rules_sorted hrule)
    fun _ => Grammar.proposition_sorted)

theorem parameterMeaning_wellSorted {key value : Text} {found : ParameterValue}
    (h : p.engine.parameterMeaning key value = .ok found) : found.WellSorted p.setting := by
  obtain ⟨grammar, hg, hv⟩ := Engine.parameterMeaning_ok h
  exact (Grammar.valueGrammars_sorted hg).value p.engine_sorting hv

theorem entriesMeaning_wellSorted {texts : List Text} {before found : Parameters}
    (hb : ∀ entry ∈ before, entry.2.WellSorted p.setting)
    (h : p.engine.entriesMeaning before texts = .ok found) :
    ∀ entry ∈ found, entry.2.WellSorted p.setting :=
  Engine.entriesMeaning_forall (P := fun entry => entry.2.WellSorted p.setting)
    (fun _ _ _ => parameterMeaning_wellSorted) hb h

/-- In every state that a parser can reach, the objects that it reads are well-sorted, and so are
the objects in the values of parameters. -/
theorem answers_wellSorted {ontology : Ontology} {config : Config} {p : Parser}
    (hp : Reachable ontology config p) :
    (∀ text o, (p.parse text).1 = .ok o → o.WellSorted ⟨ontology, config.domainName⟩) ∧
      ∀ block found, (p.parseParameters block).1 = .ok found →
        ∀ entry ∈ found, entry.2.WellSorted ⟨ontology, config.domainName⟩ := by
  have hk := hp.continues
  have hs := engine_sorting ⟨ontology, config, {}⟩
  constructor
  · intro text o ho
    rw [(hk.parse text).1] at ho
    exact hs.object text o trivial ho
  · intro block found hf
    rw [(hk.parseParameters block).1, Engine.parametersMeaning] at hf
    cases he : Engine.entriesMeaning (engine ⟨ontology, config, {}⟩) [] (blockEntries block) with
    | error e => rw [he] at hf; cases hf
    | ok found' =>
      rw [he] at hf
      obtain rfl := Except.ok.inj hf
      exact entriesMeaning_wellSorted (p := ⟨ontology, config, {}⟩) (by simp) he

/-- A question of a plan is about a declared predicate and is stamped with the domain, and so is
the question of a parameter about a declared predicate. -/
theorem answers_wellSorted_findout :
    let ontology : Ontology := { name := "travel", predicates := [("price", .integer)] }
    let p := (performAll ⟨ontology, .ofDomain "ddd" "home", {}⟩ [.parse "no"]).2
    let price : Question := .wh (.predicate ⟨"travel", "price", .integer⟩)
    (p.parse "findout(?X.price(X))").1 = .ok (.planItem (.findout (some "home") price)) ∧
      (p.parseParameters "default=?X.price(X)").1 = .ok [("default", .question price)] ∧
      (Object.planItem (.findout (some "home") price)).WellSorted ⟨ontology, some "home"⟩ ∧
      price.WellSorted ⟨ontology, some "home"⟩ := by
  intro ontology p price
  have hp : Reachable ontology (.ofDomain "ddd" "home") p := ⟨[.parse "no"], rfl⟩
  have ho : (p.parse "findout(?X.price(X))").1 =
      .ok (.planItem (.findout (some "home") price)) := rfl
  have hf : (p.parseParameters "default=?X.price(X)").1 =
      .ok [("default", .question price)] := rfl
  obtain ⟨hparse, hparameters⟩ := answers_wellSorted hp
  exact ⟨ho, hf, hparse _ _ ho, hparameters _ _ hf ("default", .question price) (by simp)⟩

end Parser

end Parley
