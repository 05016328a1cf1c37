import Parley.Proofs.Grammar.Embedded

/-! # The mark of negation

Five of the forms of propositions and the sets of alternatives may stand behind the mark of
negation, and each of them takes the mark off by itself. Behind the mark a form gives the
negation of what it gives without it; the other forms decline. No form reads two marks.
-/

namespace Parley

namespace Proposition

def isSigned : Proposition → Bool
  | predicate .. | goal .. | preconfirmation .. | set .. | understanding ..
  | knowledgePrecondition .. => true
  | _ => false

def withPolarity (polarity : Polarity) : Proposition → Proposition
  | predicate p i _ => predicate p i polarity
  | goal g _ => goal g polarity
  | preconfirmation o a arguments _ => preconfirmation o a arguments polarity
  | rejected combination reason _ => rejected combination reason polarity
  | set members _ => set members polarity
  | understanding speaker content _ => understanding speaker content polarity
  | knowledgePrecondition question _ => knowledgePrecondition question polarity
  | p => p

theorem ofPredicate_withPolarity (p : Predicate) (i : Option Individual)
    (polarity polarity' : Polarity) :
    ofPredicate p i polarity' = (ofPredicate p i polarity).map (withPolarity polarity') := by
  cases i with
  | none => rfl
  | some i =>
    simp only [ofPredicate]
    split <;> rfl

theorem polarity_of_ofPredicate {p : Predicate} {i : Option Individual} {polarity : Polarity}
    {found : Proposition} (h : ofPredicate p i polarity = .ok found) :
    found.polarity = polarity := by
  unfold ofPredicate at h
  repeat' split at h
  all_goals cases h <;> rfl

end Proposition

namespace Reading

variable {m : Meaning} {r r' t t' : Reading Proposition}

/-- The second reading gives the negation of what the first one gives, and declines with it. -/
structure Negates (m : Meaning) (r r' : Reading Proposition) : Prop where
  value : ∀ p, r.denote m = .value p → p.isSigned = true →
    r'.denote m = .value (p.withPolarity .neg)
  declined : r.denote m = .declined → r'.denote m = .declined

theorem negates_map (r : Reading Proposition) :
    Negates m r (Proposition.withPolarity .neg <$> r) where
  value p hv _ := denote_map_eq_value_iff.mpr ⟨p, hv, rfl⟩
  declined := denote_map_eq_declined_iff.mpr

theorem negates_of_unsigned (h : r.Meets {} (·.isSigned = false)) : Negates m r .declined where
  value p hv hp := by
    rw [h.value (.default m) hv] at hp
    cases hp
  declined _ := rfl

theorem Negates.orElse (h : Negates m r r') (ht : Negates m t t') :
    Negates m (r.orElse t) (r'.orElse t') where
  value p hv hp := by
    rw [denote_orElse] at hv ⊢
    cases hr : r.denote m with
    | value found =>
      rw [hr] at hv
      cases hv
      rw [h.value p hr hp]
    | declined =>
      rw [hr] at hv
      rw [h.declined hr]
      exact ht.value p hv hp
    | error e =>
      rw [hr] at hv
      cases hv
  declined hd := by
    rw [denote_orElse] at hd ⊢
    cases hr : r.denote m with
    | declined =>
      rw [hr] at hd
      rw [h.declined hr]
      exact ht.declined hd
    | value | error =>
      rw [hr] at hd
      cases hd

theorem Negates.firstOf {forms : List Grammar.Form} {s : Setting} {text text' : Text}
    (h : ∀ form ∈ forms, Negates m (form s text) (form s text')) :
    Negates m (.firstOf (forms.map fun form => form s text))
      (.firstOf (forms.map fun form => form s text')) := by
  induction forms with
  | nil => exact ⟨nofun, fun _ => rfl⟩
  | cons form forms ih =>
    rw [List.forall_mem_cons] at h
    exact h.1.orElse (ih h.2)

end Reading

namespace Grammar

open Reading

variable {m : Meaning} {s : Setting} {text keyword : Text} {form : Form} {p : Proposition}

/-- A form that takes the mark of negation off and reads the call behind it as it reads the call
alone. -/
structure Form.Signed (form : Form) : Prop where
  negated : ∀ s text, splitPolarity text = (.pos, text) → '(' ∈ text →
    form s ('~' :: text) = Proposition.withPolarity .neg <$> form s text
  /-- Without the mark the form is a call. -/
  call : ∀ s text, splitPolarity text = (.pos, text) → '(' ∉ text → form s text = .declined
  polarity : ∀ s text, (form s ('~' :: text)).Meets {} (·.polarity = .neg)
  /-- The mark is taken off once. -/
  once : ∀ s text, form s ('~' :: '~' :: text) = .declined

/-- A form that has no negation. -/
structure Form.Unsigned (form : Form) : Prop where
  declined : ∀ s text, form s ('~' :: text) = .declined
  unsigned : ∀ s text, (form s text).Meets {} (·.isSigned = false)

theorem call?_of_not_mem (h : '(' ∉ text) : call? keyword text = none := by
  rw [Option.eq_none_iff_forall_ne_some]
  intro inner hc
  obtain ⟨rfl, -⟩ := call?_eq_some_iff.mp hc
  simp at h

theorem nonemptyCall?_of_not_mem (h : '(' ∉ text) : nonemptyCall? keyword text = none := by
  rw [nonemptyCall?, call?_of_not_mem h]
  rfl

/-- A form that reads the inside of a call, and then puts the polarity into what it makes of it. -/
theorem Form.Signed.of_call {α : Type} {inner? : Text → Option Text}
    {read : Setting → Text → Reading α} {make : Setting → α → Polarity → Proposition}
    (hform : ∀ s text, form s text = ofOption (inner? (splitPolarity text).2) >>= fun inner =>
      read s inner >>= fun a => return make s a (splitPolarity text).1)
    (hmake : ∀ s a, make s a .neg = (make s a .pos).withPolarity .neg)
    (hpolarity : ∀ s a, (make s a .neg).polarity = .neg)
    (hcall : ∀ text, '(' ∉ text → inner? text = none)
    (honce : ∀ text, inner? ('~' :: text) = none) : form.Signed where
  negated s text ht _ := by
    have hsplit : splitPolarity ('~' :: text) = (.neg, text) := rfl
    simp only [hform, ht, hsplit, map_bind, map_pure, hmake]
  call s text ht h := by
    rw [hform, ht, hcall text h]
    rfl
  polarity s text := by
    rw [hform]
    exact .andThen fun _ => .andThen fun a => hpolarity s a
  once s text := by
    have hsplit : splitPolarity ('~' :: '~' :: text) = (.neg, '~' :: text) := rfl
    rw [hform, hsplit, honce text]
    rfl

theorem preconfirmed_signed : Form.Signed preconfirmed :=
  .of_call (fun _ _ => rfl) (fun _ _ => rfl) (fun _ _ => rfl) (fun _ => call?_of_not_mem)
    fun _ => rfl

theorem goalProposition_signed : Form.Signed goalProposition :=
  .of_call (fun _ _ => rfl) (fun _ _ => rfl) (fun _ _ => rfl) (fun _ => call?_of_not_mem)
    fun _ => rfl

theorem knowledgePrecondition_signed : Form.Signed knowledgePrecondition :=
  .of_call (fun _ _ => rfl) (fun _ _ => rfl) (fun _ _ => rfl)
    (fun _ => nonemptyCall?_of_not_mem) fun _ => rfl

/-- The speaker and the content of an understanding. -/
def understood (inner : Text) : Reading (Option Speaker × Object) := do
  let (token, content) ← ofOption (splitFirst? ',' inner)
  let speaker ← ofOption (understander? token)
  guard (!content.isEmpty)
  let found ← readObject content
  return (speaker, found)

theorem understanding_signed : Form.Signed understanding := by
  refine @Form.Signed.of_call understanding _ (call? "und") (fun _ => understood)
    (fun _ found polarity => .understanding found.1 found.2 polarity) ?_ (fun _ _ => rfl)
    (fun _ _ => rfl) (fun _ => call?_of_not_mem) fun _ => rfl
  intro s text
  simp only [understanding, understood, LawfulMonad.bind_assoc, pure_bind]

/-- The name of a predication with a second mark is not a word. -/
theorem application?_marked {name inner : Text}
    (h : application? .neg ('~' :: text) = some (name, inner)) : isWord name = false := by
  unfold application? at h
  split at h
  · rename_i lead rest hc
    obtain ⟨lead, rfl⟩ := Text.exists_of_cut?_cons (by decide) hc
    obtain ⟨_, -, hn⟩ := Option.map_eq_some_iff.mp h
    obtain ⟨rfl, -⟩ := Prod.mk.injEq .. ▸ hn
    rfl
  · obtain ⟨rfl, -⟩ := Prod.mk.injEq .. ▸ Option.some.inj h
    rfl

theorem predication_signed : Form.Signed predication where
  negated s text ht h := by
    have hcut : text.cut? '(' ≠ none := fun hn => Text.cut?_eq_none_iff.mp hn h
    have happlication : application? .neg text = application? .pos text := by
      unfold application?
      split
      · rfl
      · contradiction
    have hontology : ∀ p i, ofOntology (Proposition.ofPredicate p i .neg) =
        Proposition.withPolarity .neg <$> ofOntology (Proposition.ofPredicate p i .pos) := by
      intro p i
      rw [Proposition.ofPredicate_withPolarity p i .pos .neg]
      cases Proposition.ofPredicate p i .pos <;> rfl
    have hsplit : splitPolarity ('~' :: text) = (.neg, text) := rfl
    simp only [predication, ht, hsplit, happlication, hontology, map_bind]
  call s text ht h := by
    have happlication : application? .pos text = none := by
      rw [application?, Text.cut?_eq_none_iff.mpr h]
      rfl
    simp only [predication, ht, happlication]
    rfl
  polarity s text := by
    refine .andThen fun _ => .andThen fun found => .andThen fun argument => ?_
    rw [meets_ofOntology]
    exact ⟨fun p hp => Proposition.polarity_of_ofPredicate hp, fun _ _ => trivial⟩
  once s text := by
    have hsplit : splitPolarity ('~' :: '~' :: text) = (.neg, '~' :: text) := rfl
    simp only [predication, hsplit]
    cases ha : application? .neg ('~' :: text) with
    | none => rfl
    | some found =>
      have hw := application?_marked ha
      change predicate s found.1 >>= _ = _
      rw [predicate_of_not_isWord (by simp [hw])]
      rfl

theorem forms_signed_or_unsigned (h : form ∈ forms) : form.Signed ∨ form.Unsigned := by
  simp only [forms, List.mem_cons, List.not_mem_nil, or_false] at h
  rcases h with rfl | rfl | rfl | rfl | rfl | rfl | rfl | rfl | rfl | rfl | rfl | rfl
  · exact .inr ⟨fun _ _ => rfl, fun _ _ => .andThen fun _ => rfl⟩
  · exact .inr ⟨fun _ _ => rfl, fun _ _ => .andThen fun _ => rfl⟩
  · exact .inl preconfirmed_signed
  · exact .inr ⟨fun _ _ => rfl, fun _ _ => .andThen fun _ => .andThen fun _ => rfl⟩
  · exact .inl goalProposition_signed
  · exact .inr ⟨fun _ _ => rfl, fun _ _ => .andThen fun _ => .andThen fun _ => .andThen fun _ =>
      rfl⟩
  · exact .inr ⟨fun _ _ => rfl, fun _ _ => .andThen fun _ => .andThen fun _ => .andThen fun _ =>
      .andThen fun _ => rfl⟩
  · exact .inl predication_signed
  · exact .inl understanding_signed
  · exact .inr ⟨fun _ _ => rfl, fun _ _ => .andThen fun _ => .andThen fun _ => rfl⟩
  · exact .inl knowledgePrecondition_signed
  · exact .inr ⟨fun _ _ => rfl, fun _ _ => .andThen fun _ => .andThen fun _ => .andThen fun _ =>
      .andThen fun _ => rfl⟩

/-- Alternatives as a form of proposition, which only their own rule reads. -/
def propositionSetForm : Form := fun _ text =>
  (fun found => .set found.1 found.2) <$> propositionSet text

theorem propositionSetRule_eq (s : Setting) (text : Text) :
    propositionSetRule s text = .proposition <$> propositionSetForm s text := by
  rw [propositionSetForm, Functor.map_map, map_eq_pure_bind]
  rfl

def alternativesIn (inner : Text) : Reading (List Proposition) := do
  let list := (bracketed? inner).getD inner
  guard (!list.isBlankText)
  items readProposition list

theorem propositionSetForm_signed : Form.Signed propositionSetForm := by
  refine @Form.Signed.of_call propositionSetForm _ (call? "set") (fun _ => alternativesIn)
    (fun _ members polarity => .set members polarity) ?_ (fun _ _ => rfl)
    (fun _ _ => rfl) (fun _ => call?_of_not_mem) fun _ => rfl
  intro s text
  simp only [propositionSetForm, propositionSet, alternativesIn, LawfulMonad.bind_assoc, map_bind,
    map_pure]

theorem oldSpelling_marked (text : Text) : oldSpelling ('~' :: text) = .declined := rfl

theorem oldSpelling_unsigned : (oldSpelling text).Meets {} (·.isSigned = false) := by
  unfold oldSpelling
  repeat' split
  all_goals trivial

theorem proposition_negates (hs : splitPolarity text = (.pos, text)) (h : '(' ∈ text) :
    Negates m (proposition s text) (proposition s ('~' :: text)) := by
  refine Negates.orElse (Negates.firstOf fun form hf => ?_) ?_
  · rcases forms_signed_or_unsigned hf with hsigned | hunsigned
    · rw [hsigned.negated s text hs h]
      exact negates_map _
    · rw [hunsigned.declined s text]
      exact negates_of_unsigned (hunsigned.unsigned s text)
  · rw [oldSpelling_marked]
    exact negates_of_unsigned oldSpelling_unsigned

/-- Behind the mark, every proposition that can be negated is. -/
theorem proposition_marked :
    (proposition s ('~' :: text)).Meets {} fun p => p.isSigned = true → p.polarity = .neg := by
  refine .orElse (.firstOf fun r hr => ?_) ?_
  · obtain ⟨form, hf, rfl⟩ := List.mem_map.mp hr
    rcases forms_signed_or_unsigned hf with hsigned | hunsigned
    · exact (hsigned.polarity s text).mono fun p hp _ => hp
    · rw [hunsigned.declined s text]
      trivial
  · rw [oldSpelling_marked]
    trivial

theorem proposition_unmarked (hs : splitPolarity text = (.pos, text)) (h : '(' ∉ text) :
    (proposition s text).Meets {} (·.isSigned = false) := by
  refine .orElse (.firstOf fun r hr => ?_) oldSpelling_unsigned
  obtain ⟨form, hf, rfl⟩ := List.mem_map.mp hr
  rcases forms_signed_or_unsigned hf with hsigned | hunsigned
  · rw [hsigned.call s text hs h]
    trivial
  · exact hunsigned.unsigned s text

theorem proposition_marked_twice : proposition s ('~' :: '~' :: text) = .declined := by
  have hforms : ∀ form ∈ forms, ReadsOnly (fun t => ∀ rest, t ≠ '~' :: '~' :: rest) form := by
    intro form hf s t ht
    obtain ⟨rest, rfl⟩ : ∃ rest, t = '~' :: '~' :: rest := by simpa using ht
    rcases forms_signed_or_unsigned hf with hsigned | hunsigned
    · exact hsigned.once s rest
    · exact hunsigned.declined s _
  have hfirst := ReadsOnly.firstOf hforms s ('~' :: '~' :: text) (by simp)
  simp only at hfirst
  rw [proposition, hfirst]
  rfl

end Grammar

end Parley
