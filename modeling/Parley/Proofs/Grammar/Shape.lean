import Parley.Proofs.Grammar.Opening
import Parley.Proofs.Reading.Contract
import Parley.Proofs.Surface.Management

/-! # Shapes of what is read

Where the individuals of an ontology have words as names and nested texts have one
of the shapes of texts that denote something, a rule reads only such texts. The
forms of propositions read only names and calls.
-/

namespace Parley

open Reading

/-- Nested texts have the shapes of texts that denote something. -/
def shaping : Contract where
  object t _ := Shaped t
  proposition t _ := Plain t

theorem ReadsOnly.meets {α : Type} {P : Text → Prop} {read : Setting → Text → Reading α}
    {s : Setting} {text : Text} (h : ReadsOnly P read) :
    (read s text).Meets shaping fun _ => P text := by
  by_cases ht : P text
  · exact .const _ ht
  · rw [h s text ht]
    trivial

section Quoted

variable {text inner sign : Text}

theorem Shaped.of_unquote (h : unquote? text = some inner) (hs : sign.mark = none) :
    Shaped (sign ++ text) := by
  have hquote : ∀ quote ∈ ['"', '\''], quotedBy? quote text = some inner →
      Shaped (sign ++ text) := by
    intro quote hq h
    obtain ⟨rfl, hi⟩ := quotedBy?_eq_some_iff.mp h
    exact .quoted hs hq hi
  rcases Option.or_eq_some_iff.mp h with h | ⟨-, h⟩
  · exact hquote _ (by simp) h
  · exact hquote _ (by simp) h

end Quoted

section Management

variable {text : Text}

/-- The parts of a management move follow its marks, so it is shaped if its content is. -/
theorem IcmShape.shaped {shape : IcmShape} (h : IcmShape.scan? text = some shape)
    (hc : ∀ content, shape.content = some content → Shaped content) : Shaped text := by
  obtain ⟨rfl, hw⟩ := scan?_eq_some_iff.mp h
  obtain ⟨kind, polarity, content⟩ := shape
  refine @Shaped.marked "icm" _ ':' rfl (by decide) ?_
  -- The last word before the content is followed by a colon or by nothing.
  have htail : ∀ word : Text, isWord word = true → Shaped (word ++ Text.marked ':' content) := by
    intro word hword
    cases content with
    | none =>
      rw [Text.marked, List.append_nil]
      exact .plain (.of_isWord hword)
    | some content => exact .marked (mark_of_isWord hword) (by decide) (hc content rfl)
  cases polarity with
  | none => simpa [Text.marked] using htail kind hw.kind
  | some polarity =>
    have hrest := htail polarity (hw.polarity polarity rfl)
    simpa [Text.marked] using @Shaped.marked kind _ '*' (mark_of_isWord hw.kind) (by decide) hrest

end Management

namespace Grammar

variable {s : Setting} {text : Text}

theorem value?_shaped (hnames : ∀ entry ∈ s.ontology.individuals, isWord entry.1 = true)
    {value : Value} {sign : Text} (h : value? s text = some value) (hs : sign.mark = none) :
    Shaped (sign ++ text) := by
  rcases value?_form hnames h with hp | ⟨inner, hq⟩
  · exact .plain (hp.signed hs)
  · exact .of_unquote hq hs

theorem individual_shaped (hnames : ∀ entry ∈ s.ontology.individuals, isWord entry.1 = true) :
    (individual s text).Meets shaping fun _ => Shaped text := by
  obtain ⟨sign, hs, he⟩ := exists_sign text
  refine .option fun value hv => .const _ ?_
  rw [he]
  exact value?_shaped hnames hv hs

theorem proposition_plain : (proposition s text).Meets shaping fun _ => Plain text :=
  proposition_readsOnly.meets

theorem shaped_of_plain {α : Type} {read : Setting → Text → Reading α}
    (h : ReadsOnly Plain read) : (read s text).Meets shaping fun _ => Shaped text :=
  h.meets.mono fun _ => .plain

theorem call_shaped {α : Type} {keyword : Text} {f : Text → Reading α} (hk : keyword.mark = none) :
    (ofOption (call? keyword text) >>= f).Meets shaping fun _ => Shaped text :=
  .option fun _ h => .const _ (.plain (.of_call hk h))

theorem nonemptyCall_shaped {α : Type} {keyword : Text} {f : Text → Reading α}
    (hk : keyword.mark = none) :
    (ofOption (nonemptyCall? keyword text) >>= f).Meets shaping fun _ => Shaped text :=
  .option fun _ h => .const _ (.plain (.of_nonemptyCall hk h))

theorem word_shaped {α : Type} {word : Text} {a : α} {r : Reading α} (hw : Plain word)
    (hr : r.Meets shaping fun _ => Shaped text) :
    (if text = word then done a else r).Meets shaping fun _ => Shaped text :=
  .ite (fun h => .plain (h ▸ hw)) fun _ => hr

theorem question_shaped : (question text).Meets shaping fun _ => Shaped text := by
  refine .option fun inner h => .object trivial fun _ ho => .const _ ?_
  obtain rfl := Text.dropPrefix?_eq_some_iff.mp h
  exact @Shaped.marked [] inner '?' rfl (by decide) ho

theorem splitContentSpeaker_shaped (h : Shaped (splitContentSpeaker text).2) : Shaped text := by
  unfold splitContentSpeaker at h
  split at h
  · rename_i token rest hc
    split at h
    · rename_i speaker hs
      obtain ⟨rfl, -⟩ := Text.cut?_eq_some_iff.mp hc
      obtain rfl := Speaker.ofToken?_eq_some_iff.mp hs
      exact .marked (by cases speaker <;> rfl) (by decide) h
    · exact h
  · exact h

def ContentShaped (shape : IcmShape) : Prop :=
  ∀ content, shape.content = some content → Shaped content

theorem contentShaped_of_none {shape : IcmShape} (h : shape.content = none) :
    ContentShaped shape := by
  intro content hc
  cases h.symm.trans hc

theorem contentShaped_of_some {shape : IcmShape} (h : shape.content = some text)
    (ht : Shaped text) : ContentShaped shape := by
  intro content hc
  obtain rfl := Option.some.inj (h.symm.trans hc)
  exact ht

theorem issueMove_shaped {kind : IcmKind} {shape : IcmShape} :
    (issueMove kind shape).Meets shaping fun _ => ContentShaped shape := by
  refine .guarded fun _ => ?_
  split
  · exact contentShaped_of_none ‹_›
  · exact .object trivial fun _ ho => contentShaped_of_some ‹_› ho

theorem groundingContent_shaped {kind : IcmKind} :
    (groundingContent kind text).Meets shaping fun _ => Shaped text := by
  refine .ite (fun h => ?_) fun _ => ?_
  · exact .plain (.of_isWord (h ▸ rfl))
  · split
    · rename_i words hw
      split at hw
      · obtain ⟨rfl, hi⟩ := quotedBy?_eq_some_iff.mp hw
        exact @Shaped.quoted [] words '"' rfl (by simp) hi
      · cases hw
    · exact .map (meets_readObject.mpr ⟨trivial, fun _ ho => ho⟩)

theorem groundingMove_shaped {kind : IcmKind} {shape : IcmShape} :
    (groundingMove kind shape).Meets shaping fun _ => ContentShaped shape := by
  refine .option fun _ _ => ?_
  split
  · exact contentShaped_of_none ‹_›
  · exact groundingContent_shaped.bind fun _ ht => contentShaped_of_some ‹_› ht

theorem understandingMove_shaped {kind : IcmKind} {shape : IcmShape} :
    (understandingMove kind shape).Meets shaping fun _ => ContentShaped shape := by
  refine .option fun _ _ => ?_
  split
  · exact contentShaped_of_none ‹_›
  · exact .object trivial fun _ ho =>
      contentShaped_of_some ‹_› (splitContentSpeaker_shaped ho)

theorem icm_shaped : (icm text).Meets shaping fun _ => Shaped text := by
  refine .option fun shape hs => .option fun kind _ => .guarded fun _ => ?_
  refine Meets.mono (P := fun _ => ContentShaped shape) ?_ fun _ hc => IcmShape.shaped hs hc
  cases kind
  case loadPlan =>
    refine .guarded fun hn => contentShaped_of_none ?_
    simpa using (Bool.and_eq_true_iff.mp hn).2
  case reraise | accommodate | resume => exact issueMove_shaped
  case perception | acceptance => exact groundingMove_shaped
  case semantic | understanding => exact understandingMove_shaped

theorem moveRules_shaped {rule : Rule} (h : rule ∈ moveRules) :
    (rule s text).Meets shaping fun _ => Shaped text := by
  have hbasic : (basicMove s text).Meets shaping fun _ => Shaped text := by
    refine .option fun m hm => .plain ?_
    have hk := List.find?_some hm
    have hmem := List.mem_of_find?_eq_some hm
    obtain rfl : m.keyword = text := by simpa using hk
    simp only [basicMoves, List.mem_cons, List.not_mem_nil, or_false] at hmem
    rcases hmem with rfl | rfl | rfl | rfl | rfl | rfl <;> exact .name (by decide) rfl
  simp only [moveRules, List.mem_cons, List.not_mem_nil, or_false] at h
  rcases h with rfl | rfl | rfl | rfl | rfl | rfl | rfl | rfl | rfl
  case inr.inl => exact hbasic
  case inr.inr.inr.inr.inr.inr.inr.inr => exact icm_shaped.bind fun _ h => h
  all_goals exact call_shaped rfl

theorem ifThenElse_shaped : (ifThenElse s text).Meets shaping fun _ => Shaped text := by
  have hbranch : ∀ {t : Text}, (branch t).Meets shaping fun _ =>
      t.isBlankText = false → Shaped t.trim := by
    refine fun {t} => .ite (fun ht => ?_) fun _ => .object trivial fun _ ho _ => ho
    rw [meets_done, ht]
    exact fun h => nomatch h
  refine .option fun shape hs => .proposition trivial fun _ hc => ?_
  refine hbranch.bind fun _ hx => hbranch.bind fun _ hy => ?_
  obtain ⟨x, y, rfl, -, hfx, hfy, hxt, hyt⟩ := ConditionalShape.scan?_eq_some hs
  have hblank : ∀ {word z : Text}, FollowsLast word z →
      z.isBlankText = Text.isBlankText z.tail := by
    intro word z hz
    rw [Text.isBlankText, Text.isBlankText, hz.trim_tail]
  rw [hxt, ← hblank hfx, hfx.trim_tail] at hx
  rw [hyt, ← hblank hfy, hfy.trim_tail] at hy
  simpa using Shaped.conditional hc hfx hfy hx hy

theorem planRules_shaped {rule : Rule} (h : rule ∈ planRules) :
    (rule s text).Meets shaping fun _ => Shaped text := by
  have hgoal : (goal s text).Meets shaping fun _ => Shaped text := by
    refine .firstOf fun r hr => ?_
    simp only [List.mem_cons, List.not_mem_nil, or_false] at hr
    rcases hr with rfl | rfl | rfl | rfl
    · exact call_shaped rfl
    · exact call_shaped rfl
    · exact call_shaped rfl
    · exact nonemptyCall_shaped rfl
  simp only [planRules, List.mem_cons, List.not_mem_nil, or_false] at h
  rcases h with rfl | rfl | rfl | rfl | rfl | rfl | rfl | rfl | rfl | rfl | rfl | rfl | rfl | rfl |
    rfl | rfl | rfl | rfl | rfl | rfl | rfl | rfl
  · exact (call_shaped rfl).bind fun _ h => h
  · exact call_shaped rfl
  · exact (call_shaped rfl).bind fun _ h => h
  · exact (call_shaped rfl).bind fun _ h => h
  · exact (call_shaped rfl).bind fun _ h => h
  · exact (call_shaped rfl).bind fun _ h => h
  · exact ifThenElse_shaped
  · exact call_shaped rfl
  · exact word_shaped (.name (by decide) rfl) trivial
  · exact (call_shaped rfl).bind fun _ h => h
  · exact (call_shaped rfl).bind fun _ h => h
  · exact (call_shaped rfl).bind fun _ h => h
  · exact word_shaped (.name (by decide) rfl) trivial
  · exact nonemptyCall_shaped rfl
  · exact .map hgoal
  · exact (call_shaped rfl).bind fun _ h => h
  · exact call_shaped rfl
  · exact (call_shaped rfl).bind fun _ h => h
  · exact nonemptyCall_shaped rfl
  · exact nonemptyCall_shaped rfl
  · exact call_shaped rfl
  · exact call_shaped rfl

theorem propositionRules_shaped {rule : Rule} (h : rule ∈ propositionRules) :
    (rule s text).Meets shaping fun _ => Shaped text := by
  simp only [propositionRules, List.mem_cons, List.not_mem_nil, or_false] at h
  rcases h with rfl | rfl | rfl | rfl | rfl | rfl | rfl | rfl | rfl
  · exact .map question_shaped
  · exact word_shaped (@Plain.call "X.goal" "X" rfl (by decide)) trivial
  · exact shaped_of_plain lambdaPredicate_readsOnly
  · exact call_shaped rfl
  · exact call_shaped rfl
  · exact word_shaped (@Plain.call "SuccessfulServiceAction" [] rfl (by decide)) trivial
  · exact call_shaped rfl
  · exact .map (word_shaped (.name (by decide) rfl) trivial)
  · exact .map (shaped_of_plain proposition_readsOnly)

theorem valueRules_shaped (hnames : ∀ entry ∈ s.ontology.individuals, isWord entry.1 = true)
    {rule : Rule} (h : rule ∈ valueRules) : (rule s text).Meets shaping fun _ => Shaped text := by
  have hitems : ∀ {inner : Text}, (items readObject inner).Meets shaping fun _ =>
      ∀ piece ∈ splitTopLevel ',' inner, Shaped piece := by
    intro inner
    refine (Meets.items (P := fun _ => True) fun t _ => ?_).mono fun _ hv => hv.2
    exact meets_readObject.mpr ⟨trivial, fun _ ho => ⟨trivial, ho⟩⟩
  simp only [valueRules, List.mem_cons, List.not_mem_nil, or_false] at h
  rcases h with rfl | rfl | rfl | rfl | rfl | rfl | rfl | rfl
  · exact shaped_of_plain yesNo_readsOnly
  · exact shaped_of_plain propositionSetRule_readsOnly
  · exact shaped_of_plain predicateRule_readsOnly
  · exact shaped_of_plain actionRule_readsOnly
  · exact .map (individual_shaped hnames)
  · exact .map (meets_ofOption.mpr fun _ h => @Shaped.of_unquote _ _ [] h rfl)
  · refine .option fun inner hb => hitems.bind fun _ hp => ?_
    obtain rfl := braced?_eq_some_iff.mp hb
    exact Shaped.container (by decide) hp
  · refine .option fun inner hb => hitems.bind fun _ hp => ?_
    obtain rfl := bracketed?_eq_some_iff.mp hb
    exact Shaped.container (by decide) hp

/-- Where individuals have words as names and nested texts have the shapes of texts that denote
something, a rule reads only texts of such shapes. -/
theorem rules_shaped (hnames : ∀ entry ∈ s.ontology.individuals, isWord entry.1 = true)
    {rule : Rule} (h : rule ∈ rules) : (rule s text).Meets shaping fun _ => Shaped text := by
  simp only [rules, List.mem_append] at h
  rcases h with ((h | h) | h) | h
  · exact moveRules_shaped h
  · exact planRules_shaped h
  · exact propositionRules_shaped h
  · exact valueRules_shaped hnames h

end Grammar

end Parley
