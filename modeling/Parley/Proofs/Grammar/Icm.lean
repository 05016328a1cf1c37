import Parley.Grammar.Icm
import Parley.Proofs.Reading.Meaning
import Parley.Proofs.Surface.Management

/-! # The language of management moves

The parts of a management move say what it is, up to the object that a nested text
denotes: such a move is a draft. Each kind has its own drafts. The rule for management
moves reads the texts whose parts have a draft and no others, and asks for the nested text
of the draft alone.
-/

namespace Parley

open Reading

/-- The content of a management move before a nested text is read. -/
inductive ContentDraft
  | none
  | issue
  /-- Words as they were heard. -/
  | words (words : Text)
  /-- What a nested text denotes. -/
  | object (nested : Text)

namespace ContentDraft

/-- The content, where nested texts are given their objects. -/
def complete (read : Text → Except GrammarError Object) :
    ContentDraft → Except GrammarError IcmContent
  | none => .ok .none
  | issue => .ok .issue
  | words heard => .ok (.text heard)
  | object nested => (read nested).map .semantic

end ContentDraft

structure IcmDraft where
  kind : IcmKind
  polarity : Option IcmPolarity := none
  content : ContentDraft := .none
  contentSpeaker : Option Speaker := none

namespace IcmDraft

/-- The management move, where nested texts are given their objects. -/
def complete (draft : IcmDraft) (read : Text → Except GrammarError Object) :
    Except GrammarError Icm :=
  (draft.content.complete read).map fun content =>
    .mk draft.kind draft.polarity content draft.contentSpeaker

end IcmDraft

/-- The parts of management moves and what they say. Moves that take up an issue again have no
polarity, and a plan is loaded without more ado. What is heard or accepted may be the issue at hand,
and what is heard may be quoted. What is understood may be said to be the utterance of a speaker. -/
inductive IcmShape.Drafts : IcmShape → IcmDraft → Prop
  | issue {k : IcmKind} (hk : k ∈ [.reraise, .accommodate, .resume]) :
    Drafts ⟨k.token, none, none⟩ { kind := k }
  | issueContent {k : IcmKind} {r : Text} (hk : k ∈ [.reraise, .accommodate, .resume])
    (hr : r ≠ []) : Drafts ⟨k.token, none, some r⟩ { kind := k, content := .object r }
  | loadPlan : Drafts ⟨IcmKind.loadPlan.token, none, none⟩ { kind := .loadPlan }
  | grounding {k : IcmKind} {p : IcmPolarity} (hk : k ∈ [.perception, .acceptance]) :
    Drafts ⟨k.token, some p.token, none⟩ { kind := k, polarity := p }
  | groundingIssue {k : IcmKind} {p : IcmPolarity} (hk : k ∈ [.perception, .acceptance]) :
    Drafts ⟨k.token, some p.token, some "issue"⟩ { kind := k, polarity := p, content := .issue }
  | perceivedText {p : IcmPolarity} {words : Text} (hw : '"' ∉ words) :
    Drafts ⟨IcmKind.perception.token, some p.token, some ('"' :: words ++ ['"'])⟩
      { kind := .perception, polarity := p, content := .words words }
  | groundingContent {k : IcmKind} {p : IcmPolarity} {r : Text}
    (hk : k ∈ [.perception, .acceptance]) (hr : r ≠ []) (hi : r ≠ "issue")
    (hq : k = .perception → ∀ words : Text, '"' ∉ words → r ≠ '"' :: words ++ ['"']) :
    Drafts ⟨k.token, some p.token, some r⟩ { kind := k, polarity := p, content := .object r }
  | understanding {k : IcmKind} {p : IcmPolarity} (hk : k ∈ [.semantic, .understanding]) :
    Drafts ⟨k.token, some p.token, none⟩ { kind := k, polarity := p }
  | understandingContent {k : IcmKind} {p : IcmPolarity} {r : Text}
    (hk : k ∈ [.semantic, .understanding]) (hr : r ≠ [])
    (hs : ∀ (speaker : Speaker) (rest : Text), r ≠ speaker.token ++ '*' :: rest) :
    Drafts ⟨k.token, some p.token, some r⟩ { kind := k, polarity := p, content := .object r }
  | understandingSpeaker {k : IcmKind} {p : IcmPolarity} {speaker : Speaker} {r : Text}
    (hk : k ∈ [.semantic, .understanding]) :
    Drafts ⟨k.token, some p.token, some (speaker.token ++ '*' :: r)⟩
      { kind := k, polarity := p, content := .object r, contentSpeaker := speaker }

theorem IcmKind.isWord_token (k : IcmKind) : isWord k.token = true := by cases k <;> rfl

theorem IcmPolarity.isWord_token (p : IcmPolarity) : isWord p.token = true := by cases p <;> rfl

namespace IcmShape.Drafts

variable {shape : IcmShape} {draft : IcmDraft}

theorem isWritable (h : shape.Drafts draft) : shape.IsWritable := by
  have hnone : ∀ {k : IcmKind} {r : Option Text}, IsWritable ⟨k.token, none, r⟩ :=
    fun {k _} => ⟨k.isWord_token, by simp⟩
  have hsome : ∀ {k : IcmKind} {p : IcmPolarity} {r : Option Text},
      IsWritable ⟨k.token, some p.token, r⟩ :=
    fun {k p _} => ⟨k.isWord_token, by simpa using p.isWord_token⟩
  cases h with
  | issue | issueContent | loadPlan => exact hnone
  | grounding | groundingIssue | perceivedText | groundingContent => exact hsome
  | understanding | understandingContent | understandingSpeaker => exact hsome

end IcmShape.Drafts

namespace Grammar

variable {m : Meaning} {text : Text} {shape : IcmShape} {draft : IcmDraft}

/-- What the rule for management moves does with the content of a draft. -/
def readContent : ContentDraft → Reading IcmContent
  | .none => .done .none
  | .issue => .done .issue
  | .words heard => .done (.text heard)
  | .object nested => .semantic <$> readObject nested

def readDraft (draft : IcmDraft) : Reading Icm := do
  return .mk draft.kind draft.polarity (← readContent draft.content) draft.contentSpeaker

theorem readDraft_denote :
    (readDraft draft).denote m =
      match draft.complete m.object with
      | .ok move => .value move
      | .error err => .error err := by
  obtain ⟨kind, polarity, content, speaker⟩ := draft
  cases content with
  | none | issue | words => rfl
  | object nested =>
    change ((Reading.object nested _).bind _).denote m = _
    simp only [Reading.bind, denote, IcmDraft.complete, ContentDraft.complete]
    cases m.object nested <;> rfl

/-- How the parts of a management move are read, by its kind. -/
def moveOfKind (kind : IcmKind) (shape : IcmShape) : Reading Icm :=
  match kind with
  | .reraise | .accommodate | .resume => issueMove kind shape
  | .loadPlan => do
    guard (shape.polarity.isNone && shape.content.isNone)
    return .mk kind none .none none
  | .perception | .acceptance => groundingMove kind shape
  | .semantic | .understanding => understandingMove kind shape

section Kind

variable {k : IcmKind}

theorem moveOfKind_issue (hk : k ∈ [.reraise, .accommodate, .resume]) (shape : IcmShape) :
    moveOfKind k shape = issueMove k shape := by
  simp only [List.mem_cons, List.not_mem_nil, or_false] at hk
  rcases hk with rfl | rfl | rfl <;> rfl

theorem moveOfKind_grounding (hk : k ∈ [.perception, .acceptance]) (shape : IcmShape) :
    moveOfKind k shape = groundingMove k shape := by
  simp only [List.mem_cons, List.not_mem_nil, or_false] at hk
  rcases hk with rfl | rfl <;> rfl

theorem moveOfKind_understanding (hk : k ∈ [.semantic, .understanding]) (shape : IcmShape) :
    moveOfKind k shape = understandingMove k shape := by
  simp only [List.mem_cons, List.not_mem_nil, or_false] at hk
  rcases hk with rfl | rfl <;> rfl

end Kind

theorem icm_eq_moveOfKind {k : IcmKind} (hs : IcmShape.scan? text = some shape)
    (hk : shape.kind = k.token) (hr : shape.content ≠ some []) : icm text = moveOfKind k shape := by
  have hcontent : (shape.content != some []) = true := by simpa using hr
  rw [icm, hs]
  change ofOption (IcmKind.ofToken? shape.kind) >>= _ = _
  rw [hk, IcmKind.ofToken?_token]
  change guard (shape.content != some []) >>= _ = _
  rw [hcontent]
  rfl

theorem exists_kind_of_icm (h : icm text ≠ .declined) :
    ∃ shape k, IcmShape.scan? text = some shape ∧ shape.kind = k.token ∧
      shape.content ≠ some [] ∧ moveOfKind k shape ≠ .declined := by
  cases hs : IcmShape.scan? text with
  | none =>
    rw [icm, hs] at h
    exact absurd rfl h
  | some shape =>
    cases hk : IcmKind.ofToken? shape.kind with
    | none =>
      rw [icm, hs] at h
      change ofOption (IcmKind.ofToken? shape.kind) >>= _ ≠ _ at h
      rw [hk] at h
      exact absurd rfl h
    | some k =>
      have hkind := IcmKind.ofToken?_eq_some_iff.mp hk
      have hr : shape.content ≠ some [] := by
        intro hr
        rw [icm, hs] at h
        change ofOption (IcmKind.ofToken? shape.kind) >>= _ ≠ _ at h
        rw [hk] at h
        change guard (shape.content != some []) >>= _ ≠ _ at h
        rw [hr] at h
        exact absurd rfl h
      refine ⟨shape, k, rfl, hkind, hr, ?_⟩
      rwa [← icm_eq_moveOfKind hs hkind hr]

theorem icmPolarity_token (p : IcmPolarity) : icmPolarity (some p.token) = .done p := by
  cases p <;> rfl

theorem exists_polarity {α : Type} {token : Option Text} {f : IcmPolarity → Reading α}
    (h : icmPolarity token >>= f ≠ .declined) : ∃ p : IcmPolarity, token = some p.token := by
  cases token with
  | none => exact absurd rfl h
  | some t =>
    cases ht : IcmPolarity.ofToken? t with
    | none =>
      rw [icmPolarity, Option.bind_some, ht] at h
      exact absurd rfl h
    | some p => exact ⟨p, congrArg some (IcmPolarity.ofToken?_eq_some_iff.mp ht)⟩

theorem groundingMove_eq (k : IcmKind) (kind : Text) (p : IcmPolarity) (r : Text) :
    groundingMove k ⟨kind, some p.token, some r⟩ =
      groundingContent k r >>= fun content => return .mk k (some p) content none := by
  rw [groundingMove, icmPolarity_token]
  rfl

theorem groundingContent_quoted {words : Text} (hw : '"' ∉ words) :
    groundingContent .perception ('"' :: words ++ ['"']) = .done (.text words) := by
  have hq : doubleQuoted? ('"' :: words ++ ['"']) = some words :=
    quotedBy?_eq_some_iff.mpr ⟨rfl, hw⟩
  simp only [groundingContent, hq]
  rfl

theorem groundingContent_object {k : IcmKind} {r : Text} (hi : r ≠ "issue")
    (hq : k = .perception → ∀ words : Text, '"' ∉ words → r ≠ '"' :: words ++ ['"']) :
    groundingContent k r = .semantic <$> readObject r := by
  have hnone : (if k = .perception then doubleQuoted? r else none) = none := by
    split
    · rename_i hk
      rw [Option.eq_none_iff_forall_ne_some]
      intro words hw
      obtain ⟨he, hn⟩ := quotedBy?_eq_some_iff.mp hw
      exact hq hk words hn he
    · rfl
  rw [groundingContent, if_neg hi, hnone]

theorem understandingMove_eq (k : IcmKind) (kind : Text) (p : IcmPolarity) (r : Text) :
    understandingMove k ⟨kind, some p.token, some r⟩ =
      readObject (splitContentSpeaker r).2 >>= fun o =>
        return .mk k (some p) (.semantic o) (splitContentSpeaker r).1 := by
  rw [understandingMove, icmPolarity_token]
  rfl

theorem splitContentSpeaker_token (speaker : Speaker) (r : Text) :
    splitContentSpeaker (speaker.token ++ '*' :: r) = (some speaker, r) := by
  have hc : Text.cut? '*' (speaker.token ++ '*' :: r) = some (speaker.token, r) :=
    Text.cut?_eq_some_iff.mpr ⟨rfl, by cases speaker <;> decide⟩
  rw [splitContentSpeaker, hc]
  simp only [Speaker.ofToken?_token]

theorem splitContentSpeaker_object {r : Text}
    (hs : ∀ (speaker : Speaker) (rest : Text), r ≠ speaker.token ++ '*' :: rest) :
    splitContentSpeaker r = (none, r) := by
  unfold splitContentSpeaker
  split
  · rename_i token rest hc
    split
    · rename_i speaker ht
      obtain rfl := Speaker.ofToken?_eq_some_iff.mp ht
      exact absurd (Text.cut?_eq_some_iff.mp hc).1 (hs speaker rest)
    · rfl
  · rfl

theorem icm_eq_readDraft (h : shape.Drafts draft) : icm shape.write = readDraft draft := by
  have hscan := IcmShape.scan?_eq_some_iff.mpr ⟨rfl, h.isWritable⟩
  cases h with
  | issue hk =>
    rw [icm_eq_moveOfKind hscan rfl (by simp), moveOfKind_issue hk]
    rfl
  | issueContent hk hr =>
    rw [icm_eq_moveOfKind hscan rfl (by simpa using hr), moveOfKind_issue hk]
    rfl
  | loadPlan => rfl
  | grounding hk =>
    rw [icm_eq_moveOfKind hscan rfl (by simp), moveOfKind_grounding hk, groundingMove,
      icmPolarity_token]
    rfl
  | groundingIssue hk =>
    rw [icm_eq_moveOfKind hscan rfl (by simp), moveOfKind_grounding hk, groundingMove_eq]
    rfl
  | perceivedText hw =>
    rw [@icm_eq_moveOfKind _ _ .perception hscan rfl (by simp), moveOfKind_grounding (by simp),
      groundingMove_eq, groundingContent_quoted hw]
    rfl
  | groundingContent hk hr hi hq =>
    rw [icm_eq_moveOfKind hscan rfl (by simpa using hr), moveOfKind_grounding hk,
      groundingMove_eq, groundingContent_object hi hq]
    rfl
  | understanding hk =>
    rw [icm_eq_moveOfKind hscan rfl (by simp), moveOfKind_understanding hk, understandingMove,
      icmPolarity_token]
    rfl
  | understandingContent hk hr hs =>
    rw [icm_eq_moveOfKind hscan rfl (by simpa using hr), moveOfKind_understanding hk,
      understandingMove_eq, splitContentSpeaker_object hs]
    rfl
  | understandingSpeaker hk =>
    rw [icm_eq_moveOfKind hscan rfl (by simp), moveOfKind_understanding hk, understandingMove_eq,
      splitContentSpeaker_token]
    rfl

section Sound

variable {k : IcmKind} {polarity content : Option Text}

theorem exists_draft_of_issueMove (hk : k ∈ [.reraise, .accommodate, .resume])
    (hr : content ≠ some []) (h : issueMove k ⟨k.token, polarity, content⟩ ≠ .declined) :
    ∃ draft, IcmShape.Drafts ⟨k.token, polarity, content⟩ draft := by
  cases polarity with
  | some token => exact absurd rfl h
  | none =>
    cases content with
    | none => exact ⟨_, .issue hk⟩
    | some r => exact ⟨_, .issueContent hk (by simpa using hr)⟩

theorem exists_draft_of_groundingMove (hk : k ∈ [.perception, .acceptance])
    (hr : content ≠ some []) (h : groundingMove k ⟨k.token, polarity, content⟩ ≠ .declined) :
    ∃ draft, IcmShape.Drafts ⟨k.token, polarity, content⟩ draft := by
  obtain ⟨p, rfl⟩ := exists_polarity h
  cases content with
  | none => exact ⟨_, .grounding hk⟩
  | some r =>
    by_cases hi : r = "issue"
    · subst hi
      exact ⟨_, .groundingIssue hk⟩
    · by_cases hq : k = .perception → ∀ words : Text, '"' ∉ words → r ≠ '"' :: words ++ ['"']
      · exact ⟨_, .groundingContent hk (by simpa using hr) hi hq⟩
      · push Not at hq
        obtain ⟨rfl, words, hw, rfl⟩ := hq
        exact ⟨_, .perceivedText hw⟩

theorem exists_draft_of_understandingMove (hk : k ∈ [.semantic, .understanding])
    (hr : content ≠ some []) (h : understandingMove k ⟨k.token, polarity, content⟩ ≠ .declined) :
    ∃ draft, IcmShape.Drafts ⟨k.token, polarity, content⟩ draft := by
  obtain ⟨p, rfl⟩ := exists_polarity h
  cases content with
  | none => exact ⟨_, .understanding hk⟩
  | some r =>
    by_cases hs : ∀ (speaker : Speaker) (rest : Text), r ≠ speaker.token ++ '*' :: rest
    · exact ⟨_, .understandingContent hk (by simpa using hr) hs⟩
    · push Not at hs
      obtain ⟨speaker, rest, rfl⟩ := hs
      exact ⟨_, .understandingSpeaker hk⟩

/-- A text that the rule for management moves does not decline has parts with a draft. -/
theorem exists_draft_of_icm (h : icm text ≠ .declined) :
    ∃ (shape : IcmShape) (draft : IcmDraft), text = shape.write ∧ shape.Drafts draft := by
  obtain ⟨⟨kind, polarity, content⟩, k, hs, rfl, hr, hmove⟩ := exists_kind_of_icm h
  obtain ⟨rfl, -⟩ := IcmShape.scan?_eq_some_iff.mp hs
  suffices hdraft : ∃ draft, IcmShape.Drafts ⟨k.token, polarity, content⟩ draft by
    obtain ⟨draft, hd⟩ := hdraft
    exact ⟨_, draft, rfl, hd⟩
  cases k with
  | reraise | accommodate | resume => exact exists_draft_of_issueMove (by simp) hr hmove
  | loadPlan =>
    cases polarity with
    | some token => exact absurd rfl hmove
    | none =>
      cases content with
      | some r => exact absurd rfl hmove
      | none => exact ⟨_, .loadPlan⟩
  | perception | acceptance => exact exists_draft_of_groundingMove (by simp) hr hmove
  | semantic | understanding => exact exists_draft_of_understandingMove (by simp) hr hmove

end Sound

end Grammar

end Parley
