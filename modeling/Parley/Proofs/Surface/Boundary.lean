import Parley.Proofs.Surface.Shape

/-! # Where texts end

A text that denotes something does not go on to another one with a comma, nor with
the end of a container: a call and a quoted text are closed, and the other shapes
pass what follows on to their last part. A conditional needs more, since its last
` else ` may move when the text goes on. Then the branch before it is cut at another
` else `, and of two such branches the shorter one would go on with a blank to the
longer one, in which no ` then ` stands.
-/

namespace Parley

/-- After blanks, a comma or the end of a container follows. -/
def Stops (text : Text) : Prop :=
  ∃ blanks stop rest, text = blanks ++ stop :: rest ∧ (∀ b ∈ blanks, isBlank b = true) ∧
    stop ∈ [',', ']', '}']

/-- How a text goes on that is not to denote anything then: with a stop, or with a blank where no
conditional arises. -/
inductive GoesOn (text : Text) : Text → Prop
  | stop {more : Text} (h : Stops more) : GoesOn text more
  | blank {b : Char} {rest : Text} (hb : isBlank b = true)
    (hn : ¬ (" then " : Text) <:+: text ++ b :: rest) : GoesOn text (b :: rest)

variable {text more rest : Text} {b : Char}

theorem isBreak_of_isBlank (h : isBlank b = true) : isBreak b = true := by
  simp [isBreak, h]

theorem stop_cases {c : Char} (h : c ∈ [',', ']', '}']) :
    isBlank c = false ∧ isBreak c = true ∧ c ≠ ' ' ∧ c ≠ 'e' := by
  simp only [List.mem_cons, List.not_mem_nil, or_false] at h
  rcases h with rfl | rfl | rfl <;> decide

theorem Stops.exists_break (h : Stops text) : ∃ b rest, text = b :: rest ∧ isBreak b = true := by
  obtain ⟨blanks, stop, rest, rfl, hb, hs⟩ := h
  cases blanks with
  | nil => exact ⟨stop, rest, rfl, (stop_cases hs).2.1⟩
  | cons b blanks => exact ⟨b, blanks ++ stop :: rest, rfl, isBreak_of_isBlank (hb b (by simp))⟩

theorem GoesOn.exists_break (h : GoesOn text more) :
    ∃ b rest, more = b :: rest ∧ isBreak b = true := by
  cases h with
  | stop h => exact h.exists_break
  | blank hb hn => exact ⟨_, _, rfl, isBreak_of_isBlank hb⟩

theorem GoesOn.of_append {lead : Text} (h : GoesOn (lead ++ text) more) : GoesOn text more := by
  cases h with
  | stop h => exact .stop h
  | blank hb hn =>
    refine .blank hb fun hi => hn (hi.trans (List.IsSuffix.isInfix ⟨lead, ?_⟩))
    simp

theorem append_cons_eq_concat {inner inner' : Text} {c d : Char} (hm : more ≠ [])
    (h : inner ++ c :: more = inner' ++ [d]) : ∃ more', inner' = inner ++ c :: more' := by
  obtain ⟨more', e, rfl⟩ := (List.eq_nil_or_concat' more).resolve_left hm
  have h' : (inner ++ c :: more') ++ [e] = inner' ++ [d] := by simpa using h
  exact ⟨more', (List.append_inj' h' rfl).1.symm⟩

theorem call_not_append {lead inner : Text} (hl : lead.mark = none) (hi : isBalanced inner = true)
    (hne : more ≠ []) : ¬ Shaped (lead ++ '(' :: (inner ++ [')']) ++ more) := by
  intro h
  rw [List.append_assoc, List.cons_append, List.append_assoc] at h
  obtain ⟨inner', hr, hi'⟩ := h.of_call hl
  obtain ⟨more', rfl⟩ := append_cons_eq_concat hne hr
  simp [isBalanced_append hi] at hi'

theorem Plain.not_append (h : Plain text) (hb : isBreak b = true) :
    ¬ Plain (text ++ b :: rest) := by
  intro h'
  cases h with
  | name hn hm =>
    obtain ⟨rfl, -⟩ := h'.of_mark hm (isPlainChar_of_isBreak hb)
    exact absurd hb (by decide)
  | call hl hi => exact call_not_append hl hi (by simp) (.plain h')

theorem Plain.append_unique {s t u v : Text} (hs : Plain s) (ht : Plain t)
    (h : s ++ ' ' :: u = t ++ ' ' :: v) : s = t ∧ u = v := by
  have hlonger : ∀ {s t u v : Text} {d : Char} {ds : Text}, Plain s → Plain t →
      t = s ++ d :: ds → ' ' :: u = d :: ds ++ ' ' :: v → False := by
    rintro s t u v d ds hs ht rfl he
    obtain ⟨rfl, -⟩ := List.cons.inj he
    exact hs.not_append (by decide) ht
  rcases List.append_eq_append_iff.mp h with ⟨_ | ⟨d, ds⟩, ht', he⟩ | ⟨_ | ⟨d, ds⟩, hs', he⟩
  · simp_all
  · exact (hlonger hs ht ht' he).elim
  · simp_all
  · exact (hlonger ht hs hs' he).elim

section Parts

variable {n : Nat}
  (ih : ∀ text more : Text, text.length < n → Shaped text → GoesOn text more →
    ¬ Shaped (text ++ more))

theorem length_trim_le (text : Text) : text.trim.length ≤ text.length :=
  (Text.trim_isInfix text).length_le

include ih in
theorem part_not_append {x more : Text} (hlen : x.length < n) (hm : Stops more)
    (h : x.isBlankText = false → Shaped x.trim) : ¬ Shaped (x ++ more).trim := by
  intro h'
  obtain ⟨blanks, stop, rest, rfl, hb, hs⟩ := hm
  obtain ⟨hblank, hbreak, -⟩ := stop_cases hs
  cases hx : x.isBlankText with
  | true =>
    have hall : ∀ b ∈ x ++ blanks, isBlank b = true :=
      List.forall_mem_append.mpr ⟨Text.isBlankText_iff.mp hx, hb⟩
    rw [← List.append_assoc, Text.trim_append_of_blank hall hblank] at h'
    exact h'.not_break_cons hbreak
  | false =>
    obtain ⟨blanks', hb', he⟩ := Text.trim_append hx hblank blanks rest
    rw [he] at h'
    refine ih _ _ ((length_trim_le x).trans_lt hlen) (h hx) (.stop ⟨_, _, _, rfl, ?_, hs⟩) h'
    exact List.forall_mem_append.mpr ⟨hb', hb⟩

theorem blank_of_else {x rest : Text} (hx : ∀ b ∈ x, isBlank b = true)
    (hr : ∀ c ∈ rest.head?, isBreak c = true) (h : Shaped (x ++ " else" ++ rest).trim) :
    rest.isBlankText = true := by
  by_contra hn
  obtain ⟨before, c, after, rfl, hc⟩ :=
    Text.isBlankText_eq_false_iff.mp (Bool.not_eq_true _ ▸ hn)
  have hall : ∀ b ∈ x ++ [' '], isBlank b = true :=
    List.forall_mem_append.mpr ⟨hx, List.forall_mem_singleton.mpr rfl⟩
  have he : x ++ " else" ++ (before ++ c :: after) =
      x ++ [' '] ++ 'e' :: ("lse" ++ before ++ c :: after) := by simp
  rw [he, Text.trim_append_of_blank hall rfl, Text.trimEnd_append_cons hc] at h
  have hbreak : ∃ b tail, before ++ c :: Text.trimEnd after = b :: tail ∧ isBreak b = true := by
    cases before with
    | nil => exact ⟨c, _, rfl, hr c rfl⟩
    | cons b before => exact ⟨b, _, rfl, hr b rfl⟩
  obtain ⟨b, tail, ht, hb⟩ := hbreak
  have hshape : Shaped ("else" ++ b :: tail) := by
    rw [← ht]
    simpa using h
  exact absurd (hshape.of_break rfl hb).2 (by decide)

include ih in
/-- A branch does not go on with ` else` to another one, since no ` then ` stands there. -/
theorem branch_not_else {x rest : Text} (hlen : x.length < n) (hx : x.isBlankText = false)
    (h : Shaped x.trim) (hn : ¬ (" then " : Text) <:+: x ++ " else" ++ rest) :
    ¬ Shaped (x ++ " else" ++ rest).trim := by
  intro h'
  have he : x ++ " else" ++ rest = x ++ ([' '] ++ 'e' :: ("lse" ++ rest)) := by simp
  obtain ⟨blanks, hb, ht⟩ := Text.trim_append hx (c := 'e') rfl [' '] ("lse" ++ rest)
  have hinfix := (Text.trim_isInfix (x ++ " else" ++ rest))
  rw [he] at h' hinfix
  rw [ht] at h' hinfix
  have hcons : ∃ b tail, blanks ++ [' '] ++ 'e' :: Text.trimEnd ("lse" ++ rest) = b :: tail ∧
      isBlank b = true := by
    cases blanks with
    | nil => exact ⟨' ', _, rfl, rfl⟩
    | cons b blanks => exact ⟨b, _, rfl, hb b (by simp)⟩
  obtain ⟨b, tail, hbt, hblank⟩ := hcons
  rw [hbt] at h' hinfix
  refine ih _ _ ((length_trim_le x).trans_lt hlen) h (.blank hblank fun hi => ?_) h'
  exact hn (he ▸ hi.trans hinfix)

/-- Two places where ` else` stands do not overlap. -/
theorem append_else_eq {s t z : Text} (hz : z ≠ []) (h : z ++ (" else" ++ t) = " else" ++ s) :
    ∃ z', z = " else" ++ z' ∧ s = z' ++ (" else" ++ t) := by
  have he : (" else" : Text) = [' ', 'e', 'l', 's', 'e'] := rfl
  rw [he] at h ⊢
  rcases z with _ | ⟨a, _ | ⟨b, _ | ⟨c, _ | ⟨d, _ | ⟨e, z⟩⟩⟩⟩⟩ <;> simp_all

/-- A text that goes on with a break ends before ` else` or after it. -/
theorem append_eq_else {s t z : Text} (hz : z ≠ []) (hb : isBreak b = true)
    (h : z ++ b :: s = " else" ++ t) : ∃ z', z = " else" ++ z' ∧ t = z' ++ b :: s := by
  have he : (" else" : Text) = [' ', 'e', 'l', 's', 'e'] := rfl
  have hne : isBreak 'e' = false ∧ isBreak 'l' = false ∧ isBreak 's' = false := by decide
  rw [he] at h ⊢
  rcases z with _ | ⟨a, _ | ⟨b, _ | ⟨c, _ | ⟨d, _ | ⟨e, z⟩⟩⟩⟩⟩ <;> simp_all

theorem Stops.of_else {s t : Text} (h : Stops (s ++ (" else" ++ t))) : Stops s := by
  obtain ⟨blanks, stop, rest, he, hb, hs⟩ := h
  obtain ⟨-, -, hblank, hletter⟩ := stop_cases hs
  rcases List.append_eq_append_iff.mp he with ⟨k, rfl, hk⟩ | ⟨_ | ⟨c, k⟩, rfl, hk⟩
  · -- The blanks cannot reach into ` else`, since its second character is a letter.
    rcases k with _ | ⟨c, _ | ⟨d, k⟩⟩
    · exact absurd (List.cons.inj hk).1.symm hblank
    · exact absurd (List.cons.inj (List.cons.inj hk).2).1.symm hletter
    · have hd : 'e' = d := (List.cons.inj (List.cons.inj hk).2).1
      have := hb d (by simp)
      simp [← hd, isBlank] at this
  · exact absurd (List.cons.inj hk).1 hblank
  · obtain rfl := (List.cons.inj hk).1
    exact ⟨blanks, stop, k, rfl, hb, hs⟩

theorem Stops.not_blank {s : Text} (h : Stops s) (t : Text) : (t ++ s).isBlankText = false := by
  obtain ⟨blanks, stop, rest, rfl, -, hs⟩ := h
  exact Text.isBlankText_eq_false_iff.mpr
    ⟨t ++ blanks, stop, rest, by simp, (stop_cases hs).1⟩

theorem else_not_blank (s t : Text) : (s ++ " else" ++ t).isBlankText = false :=
  Text.isBlankText_eq_false_iff.mpr ⟨s ++ [' '], 'e', "lse" ++ t, by simp, rfl⟩

theorem FollowsLast.head_break {word s : Text} (hs : FollowsLast word s) (h : Stops more) :
    ∀ c ∈ (s ++ more).head?, isBreak c = true := by
  cases s with
  | nil =>
    obtain ⟨b, rest, rfl, hb⟩ := h.exists_break
    rintro c ⟨⟩
    exact hb
  | cons d s =>
    rintro c ⟨⟩
    rw [hs.starts_blank d rfl]
    rfl

theorem FollowsLast.not_else {s t : Text} (h : FollowsLast " else" (s ++ (" else" ++ t)))
    (ht : ∀ c ∈ t.head?, c = ' ') : False := by
  refine h.not_again ?_
  cases t with
  | nil => exact ⟨s, [], by simp⟩
  | cons c t =>
    obtain rfl := ht c rfl
    exact ⟨s, t ++ [' '], by simp⟩

theorem FollowsLast.not_then {s : Text} (h : FollowsLast " then" s) :
    ¬ (" then " : Text) <:+: s :=
  fun hi => h.not_again (hi.trans (List.prefix_append ..).isInfix)

/-- A later last ` else` does not stand before the stop with which the text goes on. -/
theorem exists_stops_of_else {y y' z : Text} (hy : FollowsLast " else" y)
    (hy' : FollowsLast " else" y') (hm : Stops more) (h : y ++ more = z ++ (" else" ++ y')) :
    ∃ s, z = y ++ s ∧ Stops s := by
  rcases List.append_eq_append_iff.mp h with ⟨s, rfl, rfl⟩ | ⟨_ | ⟨c, s⟩, rfl, hs⟩
  · exact ⟨s, rfl, hm.of_else⟩
  · obtain rfl : (" else" : Text) ++ y' = more := hs
    exact ⟨[], by simp, Stops.of_else (s := []) hm⟩
  · obtain ⟨b, rest, rfl, hb⟩ := hm.exists_break
    obtain ⟨s', hs', rfl⟩ := append_eq_else (by simp) hb hs.symm
    rw [hs'] at hy
    refine (hy.not_else fun c hc => hy'.starts_blank c ?_).elim
    cases s' with
    | nil => cases hc
    | cons d s' => exact hc

include ih in
theorem branches_not_append {x y x' y' : Text} (hlen : x.length + y.length < n)
    (hx : FollowsLast " then" x) (hy : FollowsLast " else" y) (hx' : FollowsLast " then" x')
    (hy' : FollowsLast " else" y')
    (hsx : x.isBlankText = false → Shaped x.trim) (hsy : y.isBlankText = false → Shaped y.trim)
    (hsx' : x'.isBlankText = false → Shaped x'.trim)
    (hsy' : y'.isBlankText = false → Shaped y'.trim) (hm : Stops more)
    (h : x ++ (" else" ++ (y ++ more)) = x' ++ (" else" ++ y')) : False := by
  -- The last ` else` stays where it is, moves on into what follows, or moves back.
  have hstays : y' = y ++ more → False := by
    rintro rfl
    exact part_not_append ih (by omega) hm hsy (hsy' (hm.not_blank y))
  have hon : ∀ z, x' = x ++ " else" ++ z → y ++ more = z ++ (" else" ++ y') → False := by
    rintro z rfl hz
    obtain ⟨s, rfl, hs⟩ := exists_stops_of_else hy hy' hm hz
    have hshaped := hsx' (else_not_blank x (y ++ s))
    cases hblank : x.isBlankText with
    | true =>
      have := blank_of_else (Text.isBlankText_iff.mp hblank) (hy.head_break hs) hshaped
      simp [hs.not_blank y] at this
    | false => exact branch_not_else ih (by omega) hblank (hsx hblank) hx'.not_then hshaped
  have hback : ∀ z, x = x' ++ " else" ++ z → y' = z ++ (" else" ++ (y ++ more)) → False := by
    rintro z rfl rfl
    have hshaped := hsx (else_not_blank x' z)
    cases hblank : x'.isBlankText with
    | true =>
      have hz : ∀ c ∈ z.head?, isBreak c = true := by
        intro c hc
        cases z with
        | nil => cases hc
        | cons d z =>
          rw [hy'.starts_blank c hc]
          rfl
      have hzb := blank_of_else (Text.isBlankText_iff.mp hblank) hz hshaped
      rw [← List.append_assoc] at hsy'
      have := blank_of_else (Text.isBlankText_iff.mp hzb) (hy.head_break hm)
        (hsy' (else_not_blank z (y ++ more)))
      simp [hm.not_blank y] at this
    | false =>
      refine branch_not_else ih ?_ hblank (hsx' hblank) hx.not_then hshaped
      simp only [List.length_append] at hlen
      omega
  rcases List.append_eq_append_iff.mp h with ⟨z, rfl, hz⟩ | ⟨z, rfl, hz⟩
  · by_cases hn : z = []
    · subst hn
      exact hstays (List.append_cancel_left hz).symm
    · obtain ⟨z', rfl, hz'⟩ := append_else_eq hn hz.symm
      exact hon z' (by simp) hz'
  · by_cases hn : z = []
    · subst hn
      exact hstays (List.append_cancel_left hz)
    · obtain ⟨z', rfl, hz'⟩ := append_else_eq hn hz.symm
      exact hback z' (by simp) hz'

include ih in
theorem items_not_append {inner : Text} {stop : Char} (hlen : inner.length < n)
    (hs : stop ∈ [']', '}']) (h : ∀ piece ∈ splitTopLevel ',' inner, Shaped piece)
    (h' : ∀ piece ∈ splitTopLevel ',' (inner ++ stop :: rest), Shaped piece) : False := by
  have hmem : stop ∈ [',', ']', '}'] := List.mem_cons_of_mem _ hs
  have hcomma : stop ≠ ',' := by
    simp only [List.mem_cons, List.not_mem_nil, or_false] at hs
    rcases hs with rfl | rfl <;> decide
  obtain ⟨init, last, head, pieces, hp, hhead, hp'⟩ :=
    Nesting.pieces_append {} ',' inner (stop :: rest)
  have hcons : ∃ more, head = stop :: more := by
    rw [Nesting.pieces, if_neg (by simp [hcomma])] at hhead
    split at hhead
    · exact ⟨[], (List.cons.inj hhead).1.symm⟩
    · exact ⟨_, (List.cons.inj hhead).1.symm⟩
  obtain ⟨more, rfl⟩ := hcons
  have hstops : Stops (stop :: more) := ⟨[], stop, more, rfl, by simp, hmem⟩
  have hmem_last : last ∈ Nesting.pieces ',' {} inner := by
    rw [hp]
    simp
  have hlast : last <:+: inner := Nesting.pieces_isInfix hmem_last
  refine part_not_append ih (lt_of_le_of_lt hlast.length_le hlen) hstops (fun hn => ?_) (h' _ ?_)
  · refine h _ ?_
    have hb : inner.isBlankText = false := by
      obtain ⟨before, c, after, rfl, hc⟩ := Text.isBlankText_eq_false_iff.mp hn
      obtain ⟨s, t, rfl⟩ := hlast
      exact Text.isBlankText_eq_false_iff.mpr ⟨s ++ before, c, after ++ t, by simp, hc⟩
    rw [splitTopLevel, if_neg (by simp [hb]), hp]
    simp
  · have hstops' : Stops (stop :: rest) := ⟨[], stop, rest, rfl, by simp, hmem⟩
    rw [splitTopLevel, if_neg (by simp [hstops'.not_blank inner]), hp']
    simp

end Parts

theorem Shaped.not_blank (h : Shaped text) : text.isBlankText = false := by
  rw [← Bool.not_eq_true, Text.isBlankText_iff]
  intro hb
  cases text with
  | nil =>
    generalize he : ([] : Text) = text at h
    cases h with
    | plain h => exact h.ne_nil he.symm
    | quoted | marked | conditional | container => simp at he
  | cons c text => exact h.not_break_cons (isBreak_of_isBlank (hb c List.mem_cons_self))

/-- In a conditional ` then ` stands, also where nothing stands before ` else`. -/
theorem FollowsLast.then_isInfix {x : Text} (hx : FollowsLast " then" x) (s t : Text) :
    (" then " : Text) <:+: s ++ " then" ++ x ++ " else" ++ t := by
  cases x with
  | nil => exact ⟨s, "else" ++ t, by simp⟩
  | cons c x =>
    obtain rfl := hx.starts_blank c rfl
    exact ⟨s, x ++ " else" ++ t, by simp⟩

theorem name_not_append (hm : text.mark = none) (hg : GoesOn text more) :
    ¬ Shaped (text ++ more) := by
  intro h
  obtain ⟨b, rest, rfl, hb⟩ := hg.exists_break
  obtain ⟨rfl, rfl⟩ := h.of_break hm hb
  obtain ⟨condition, x, y, rfl, hc, hx, -⟩ := h.of_if
  cases hg with
  | stop hs =>
    -- The condition would start with a blank or with the stop.
    obtain ⟨_ | ⟨_, blanks⟩, stop, rest, he, hblank, hstop⟩ := hs
    · exact (stop_cases hstop).2.2.1 (List.cons.inj he).1.symm
    · have hs : Stops (blanks ++ stop :: rest) :=
        ⟨blanks, stop, rest, rfl, fun b hb => hblank b (List.mem_cons_of_mem _ hb), hstop⟩
      obtain ⟨b, tail, ht, hb⟩ := hs.exists_break
      obtain ⟨c, condition, rfl⟩ := List.exists_cons_of_ne_nil hc.ne_nil
      obtain rfl : c = b := (List.cons.inj ((List.cons.inj he).2.trans ht)).1
      exact (Shaped.plain hc).not_break_cons hb
  | blank _ hn =>
    refine hn ((hx.then_isInfix condition y).trans ⟨"if ", [], ?_⟩)
    simp

theorem quoted_not_append {lead inner : Text} {quote : Char} (hl : lead.mark = none)
    (hq : quote ∈ ['"', '\'']) (hne : more ≠ []) :
    ¬ Shaped (lead ++ quote :: (inner ++ [quote]) ++ more) := by
  intro h
  rw [List.append_assoc, List.cons_append, List.append_assoc] at h
  obtain ⟨inner', hr, hi'⟩ := h.of_quote hl hq
  obtain ⟨more', rfl⟩ := append_cons_eq_concat hne hr
  simp at hi'

/-- A text that denotes something does not go on to another one with a stop. -/
theorem Shaped.not_append (h : Shaped text) (hg : GoesOn text more) : ¬ Shaped (text ++ more) := by
  -- The induction is on the length, since a branch may be compared with one that is no part of it.
  induction hn : text.length using Nat.strong_induction_on generalizing text more with
  | _ n ih =>
    subst hn
    replace ih : ∀ t m : Text, t.length < text.length → Shaped t → GoesOn t m →
        ¬ Shaped (t ++ m) := fun t m hl ht hg => ih _ hl ht hg rfl
    have hne : more ≠ [] := by
      obtain ⟨b, rest, rfl, -⟩ := hg.exists_break
      simp
    cases h with
    | plain h =>
      cases h with
      | name _ hm => exact name_not_append hm hg
      | call hl hi => exact call_not_append hl hi hne
    | quoted hl hq hi => exact quoted_not_append hl hq hne
    | @marked lead text mark hl hm h =>
      intro h'
      rw [List.append_assoc, List.cons_append] at h'
      rw [List.append_cons] at hg
      refine ih text more ?_ h hg.of_append (h'.of_marked hl hm)
      simp only [List.length_append, List.length_cons]
      omega
    | @conditional condition x y hc hx hy hsx hsy =>
      intro h'
      rw [List.append_assoc, List.cons_append] at h'
      obtain ⟨condition', x', y', he, hc', hx', hy', hsx', hsy'⟩ := h'.of_if
      cases hg with
      | stop hs =>
        have he' : condition ++ ' ' :: ("then" ++ x ++ (" else" ++ (y ++ more))) =
            condition' ++ ' ' :: ("then" ++ x' ++ (" else" ++ y')) := by simpa using he
        obtain ⟨rfl, hr⟩ := hc.append_unique hc' he'
        have hbranches : x ++ (" else" ++ (y ++ more)) = x' ++ (" else" ++ y') := by
          simpa using hr
        refine branches_not_append ih ?_ hx hy hx' hy' hsx hsy hsx' hsy' hs hbranches
        simp only [List.length_append, List.length_cons]
        omega
      | @blank b rest _ hn =>
        refine hn ((hx.then_isInfix condition y).trans ⟨"if ", b :: rest, ?_⟩)
        simp
    | @container left right inner hb h =>
      intro h'
      rw [List.append_assoc, List.cons_append, List.append_assoc] at h'
      obtain ⟨inner', hr, hpieces⟩ := h'.of_left hb
      obtain ⟨more', rfl⟩ := append_cons_eq_concat hne hr
      have hright : right ∈ [']', '}'] := by
        simp only [List.mem_cons, List.not_mem_nil, or_false, Prod.mk.injEq] at hb ⊢
        exact hb.imp And.right And.right
      refine items_not_append ih ?_ hright h hpieces
      simp only [List.nil_append, List.length_cons, List.length_append]
      omega

end Parley
