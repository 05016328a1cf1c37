import Mathlib.Data.List.Forall2
import Parley.Grammar.Rules
import Parley.Proofs.Grammar.Value
import Parley.Proofs.Surface.Shape

/-! # How texts open

A rule declines a text by its beginning: by the name that the text starts with and by
the mark after it. The rules for moves and plan items open in finitely many ways each.
None of the rules before those for values takes a text that opens with a quote, a
bracket or a brace.
-/

namespace Parley

open Reading

section Plain

variable {text inner keyword sign : Text}

theorem Plain.of_call (hk : keyword.mark = none) (h : call? keyword text = some inner) :
    Plain text := by
  obtain ⟨rfl, hi⟩ := call?_eq_some_iff.mp h
  rw [List.append_assoc, List.cons_append]
  exact .call hk hi

theorem Plain.of_nonemptyCall (hk : keyword.mark = none)
    (h : Grammar.nonemptyCall? keyword text = some inner) : Plain text :=
  .of_call hk (Option.filter_eq_some_iff.mp h).1

theorem Plain.signed (hs : sign.mark = none) (h : Plain text) : Plain (sign ++ text) := by
  cases h with
  | name hn hm =>
    refine .name (by simp [hn]) ?_
    rw [mark_append, hs, hm]
    rfl
  | call hl hi =>
    rw [← List.append_assoc]
    refine .call ?_ hi
    rw [mark_append, hs, hl]
    rfl

theorem exists_sign (text : Text) :
    ∃ sign : Text, sign.mark = none ∧ text = sign ++ (splitPolarity text).2 := by
  rw [splitPolarity.eq_def]
  split
  · exact ⟨"~", rfl, rfl⟩
  · exact ⟨[], rfl, rfl⟩

theorem splitPolarity_of_unmarked (h : ∀ rest, text ≠ '~' :: rest) :
    splitPolarity text = (.pos, text) := by
  unfold splitPolarity
  split
  · exact absurd rfl (h _)
  · rfl

theorem Plain.of_splitPolarity (h : Plain (splitPolarity text).2) : Plain text := by
  obtain ⟨sign, hs, he⟩ := exists_sign text
  rw [he]
  exact h.signed hs

theorem mark_of_isWord (h : isWord text = true) : text.mark = none := by
  simp only [isWord, Bool.and_eq_true, List.all_eq_true] at h
  exact mark_eq_none_iff.mpr fun c hc => by simp [isPlainChar, h.2 c hc]

theorem Plain.of_isWord (h : isWord text = true) : Plain text := by
  refine .name ?_ (mark_of_isWord h)
  rintro rfl
  cases h

theorem mark_of_digits (h : text.all Char.isDigit = true) : text.mark = none := by
  rw [List.all_eq_true] at h
  exact mark_eq_none_iff.mpr fun c hc => by simp [isPlainChar, h c hc]

theorem mark_of_isDigits (h : isDigits text = true) : text.mark = none :=
  mark_of_digits (Bool.and_eq_true_iff.mp h).2

theorem Plain.of_isDigits (h : isDigits text = true) : Plain text := by
  refine .name ?_ (mark_of_isDigits h)
  rintro rfl
  cases h

theorem mark_of_isDecimal (h : isDecimal text = true) : text.mark = none := by
  unfold isDecimal at h
  split at h
  · rename_i whole fraction hc
    obtain ⟨rfl, -⟩ := Text.cut?_eq_some_iff.mp hc
    obtain ⟨hw, hf⟩ := Bool.and_eq_true_iff.mp h
    have hpoint : Text.mark ['.'] = none := rfl
    rw [List.append_cons, mark_append, mark_append, mark_of_digits hw, hpoint,
      mark_of_isDigits hf]
    rfl
  · cases h

theorem Plain.of_isDecimal (h : isDecimal text = true) : Plain text := by
  refine .name ?_ (mark_of_isDecimal h)
  rintro rfl
  cases h

end Plain

/-- The name that a text starts with, and the mark after it. -/
def Text.opening (text : Text) : Text × Option Char :=
  (text.takeWhile isPlainChar, text.mark)

/-- A text opens in one of the given ways. -/
def Text.Opens (openings : List (Text × Option Char)) (text : Text) : Prop :=
  text.opening ∈ openings

section Opening

variable {lead rest text : Text} {c : Char}

theorem opening_of_mark_none (h : text.mark = none) : text.opening = (text, none) := by
  rw [Text.opening, h, List.takeWhile_eq_self_iff.mpr (mark_eq_none_iff.mp h)]

theorem opening_append_cons (hl : lead.mark = none) (hc : isPlainChar c = false) :
    (lead ++ c :: rest).opening = (lead, some c) := by
  rw [Text.opening, mark_append_cons hl hc, List.takeWhile_append_of_pos (mark_eq_none_iff.mp hl),
    List.takeWhile_cons_of_neg (by simp [hc]), List.append_nil]

theorem opens_of_call {keyword inner : Text} (hk : keyword.mark = none)
    (h : call? keyword text = some inner) : text.Opens [(keyword, some '(')] := by
  obtain ⟨rfl, -⟩ := call?_eq_some_iff.mp h
  rw [Text.Opens, List.append_assoc, List.cons_append, opening_append_cons hk rfl]
  exact List.mem_singleton_self _

theorem Plain.mark_mem (h : Plain text) : text.mark ∈ [none, some '('] := by
  cases h with
  | name _ hm => simp [hm]
  | call hl _ => simp [mark_append_cons hl (show isPlainChar '(' = false from rfl)]

end Opening

/-- Texts without a property are declined. -/
def ReadsOnly {α : Type} (P : Text → Prop) (read : Setting → Text → Reading α) : Prop :=
  ∀ setting text, ¬ P text → read setting text = .declined

namespace ReadsOnly

variable {α β : Type} {P Q : Text → Prop} {read : Setting → Text → Reading α}

theorem mono (h : ReadsOnly P read) (hp : ∀ text, P text → Q text) : ReadsOnly Q read := by
  intro setting text hq
  exact h setting text fun ht => hq (hp text ht)

theorem bind {f : Setting → Text → α → Reading β} (h : ReadsOnly P read) :
    ReadsOnly P fun setting text => read setting text >>= f setting text := by
  intro setting text ht
  simp only [h setting text ht]
  rfl

theorem map {f : α → β} (h : ReadsOnly P read) :
    ReadsOnly P fun setting text => f <$> read setting text := by
  intro setting text ht
  simp only [h setting text ht]
  rfl

theorem optionThen {x : Setting → Text → Option α} {f : Setting → Text → α → Reading β}
    (h : ∀ setting text a, x setting text = some a → ¬ P text → f setting text a = .declined) :
    ReadsOnly P fun setting text => ofOption (x setting text) >>= f setting text := by
  intro setting text ht
  change ofOption (x setting text) >>= f setting text = _
  cases hx : x setting text with
  | none => rfl
  | some a => exact h setting text a hx ht

theorem option {x : Setting → Text → Option α} {f : Setting → Text → α → Reading β}
    (h : ∀ setting text a, x setting text = some a → P text) :
    ReadsOnly P fun setting text => ofOption (x setting text) >>= f setting text := by
  apply optionThen
  intro setting text a ha ht
  exact absurd (h setting text a ha) ht

theorem guarded {b : Text → Bool} {f : Setting → Text → Unit → Reading β}
    (h : ∀ text, b text = true → P text) :
    ReadsOnly P fun setting text => guard (b text) >>= f setting text := by
  intro setting text ht
  have hb : b text = false := Bool.eq_false_iff.mpr fun hb => ht (h text hb)
  simp only [hb]
  rfl

theorem call {keyword : Text} {f : Setting → Text → Text → Reading β} (hk : keyword.mark = none) :
    ReadsOnly (Text.Opens [(keyword, some '(')]) fun setting text =>
      ofOption (call? keyword text) >>= f setting text := by
  apply option
  intro _ text inner h
  exact opens_of_call hk h

theorem plainCall {keyword : Text} {f : Setting → Text → Text → Reading β}
    (hk : keyword.mark = none) :
    ReadsOnly Plain fun setting text => ofOption (call? keyword text) >>= f setting text := by
  apply option
  intro _ text inner h
  exact .of_call hk h

theorem nonemptyCall {keyword : Text} {f : Setting → Text → Text → Reading β}
    (hk : keyword.mark = none) :
    ReadsOnly (Text.Opens [(keyword, some '(')]) fun setting text =>
      ofOption (Grammar.nonemptyCall? keyword text) >>= f setting text := by
  apply option
  intro _ text inner h
  exact opens_of_call hk (Option.filter_eq_some_iff.mp h).1

theorem exact {keyword : Text} {a : α} (h : P keyword) :
    ReadsOnly P fun _ text => if text = keyword then done a else declined := by
  intro _ text ht
  refine if_neg ?_
  rintro rfl
  exact ht h

theorem word {keyword : Text} {a : α} (hk : keyword.mark = none) :
    ReadsOnly (Text.Opens [(keyword, none)]) fun _ text =>
      if text = keyword then done a else declined :=
  .exact (List.mem_singleton.mpr (opening_of_mark_none hk))

theorem firstOf {reads : List (Setting → Text → Reading α)} (h : ∀ read ∈ reads, ReadsOnly P read) :
    ReadsOnly P fun setting text => .firstOf (reads.map fun read => read setting text) := by
  intro setting text ht
  induction reads with
  | nil => rfl
  | cons read reads ih =>
    rw [List.forall_mem_cons] at h
    simp only [List.map_cons, Reading.firstOf, h.1 setting text ht]
    exact ih h.2

end ReadsOnly

namespace Rule

variable {before after rules : List Rule} {rule : Rule} {s : Setting} {text : Text}

theorem firstOf_append_of_declined (h : ∀ rule ∈ before, rule s text = .declined) :
    Rule.firstOf (before ++ after) s text = Rule.firstOf after s text := by
  induction before with
  | nil => rfl
  | cons rule before ih =>
    rw [List.forall_mem_cons] at h
    rw [List.cons_append, Rule.firstOf, List.map_cons, Reading.firstOf, h.1]
    exact ih h.2

theorem firstOf_of_declined (h : ∀ rule ∈ rules, rule s text = .declined) :
    Rule.firstOf rules s text = .declined := by
  rw [← List.append_nil rules, firstOf_append_of_declined h]
  rfl

theorem firstOf_append_cons (h : ∀ rule ∈ before, rule s text = .declined) :
    Rule.firstOf (before ++ rule :: after) s text =
      (rule s text).orElse (Rule.firstOf after s text) :=
  firstOf_append_of_declined h

end Rule

namespace Grammar

def moveOpenings : List (List (Text × Option Char)) :=
  [[("Move", some '(')], basicMoves.map fun m => (m.keyword, none), [("request", some '(')],
    [("ask", some '(')], [("answer", some '(')], [("report", some '(')], [("prereport", some '(')],
    [("ICMMove", some '(')], [("icm", some ':')]]

def goalOpenings : List (Text × Option Char) :=
  [("resolve", some '('), ("resolve_user", some '('), ("perform", some '('), ("handle", some '(')]

def planOpenings : List (List (Text × Option Char)) :=
  [[("findout", some '(')], [("do", some '(')], [("raise", some '(')], [("bind", some '(')],
    [("respond", some '(')], [("consultDB", some '(')], [("if", some ' ')],
    [("jumpto", some '(')], [("forget_all", none)], [("forget", some '(')],
    [("assume", some '(')], [("assume_shared", some '(')], [("signal_action_completion", none)],
    [("signal_action_failure", some '(')], goalOpenings,
    [("assume_issue", some '(')], [("log", some '(')], [("forget_issue", some '(')],
    [("invoke_service_query", some '(')], [("dev_query", some '(')],
    [("invoke_service_action", some '(')], [("dev_perform", some '(')]]

theorem icm_readsOnly : ReadsOnly (Text.Opens [("icm", some ':')]) fun _ text => icm text := by
  apply ReadsOnly.option
  intro _ text shape h
  simp only [IcmShape.scan?, Option.bind_eq_bind, Option.bind_eq_some_iff] at h
  obtain ⟨rest, hr, -⟩ := h
  obtain rfl := Text.dropPrefix?_eq_some_iff.mp hr
  exact List.mem_singleton.mpr (@opening_append_cons "icm" rest ':' rfl rfl)

theorem basicMove_readsOnly :
    ReadsOnly (Text.Opens (basicMoves.map fun m => (m.keyword, none))) basicMove := by
  apply ReadsOnly.option
  intro _ text m hm
  have hk : m.keyword = text := by simpa using List.find?_some hm
  have hmem := List.mem_of_find?_eq_some hm
  have hnone : ∀ m ∈ basicMoves, m.keyword.mark = none := by
    intro m hm
    simp only [basicMoves, List.mem_cons, List.not_mem_nil, or_false] at hm
    rcases hm with rfl | rfl | rfl | rfl | rfl | rfl <;> rfl
  rw [Text.Opens, ← hk, opening_of_mark_none (hnone m hmem)]
  exact List.mem_map_of_mem hmem

theorem moveRules_readsOnly :
    List.Forall₂ (fun rule openings => ReadsOnly (Text.Opens openings) rule) moveRules
      moveOpenings := by
  refine .cons ?_ (.cons ?_ (.cons ?_ (.cons ?_ (.cons ?_ (.cons ?_ (.cons ?_ (.cons ?_
    (.cons ?_ .nil))))))))
  · exact .call rfl
  · exact basicMove_readsOnly
  · exact .call rfl
  · exact .call rfl
  · exact .call rfl
  · exact .call rfl
  · exact .call rfl
  · exact .call rfl
  · exact icm_readsOnly.bind

theorem ifThenElse_readsOnly : ReadsOnly (Text.Opens [("if", some ' ')]) ifThenElse := by
  apply ReadsOnly.option
  intro _ text shape h
  simp only [ConditionalShape.scan?, Option.bind_eq_bind, Option.bind_eq_some_iff] at h
  obtain ⟨body, hb, -⟩ := h
  obtain rfl := Text.dropPrefix?_eq_some_iff.mp hb
  exact List.mem_singleton.mpr (@opening_append_cons "if" body ' ' rfl rfl)

theorem goal_readsOnly : ReadsOnly (Text.Opens goalOpenings) goal := by
  refine @ReadsOnly.firstOf Goal _ [fun _ => resolveGoal "resolve" .system,
    fun _ => resolveGoal "resolve_user" .user, performGoal, handleGoal] fun read hr => ?_
  have hcall : ∀ {keyword : Text}, ReadsOnly (Text.Opens [(keyword, some '(')]) read →
      (keyword, some '(') ∈ goalOpenings → ReadsOnly (Text.Opens goalOpenings) read := by
    intro keyword h hk
    refine h.mono fun text ht => ?_
    have ho : text.opening = (keyword, some '(') := List.mem_singleton.mp ht
    rw [Text.Opens, ho]
    exact hk
  simp only [List.mem_cons, List.not_mem_nil, or_false] at hr
  rcases hr with rfl | rfl | rfl | rfl
  · exact hcall (.call rfl) (by simp [goalOpenings])
  · exact hcall (.call rfl) (by simp [goalOpenings])
  · exact hcall (.call rfl) (by simp [goalOpenings])
  · exact hcall (.nonemptyCall rfl) (by simp [goalOpenings])

theorem planRules_readsOnly :
    List.Forall₂ (fun rule openings => ReadsOnly (Text.Opens openings) rule) planRules
      planOpenings := by
  refine .cons ?_ (.cons ?_ (.cons ?_ (.cons ?_ (.cons ?_ (.cons ?_ (.cons ?_ (.cons ?_
    (.cons ?_ (.cons ?_ (.cons ?_ (.cons ?_ (.cons ?_ (.cons ?_ (.cons ?_ (.cons ?_ (.cons ?_
    (.cons ?_ (.cons ?_ (.cons ?_ (.cons ?_ (.cons ?_ .nil)))))))))))))))))))))
  · exact (ReadsOnly.call rfl).bind
  · exact .call rfl
  · exact (ReadsOnly.call rfl).bind
  · exact (ReadsOnly.call rfl).bind
  · exact (ReadsOnly.call rfl).bind
  · exact (ReadsOnly.call rfl).bind
  · exact ifThenElse_readsOnly
  · exact .call rfl
  · exact .word rfl
  · exact (ReadsOnly.call rfl).bind
  · exact (ReadsOnly.call rfl).bind
  · exact (ReadsOnly.call rfl).bind
  · exact .word rfl
  · exact .nonemptyCall rfl
  · exact goal_readsOnly.map
  · exact (ReadsOnly.call rfl).bind
  · exact .call rfl
  · exact (ReadsOnly.call rfl).bind
  · exact .nonemptyCall rfl
  · exact .nonemptyCall rfl
  · exact .call rfl
  · exact .call rfl

variable {text : Text}

theorem plain_of_application {polarity : Polarity} {name inner : Text}
    (ha : application? polarity text = some (name, inner)) (hw : isWord name = true) :
    Plain text := by
  unfold application? at ha
  split at ha
  · obtain ⟨_, hc, he⟩ := Option.map_eq_some_iff.mp ha
    obtain ⟨rfl, rfl⟩ := Prod.mk.injEq .. ▸ he
    exact .of_call (mark_of_isWord hw) hc
  · split at ha
    · obtain ⟨rfl, rfl⟩ := Prod.mk.injEq .. ▸ Option.some.inj ha
      exact .of_isWord hw
    · cases ha

theorem predicate_of_not_isWord {s : Setting} {name : Text} (h : isWord name ≠ true) :
    predicate s name = .declined := by
  rw [predicate, Bool.eq_false_iff.mpr h]
  rfl

theorem predication_readsOnly : ReadsOnly Plain predication := by
  apply ReadsOnly.optionThen
  rintro s text ⟨name, inner⟩ ha ht
  have hw : isWord name ≠ true := fun hw => ht (.of_splitPolarity (plain_of_application ha hw))
  change (predicate s name >>= _) = _
  rw [predicate_of_not_isWord hw]
  rfl

theorem oldSpelling_readsOnly : ReadsOnly Plain fun _ text => oldSpelling text := by
  intro _ text ht
  have hcall : ∀ keyword : Text, keyword.mark = none → call? keyword text = none := by
    intro keyword hk
    rw [Option.eq_none_iff_forall_ne_some]
    intro inner hc
    exact ht (.of_call hk hc)
  simp only [oldSpelling, nonemptyCall?, hcall "action" rfl, hcall "issue" rfl, Option.filter_none]

theorem forms_readsOnly {form : Form} (h : form ∈ forms) : ReadsOnly Plain form := by
  have hsigned : ∀ {keyword : Text} {α : Type} {f : Setting → Text → Text → Reading α},
      keyword.mark = none → ReadsOnly Plain fun setting text =>
        ofOption (call? keyword (splitPolarity text).2) >>= f setting text := by
    intro keyword α f hk
    apply ReadsOnly.option
    intro _ text inner hc
    exact .of_splitPolarity (.of_call hk hc)
  have hnonempty : ∀ {keyword : Text} {α : Type} {f : Setting → Text → Text → Reading α},
      keyword.mark = none → ReadsOnly Plain fun setting text =>
        ofOption (nonemptyCall? keyword text) >>= f setting text := by
    intro keyword α f hk
    apply ReadsOnly.option
    intro _ text inner hc
    exact .of_nonemptyCall hk hc
  simp only [forms, List.mem_cons, List.not_mem_nil, or_false] at h
  rcases h with rfl | rfl | rfl | rfl | rfl | rfl | rfl | rfl | rfl | rfl | rfl | rfl
  · exact hnonempty rfl
  · exact hnonempty rfl
  · exact hsigned rfl
  · exact .plainCall rfl
  · exact hsigned rfl
  · exact .plainCall rfl
  · exact .plainCall rfl
  · exact predication_readsOnly
  · exact hsigned rfl
  · exact hnonempty rfl
  · apply ReadsOnly.option
    intro _ text inner hc
    exact .of_splitPolarity (.of_nonemptyCall rfl hc)
  · exact .plainCall rfl

theorem proposition_readsOnly : ReadsOnly Plain proposition := by
  intro s text ht
  have hforms := ReadsOnly.firstOf (fun form hf => forms_readsOnly hf) s text ht
  simp only at hforms
  rw [proposition, hforms]
  exact oldSpelling_readsOnly s text ht

/-- The marks of names and calls, of management moves, conditionals and questions. -/
def constructMarks : List (Option Char) :=
  [none, some '(', some ':', some ' ', some '?']

theorem exists_openings {rules : List Rule} {openings : List (List (Text × Option Char))}
    (h : List.Forall₂ (fun rule openings => ReadsOnly (Text.Opens openings) rule) rules openings)
    {rule : Rule} (hr : rule ∈ rules) : ∃ opens ∈ openings, ReadsOnly (Text.Opens opens) rule := by
  induction h with
  | nil => cases hr
  | @cons rule opens rules openings h _ ih =>
    rcases List.mem_cons.mp hr with rfl | hr
    · exact ⟨opens, List.mem_cons_self, h⟩
    · obtain ⟨opens', ho, h'⟩ := ih hr
      exact ⟨opens', List.mem_cons_of_mem opens ho, h'⟩

/-- The rules for moves and plan items decline a text that opens like none that they read. -/
theorem declined_of_opening {rule : Rule} {s : Setting} (h : rule ∈ moveRules ++ planRules)
    (ho : ∀ opens ∈ moveOpenings ++ planOpenings, text.opening ∉ opens) :
    rule s text = .declined := by
  obtain ⟨opens, hmem, hr⟩ :=
    exists_openings (List.rel_append moveRules_readsOnly planRules_readsOnly) h
  exact hr s text (ho opens hmem)

theorem readsOnly_of_openings {rules : List Rule} {openings : List (List (Text × Option Char))}
    (h : List.Forall₂ (fun rule openings => ReadsOnly (Text.Opens openings) rule) rules openings)
    (hm : ∀ opens ∈ openings, ∀ opening ∈ opens, opening.2 ∈ constructMarks) {rule : Rule}
    (hr : rule ∈ rules) : ReadsOnly (·.mark ∈ constructMarks) rule := by
  obtain ⟨opens, ho, h⟩ := exists_openings h hr
  exact h.mono fun text ht => hm opens ho text.opening ht

theorem lambdaPredicate_readsOnly : ReadsOnly Plain lambdaPredicate := by
  apply ReadsOnly.optionThen
  intro s text name hb ht
  obtain rfl := between?_eq_some_iff.mp hb
  have hw : isWord name = false := by
    rw [Bool.eq_false_iff]
    intro hw
    refine ht (@Plain.call ("X." ++ name) "X" ?_ (by decide))
    rw [mark_append, mark_of_isWord hw]
    rfl
  have hn : name ≠ "action" := by
    rintro rfl
    cases hw
  rw [if_neg hn, hw]
  rfl

theorem questionRule_readsOnly : ReadsOnly (·.mark = some '?') questionRule := by
  refine ReadsOnly.map (ReadsOnly.option ?_)
  intro _ text inner hq
  obtain rfl := Text.dropPrefix?_eq_some_iff.mp hq
  exact mark_cons rfl inner

theorem yesNo_readsOnly : ReadsOnly Plain yesNo := by
  intro _ text ht
  rw [yesNo, if_neg, if_neg]
  · rintro rfl
    exact ht (.of_isWord rfl)
  · rintro rfl
    exact ht (.of_isWord rfl)

theorem propositionSetRule_readsOnly : ReadsOnly Plain propositionSetRule := by
  apply ReadsOnly.bind
  apply ReadsOnly.option
  intro _ text inner hc
  exact .of_splitPolarity (.of_call rfl hc)

theorem predicateRule_readsOnly : ReadsOnly Plain predicateRule :=
  ReadsOnly.map (.guarded fun _ => .of_isWord)

theorem actionRule_readsOnly : ReadsOnly Plain actionRule :=
  ReadsOnly.map (.guarded fun _ => .of_isWord)

def namingRules : List Rule :=
  propositionRules.tail ++ [yesNo, propositionSetRule, predicateRule, actionRule]

theorem namingRules_readsOnly {rule : Rule} (h : rule ∈ namingRules) : ReadsOnly Plain rule := by
  simp only [namingRules, propositionRules, List.tail_cons, List.mem_append, List.mem_cons,
    List.not_mem_nil, or_false] at h
  rcases h with (rfl | rfl | rfl | rfl | rfl | rfl | rfl | rfl) | rfl | rfl | rfl | rfl
  · exact .exact (@Plain.call "X.goal" "X" rfl (by decide))
  · exact lambdaPredicate_readsOnly
  · exact .plainCall rfl
  · exact .plainCall rfl
  · exact .exact (@Plain.call "SuccessfulServiceAction" [] rfl (by decide))
  · exact .plainCall rfl
  · exact ReadsOnly.map (.exact (.of_isWord rfl))
  · exact proposition_readsOnly.map
  · exact yesNo_readsOnly
  · exact propositionSetRule_readsOnly
  · exact predicateRule_readsOnly
  · exact actionRule_readsOnly

/-- The rules that read texts with other marks than those of names and constructs. -/
def literalRules : List Rule :=
  [individualRule, string, set, sequence]

theorem rules_eq :
    rules = (moveRules ++ planRules) ++ questionRule :: (namingRules ++ literalRules) := rfl

/-- A text that no other rule reads is a proposition, a set of alternatives or a literal. -/
theorem firstOf_rules_of_declined {s : Setting} (hmove : ∀ rule ∈ moveRules ++ planRules,
      rule s text = .declined)
    (h : ∀ rule ∈ propositionRules.dropLast ++ [yesNo, predicateRule, actionRule],
      rule s text = .declined) :
    Rule.firstOf rules s text = (propositionRule s text).orElse
      ((propositionSetRule s text).orElse (Rule.firstOf literalRules s text)) := by
  have hrules : rules = ((moveRules ++ planRules) ++ propositionRules.dropLast) ++
      propositionRule :: ([yesNo] ++ propositionSetRule ::
        ([predicateRule, actionRule] ++ literalRules)) := rfl
  rw [List.forall_mem_append, List.forall_mem_cons] at h
  obtain ⟨hbefore, hyesNo, hnames⟩ := h
  rw [hrules, Rule.firstOf_append_cons (List.forall_mem_append.mpr ⟨hmove, hbefore⟩),
    Rule.firstOf_append_cons (List.forall_mem_singleton.mpr hyesNo),
    Rule.firstOf_append_of_declined hnames]

/-- A text with another mark than those of names and constructs is left to the rules for
individuals, strings and containers. -/
theorem firstOf_rules_of_mark {s : Setting} (hm : text.mark ∉ constructMarks) :
    Rule.firstOf rules s text = Rule.firstOf literalRules s text := by
  rw [rules_eq, ← List.cons_append, ← List.append_assoc]
  apply Rule.firstOf_append_of_declined
  intro rule hrule
  suffices h : ReadsOnly (·.mark ∈ constructMarks) rule from h s text hm
  simp only [List.mem_append, List.mem_cons] at hrule
  rcases hrule with (h | h) | rfl | h
  · exact readsOnly_of_openings moveRules_readsOnly (by decide) h
  · exact readsOnly_of_openings planRules_readsOnly (by decide) h
  · exact questionRule_readsOnly.mono fun text ht => by simp [ht, constructMarks]
  · refine (namingRules_readsOnly h).mono fun text ht => ?_
    exact List.mem_append_left [some ':', some ' ', some '?'] ht.mark_mem

theorem value?_form {s : Setting} {value : Value}
    (hnames : ∀ entry ∈ s.ontology.individuals, isWord entry.1 = true)
    (h : value? s text = some value) : Plain text ∨ ∃ inner, unquote? text = some inner := by
  rcases value?_cases h with ⟨hd, -⟩ | ⟨hd, -⟩ | ⟨inner, hq, -⟩ | he | ⟨inner, hc, -⟩ |
    ⟨inner, hc, -⟩
  · exact .inl (.of_isDecimal hd)
  · exact .inl (.of_isDigits hd)
  · exact .inr ⟨inner, hq⟩
  · obtain ⟨-, sort, hg, -⟩ := enumerated?_eq_some he
    exact .inl (.of_isWord (hnames _ (Table.mem_of_get? hg)))
  · exact .inl (.of_nonemptyCall rfl hc)
  · exact .inl (.of_nonemptyCall rfl hc)

theorem mark_of_unquote {inner : Text} (h : unquote? text = some inner) :
    text.mark ∈ [some '"', some '\''] := by
  rcases Option.or_eq_some_iff.mp h with h | ⟨-, h⟩
  · obtain ⟨rfl, -⟩ := quotedBy?_eq_some_iff.mp h
    simp [mark_cons (show isPlainChar '"' = false from rfl)]
  · obtain ⟨rfl, -⟩ := quotedBy?_eq_some_iff.mp h
    simp [mark_cons (show isPlainChar '\'' = false from rfl)]

theorem unquote?_of_mark (hm : text.mark ∈ [none, some '(']) : unquote? text = none := by
  rw [Option.eq_none_iff_forall_ne_some]
  intro inner hq
  rcases List.mem_pair.mp (mark_of_unquote hq) with he | he <;> simp [he] at hm

theorem individual_of_mark {s : Setting}
    (hnames : ∀ entry ∈ s.ontology.individuals, isWord entry.1 = true)
    (hm : text.mark ∉ [none, some '(', some '"', some '\'']) : individual s text = .declined := by
  apply individual_of_value?_none
  rw [Option.eq_none_iff_forall_ne_some]
  intro value hv
  obtain ⟨sign, hs, he⟩ := exists_sign text
  have hmark : text.mark = Text.mark (splitPolarity text).2 := by
    conv_lhs => rw [he, mark_append, hs, Option.none_or]
  rw [hmark] at hm
  rcases value?_form hnames hv with hp | ⟨inner, hq⟩
  · exact hm (List.mem_append_left [some '"', some '\''] hp.mark_mem)
  · exact hm (List.mem_append_right [none, some '('] (mark_of_unquote hq))

theorem containerRules_of_mark {s : Setting} {rule : Rule}
    (hm : text.mark ∈ [none, some '(']) (h : rule ∈ [string, set, sequence]) :
    rule s text = .declined := by
  have hbraced : braced? text = none := by
    rw [Option.eq_none_iff_forall_ne_some]
    intro inner hb
    obtain rfl := braced?_eq_some_iff.mp hb
    simp [mark_cons (show isPlainChar '{' = false from rfl)] at hm
  have hbracketed : bracketed? text = none := by
    rw [Option.eq_none_iff_forall_ne_some]
    intro inner hb
    obtain rfl := bracketed?_eq_some_iff.mp hb
    simp [mark_cons (show isPlainChar '[' = false from rfl)] at hm
  simp only [List.mem_cons, List.not_mem_nil, or_false] at h
  rcases h with rfl | rfl | rfl
  · rw [string, unquote?_of_mark hm]
    rfl
  · rw [set, hbraced]
    rfl
  · rw [sequence, hbracketed]
    rfl

end Grammar

end Parley
