import Parley.Proofs.Grammar.Block
import Parley.Proofs.Parser.Boundary
import Parley.Proofs.Surface.Call

/-! # Decorated moves

Where the individuals of an ontology have words as names, the only candidate for the end
of a decorated move that denotes a move is the move that was written. Decorating a move
therefore replaces its realization data and nothing else, and what was remembered of the
move itself stays as it was.
-/

namespace Parley

namespace Grammar

open Reading

variable {m : Meaning} {inner move rest block : Text} {o : Object} {data : Realization}

/-- The end of a move is found where a text stands that denotes one. -/
theorem probeMove_denote_of_mem (hm : shaping.Grants m) (hmem : (move, rest) ∈ commaCuts inner)
    (hp : m.probe move = some o) (ho : o.isMove = true) :
    (probeMove (commaCuts inner)).denote m = .value (o, rest) := by
  have hn : move.isBlankText = false := (hm.probe move o trivial hp).not_blank
  have hc : candidate m (move, rest) = some (o, rest) := by
    simp [candidate, hn, hp, Option.filter, ho]
  have hfind : (commaCuts inner).findSome? (candidate m) = some (o, rest) :=
    findSome?_of_unique (fun a ha b hb => candidate_unique hm ha hb) hmem hc
  rw [probeMove_denote, hfind]

/-- What the rules for decorated moves make of a move and the text behind it. -/
def decorating (o : Object) (block : Text) : Reading Object :=
  if block.isBlankText then .done o
  else do return o.decorate (← ofExcept (realizationData block))

theorem decoratedMove_denote (hm : shaping.Grants m) (s : Setting) (hb : isBalanced inner = true)
    (hmem : (move, rest) ∈ commaCuts inner) (hafter : blockAfter rest = block.trim)
    (hp : m.probe move = some o) (ho : o.isMove = true) :
    (decoratedMove s (Text.call "Move" inner)).denote m = (decorating o block).denote m := by
  rw [decoratedMove, call?_call hb]
  change (probeMove (commaCuts inner) >>= _).denote m = _
  rw [denote_bind, probeMove_denote_of_mem hm hmem hp ho]
  simp only [hafter, realizationData_trim, decorating]
  rfl

theorem decoratedMove_denote_bare (hm : shaping.Grants m) (s : Setting)
    (hb : isBalanced move = true) (hp : m.probe move = some o) (ho : o.isMove = true) :
    (decoratedMove s (Text.call "Move" move)).denote m = .value o := by
  have hmem : (move, []) ∈ commaCuts move := by
    simpa using mem_commaCuts (s := move) (.inl rfl)
  exact @decoratedMove_denote m move move [] [] o hm s hb hmem rfl hp ho

theorem decoratedMove_denote_append (hm : shaping.Grants m) (s : Setting)
    (hb : isBalanced (move ++ ", " ++ block) = true) (hp : m.probe move = some o)
    (ho : o.isMove = true) :
    (decoratedMove s (Text.call "Move" (move ++ ", " ++ block))).denote m =
      (decorating o block).denote m := by
  have hmem : (move, ',' :: ' ' :: block) ∈ commaCuts (move ++ ", " ++ block) := by
    rw [List.append_assoc]
    exact mem_commaCuts (.inr ⟨' ' :: block, rfl⟩)
  exact decoratedMove_denote hm s hb hmem rfl hp ho

theorem decoratedMove_denote_block (hm : shaping.Grants m) (s : Setting)
    (hb : isBalanced move = true) (hp : m.probe move = some o) (ho : o.isMove = true)
    (hn : block.isBlankText = false) (hd : realizationData block = .ok data) :
    (decoratedMove s (Text.call "Move" (move ++ ", " ++ block))).denote m =
      .value (o.decorate data) := by
  have hbalanced : isBalanced (move ++ ", " ++ block) = true := by
    rw [isBalanced_append_comma hb, isBalanced_of_realizationData hn hd]
  rw [decoratedMove_denote_append hm s hbalanced hp ho, decorating, hn, hd]
  rfl

end Grammar

namespace Parser

open Reading

variable {ontology : Ontology} {config : Config} {p q : Parser}

/-- A move that is written as a decorated one without a block is the move itself, and with a block
it is the move with the realization data of the block and with everything else as it was. Reading
the move alone gives the same in every state, also after it was decorated. -/
theorem parse_decorated (hnames : ∀ entry ∈ ontology.individuals, isWord entry.1 = true)
    (hp : Reachable ontology config p) (hq : Reachable ontology config q) {move : Text} {o : Object}
    (hb : isBalanced move = true) (h : (p.parse move).1 = .ok o) (ho : o.isMove = true) :
    (q.parse move).1 = .ok o ∧
      (q.parse ("Move" ++ '(' :: move ++ [')'])).1 = .ok o ∧
      ∀ block data, block.isBlankText = false → Grammar.realizationData block = .ok data →
        let decorated := "Move" ++ '(' :: (move ++ ", " ++ block) ++ [')']
        (∀ m r, o = .move m r → (q.parse decorated).1 = .ok (.move m (some data))) ∧
          (∀ m r, o = .icm m r → (q.parse decorated).1 = .ok (.icm m (some data))) ∧
          ((q.parse decorated).2.parse move).1 = .ok o := by
  have hk := hq.continues
  have hmove : (engine ⟨ontology, config, {}⟩).meaning.object move = .ok o := by
    rw [← h, (hp.continues.parse move).1]
  have hprobe := (engine_descends _).probe_of_object hmove
  have hshaping : shaping.Grants (engine ⟨ontology, config, {}⟩).meaning :=
    Engine.grants_meaning (meaningAt_shaping hnames)
  have hfirst : ∀ {text o'}, (Grammar.decoratedMove ⟨ontology, config.domainName⟩ text).denote
      (engine ⟨ontology, config, {}⟩).meaning = .value o' → (q.parse text).1 = .ok o' := by
    intro text o' hv
    rw [hq.parse_ok_iff]
    change ((Grammar.decoratedMove ⟨ontology, config.domainName⟩ text).orElse _).denote _ = _
    rw [denote_orElse, hv]
  refine ⟨?_, hfirst (Grammar.decoratedMove_denote_bare hshaping _ hb hprobe ho), ?_⟩
  · rw [(hk.parse move).1, hmove]
  · intro block data hn hdata decorated
    have hdecorated : (q.parse decorated).1 = .ok (o.decorate data) :=
      hfirst (Grammar.decoratedMove_denote_block hshaping _ hb hprobe ho hn hdata)
    refine ⟨?_, ?_, ?_⟩
    · rintro m r rfl
      exact hdecorated
    · rintro m r rfl
      exact hdecorated
    · rw [((hk.parse decorated).2.parse move).1, hmove]

/-- A move with a comma inside and a management move that quotes one, both decorated with an
utterance in which commas and brackets stand. -/
theorem parse_decorated_utterance :
    let ontology : Ontology := { name := "travel", individuals := [("paris", .custom "city")] }
    let p : Parser := ⟨ontology, {}, {}⟩
    let q := (performAll p [.parse "answer([no,yes])"]).2
    let answer : Move := .answer (.sequence [.no, .yes])
    let heard : Icm := .mk .perception (some .pos) (.text "no, yes") none
    let data : Realization := { speaker := some .user, utterance := some "no, (yes" }
    (q.parse "Move(answer([no,yes]))").1 = .ok (.move answer none) ∧
      (q.parse "Move(answer([no,yes]), speaker=USR, utterance='no, (yes')").1 =
        .ok (.move answer (some data)) ∧
      (q.parse "Move(icm:per*pos:\"no, yes\", speaker=USR, utterance='no, (yes')").1 =
        .ok (.icm heard (some data)) ∧
      ((q.parse "Move(answer([no,yes]), speaker=USR, utterance='no, (yes')").2.parse
        "answer([no,yes])").1 = .ok (.move answer none) := by
  intro ontology p q answer heard data
  have hnames : ∀ entry ∈ ontology.individuals, isWord entry.1 = true := by decide
  have hp : Reachable ontology {} p := ⟨[], rfl⟩
  have hq : Reachable ontology {} q := ⟨[.parse "answer([no,yes])"], rfl⟩
  have hanswer : (p.parse "answer([no,yes])").1 = .ok (.move answer none) := rfl
  have hheard : (p.parse "icm:per*pos:\"no, yes\"").1 = .ok (.icm heard none) := rfl
  have hdata : Grammar.realizationData "speaker=USR, utterance='no, (yes'" = .ok data := rfl
  obtain ⟨-, hbare, hblock⟩ := parse_decorated hnames hp hq rfl hanswer rfl
  obtain ⟨-, -, hblock'⟩ := parse_decorated hnames hp hq rfl hheard rfl
  obtain ⟨hmove, -, hafter⟩ := hblock _ data rfl hdata
  exact ⟨hbare, hmove answer none rfl, (hblock' _ data rfl hdata).2.1 heard none rfl, hafter⟩

end Parser

end Parley
