import TalAnalysis.Proofs.Lexer.Name

/-!
# Names that are grouped

Grouping makes one token of each run of names with single spaces between them, and changes nothing
else.

* `GroupsFrom.piece` and `GroupsFrom.run`: one step of the scanner that groups beside one step, or
  one run of names, of the scanner that does not.
* `piecesFrom_grouped`: the same for all of what is left of a text.
* `lex_grouped`: the tokens with groups from those without.

A `$` opens a word but does not go on with one, so a name before one space and a `$` takes in the
space alone. `lex_grouped` is about texts without such names.
-/

namespace TalAnalysis
open Text

def Token.JoinsAfter (before : List Token) (t : Token) : Prop :=
  t.kind.isName = true ∧ Lookback.ofTokens before ≠ .afterMarker

/-- `grouped` has one name for each longest run of names in `plain` that are one space apart, and
otherwise the tokens of `plain`. `before` are the tokens that `plain` comes after. -/
inductive Grouped (source : List Char) : List Token → List Token → List Token → Prop
  | nil (before) : Grouped source before [] []
  | alone {before t plain grouped}
      (noMore : t.JoinsAfter before → ¬ NameNext source t.span.stop plain)
      (others : Grouped source (before ++ [t]) plain grouped) :
      Grouped source before (t :: plain) (t :: grouped)
  | joined {before first names plain grouped stop text} (joins : first.JoinsAfter before)
      (several : names ≠ []) (further : NamesAfter source first.span.stop names stop)
      (noMore : ¬ NameNext source stop plain)
      (written : slice? source first.span.start stop = some text.toList)
      (others : Grouped source (before ++ first :: names) plain grouped) :
      Grouped source before (first :: names ++ plain)
        (.write (.name text) text ⟨first.span.start, stop⟩ first.line first.startColumn :: grouped)

/-- One space and a `$` come after the token. -/
def Token.Overruns (source : List Char) (t : Token) : Prop :=
  slice? source t.span.stop (t.span.stop + 2) = some [' ', '$']

instance (source : List Char) (t : Token) : Decidable (t.Overruns source) :=
  inferInstanceAs (Decidable (_ = _))

variable {source : List Char} {keepComments : Bool}

theorem Lookback.ofTokens_name (before : List Token) {t : Token} (isName : t.kind.isName = true) :
    ofTokens (before ++ [t]) = .plain := by
  cases kind : t.kind with
  | name => rw [ofTokens_significant before (by rw [kind]; rfl), kind]; rfl
  | _ => simp [kind, TokenKind.isName, TokenKind.name?] at isName

theorem Token.JoinsAfter.last {before names : List Token} {first : Token} {stop : Nat}
    (joins : first.JoinsAfter before) (further : NamesAfter source first.span.stop names stop) :
    ∃ prior last, before ++ first :: names = prior ++ [last] ∧ last.JoinsAfter prior ∧
      last.span.stop = stop := by
  induction names generalizing first before with
  | nil =>
      cases further
      exact ⟨before, first, rfl, joins, rfl⟩
  | cons name names ih =>
      cases further with
      | more isName space others =>
          have plain := Lookback.ofTokens_name before joins.1
          have next : name.JoinsAfter (before ++ [first]) := ⟨isName, by rw [plain]; decide⟩
          obtain ⟨prior, last, split, lastJoins, here⟩ := ih next others
          exact ⟨prior, last, by rw [← split, List.append_assoc]; rfl, lastJoins, here⟩

structure RunsOn (lookback : Lookback) (c : Char) (rest : List Char) : Prop where
  free : lookback ≠ .afterMarker
  opens : startsName c = true
  isName : (TokenKind.ofWord (String.ofList (c :: rest.takeWhile continuesName))).isName = true
  further : Piece.furtherNames (rest.dropWhile continuesName) ≠ []

variable {lookback : Lookback} {before : List Token} {r : Reader} {c : Char} {rest : List Char}

theorem Piece.read_grouped_of_other {lineRead : List Char} (other : ¬ RunsOn lookback c rest) :
    read true lookback lineRead c rest = read false lookback lineRead c rest := by
  by_cases opens : startsName c = true
  · rw [read_of_startsName opens, read_of_startsName opens, Bool.true_and, Bool.false_and,
      word_alone]
    by_cases marker : lookback = .afterMarker
    · rw [marker, bne_self_eq_false, word_alone]
    · rw [word]
      split
      · rename_i joined
        have none : furtherNames (rest.dropWhile continuesName) = [] := by
          by_contra some
          exact other ⟨marker, opens, (Bool.and_eq_true_iff.1 joined).2, some⟩
        rw [none, List.append_nil]
      · rfl
  · simp only [read, opens, Bool.false_eq_true, if_false]

theorem Piece.read_grouped_of_runsOn {lineRead : List Char} (run : RunsOn lookback c rest) :
    read true lookback lineRead c rest = ⟨.word,
      c :: rest.takeWhile continuesName ++ furtherNames (rest.dropWhile continuesName)⟩ := by
  rw [read_of_startsName run.opens, word, run.isName, Bool.and_true, Bool.true_and, if_pos]
  exact bne_iff_ne.2 run.free

theorem Piece.sign?_lookback (lookback : Lookback) (text : List Char) :
    sign? lookback text = sign? .plain text ∨
      ∃ dot, sign? lookback text = some ⟨.sign (.indirection .standard), dot⟩ ∧
        sign? .plain text = some ⟨.sign (.delimiter .dot), dot⟩ := by
  simp only [sign?]
  cases Sign.longest? text with
  | none => exact .inl rfl
  | some found =>
      by_cases dot : found.2 = .delimiter .dot
      · by_cases after : lookback = .afterType
        · exact .inr ⟨text.take found.1.length, by simp [dot, after], by simp [dot]⟩
        · exact .inl (by simp [after])
      · exact .inl (by simp [dot])

/-- What is read next depends on what was read before in two ways only: whether a dot marks a
pointer, and whether a name takes in more names. -/
theorem Piece.read_lookback (groupNames : Bool) (lookback : Lookback) (lineRead : List Char)
    (c : Char) (rest : List Char) :
    read groupNames lookback lineRead c rest = read groupNames .plain lineRead c rest ∨
      (∃ dot,
        read groupNames lookback lineRead c rest = ⟨.sign (.indirection .standard), dot⟩ ∧
          read groupNames .plain lineRead c rest = ⟨.sign (.delimiter .dot), dot⟩) ∨
      groupNames = true ∧ lookback = .afterMarker ∧ RunsOn .plain c rest := by
  by_cases opens : startsName c = true
  · cases groupNames with
    | false =>
        rw [read_of_startsName opens, read_of_startsName opens]
        exact .inl rfl
    | true =>
        have alone : read false lookback lineRead c rest = read false .plain lineRead c rest := by
          rw [read_of_startsName opens, read_of_startsName opens]
          rfl
        by_cases run : RunsOn .plain c rest
        · by_cases marker : lookback = .afterMarker
          · exact .inr (.inr ⟨rfl, marker, run⟩)
          · have run' : RunsOn lookback c rest := { run with free := marker }
            exact .inl
              ((read_grouped_of_runsOn run').trans (read_grouped_of_runsOn run).symm)
        · have other : ¬ RunsOn lookback c rest := fun run' =>
            run { run' with free := by decide }
          left
          rw [read_grouped_of_other other, read_grouped_of_other run, alone]
  · rcases sign?_lookback lookback (c :: rest) with same | ⟨dot, here, plain⟩
    · left
      simp only [read, opens, same, Bool.false_eq_true, if_false]
    · rw [read, read]
      split_ifs
      all_goals try exact .inl rfl
      exact .inr (.inl ⟨dot, by rw [here]; rfl, by rw [plain]; rfl⟩)

theorem piecesFrom_ofTokens (keepComments groupNames : Bool) (before : List Token)
    (unread : r.rest = c :: rest) :
    let p : PlacedPiece := ⟨.read groupNames (.ofTokens before) r.lineRead c rest, r.place⟩
    piecesFrom groupNames (.ofTokens before) r =
      p :: piecesFrom groupNames (.ofTokens (before ++ (p.token? keepComments).toList))
        (r.skip p.piece.text.length) := by
  intro p
  rw [piecesFrom_cons unread, Lookback.ofTokens_piece]

theorem offset_skip_word (unread : r.rest = c :: rest) :
    (r.skip (c :: rest.takeWhile continuesName).length).place.offset =
      r.place.offset + byteLength (c :: rest.takeWhile continuesName) :=
  Reader.offset_skip_front (unread ▸ (List.prefix_cons_inj c).2 (takeWhile_front _ _))

theorem rest_skip_word (unread : r.rest = c :: rest) :
    (r.skip (c :: rest.takeWhile continuesName).length).rest = rest.dropWhile continuesName := by
  rw [Reader.rest_skip, unread, List.length_cons, List.drop_succ_cons, drop_length_takeWhile]

theorem not_nameNext_of_not_runsOn (h : r.In source) (unread : r.rest = c :: rest)
    (other : ¬ RunsOn (.ofTokens before) c rest) {t : Token}
    (shown : PlacedPiece.token? keepComments
      ⟨.read false (.ofTokens before) r.lineRead c rest, r.place⟩ = some t)
    (joins : t.JoinsAfter before) :
    ¬ NameNext source t.span.stop ((piecesFrom false (.ofTokens (before ++ [t])) (r.skip
      (Piece.read false (.ofTokens before) r.lineRead c rest).text.length)).filterMap
        (PlacedPiece.token? keepComments)) := by
  obtain ⟨opens, kind⟩ := Piece.word_of_isName joins.1 (kind?_of_isName shown joins.1)
  have word : Piece.read false (.ofTokens before) r.lineRead c rest =
      ⟨.word, c :: rest.takeWhile continuesName⟩ := by
    rw [Piece.read_of_startsName opens, Bool.false_and, Piece.word_alone]
  have stop : t.span.stop =
      (r.skip (c :: rest.takeWhile continuesName).length).place.offset := by
    rw [span_of_token? shown, offset_skip_word unread, word]
    rfl
  rw [word, stop, Lookback.ofTokens_name before joins.1]
  apply not_nameNext (h.skip _)
  rw [rest_skip_word unread]
  by_contra some
  exact other ⟨joins.2, opens, kind ▸ joins.1, some⟩

/-- From here on, the scanner that groups finds what the one that does not group finds, in groups.
-/
structure GroupsFrom (source : List Char) (keepComments : Bool) (before : List Token)
    (r : Reader) : Prop where
  tokens : Grouped source before
    ((piecesFrom false (.ofTokens before) r).filterMap (PlacedPiece.token? keepComments))
    ((piecesFrom true (.ofTokens before) r).filterMap (PlacedPiece.token? keepComments))
  diagnostics : (piecesFrom true (.ofTokens before) r).filterMap PlacedPiece.diagnostic? =
    (piecesFrom false (.ofTokens before) r).filterMap PlacedPiece.diagnostic?

theorem GroupsFrom.piece (h : r.In source) (unread : r.rest = c :: rest)
    (other : ¬ RunsOn (.ofTokens before) c rest)
    (others :
      let p : PlacedPiece := ⟨.read false (.ofTokens before) r.lineRead c rest, r.place⟩
      GroupsFrom source keepComments (before ++ (p.token? keepComments).toList)
        (r.skip p.piece.text.length)) :
    GroupsFrom source keepComments before r := by
  let p : PlacedPiece := ⟨.read false (.ofTokens before) r.lineRead c rest, r.place⟩
  let after := before ++ (p.token? keepComments).toList
  have plain : piecesFrom false (.ofTokens before) r =
      p :: piecesFrom false (.ofTokens after) (r.skip p.piece.text.length) :=
    piecesFrom_ofTokens keepComments false before unread
  have grouped : piecesFrom true (.ofTokens before) r =
      p :: piecesFrom true (.ofTokens after) (r.skip p.piece.text.length) := by
    rw [piecesFrom_ofTokens keepComments true before unread, Piece.read_grouped_of_other other]
  have later : GroupsFrom source keepComments after (r.skip p.piece.text.length) := others
  constructor
  · rw [plain, grouped]
    cases shown : p.token? keepComments with
    | none =>
        have split : after = before := by simp only [after, shown, Option.toList_none,
          List.append_nil]
        rw [List.filterMap_cons_none shown, List.filterMap_cons_none shown]
        rw [split] at later ⊢
        exact later.tokens
    | some t =>
        have split : after = before ++ [t] := by simp only [after, shown, Option.toList_some]
        rw [List.filterMap_cons_some shown, List.filterMap_cons_some shown]
        rw [split] at later ⊢
        exact .alone (not_nameNext_of_not_runsOn h unread other shown) later.tokens
  · rw [plain, grouped, List.filterMap_cons, List.filterMap_cons, later.diagnostics]

structure ReadsRun (source : List Char) (keepComments : Bool) (lookback : Lookback)
    (r next : Reader) (word : List Char) (names : List Token) : Prop where
  tokens : (piecesFrom false lookback r).filterMap (PlacedPiece.token? keepComments) =
    Token.word word r.place :: names ++
      (piecesFrom false .plain next).filterMap (PlacedPiece.token? keepComments)
  diagnostics : (piecesFrom false lookback r).filterMap PlacedPiece.diagnostic? =
    (piecesFrom false .plain next).filterMap PlacedPiece.diagnostic?
  further : NamesAfter source (r.place.offset + byteLength word) names next.place.offset

theorem piecesFrom_run (keepComments : Bool) (h : r.In source) (unread : r.rest = c :: rest)
    (run : RunsOn lookback c rest) :
    let word := c :: rest.takeWhile continuesName
    ∃ names n, ReadsRun source keepComments lookback r (r.skip (word.length + n)) word names ∧
      (n = (Piece.furtherNames (rest.dropWhile continuesName)).length ∨
        [' ', '$'] <+: (r.skip (word.length + n)).rest) := by
  intro word
  obtain ⟨row, n, cut, silent, further, stop⟩ :=
    piecesFrom_furtherNames keepComments (h.skip word.length)
  have first : piecesFrom false lookback r =
      ⟨⟨.word, word⟩, r.place⟩ :: piecesFrom false .plain (r.skip word.length) := by
    rw [piecesFrom_cons unread, Piece.read_of_startsName run.opens, Bool.false_and,
      Piece.word_alone, Piece.lookback_word run.isName]
  rw [← Reader.skip_add, rest_skip_word unread, offset_skip_word unread] at *
  refine ⟨_, n, ⟨?_, ?_, further⟩, stop⟩
  · rw [first, cut, List.filterMap_cons_some (PlacedPiece.token?_word ..), List.filterMap_append]
    rfl
  · rw [first, cut, List.filterMap_cons_none rfl, List.filterMap_append, silent, List.nil_append]

theorem piecesFrom_run_whole {all : List Token} (h : r.In source) (unread : r.rest = c :: rest)
    (run : RunsOn (.ofTokens before) c rest)
    (whole : all = before ++
      (piecesFrom false (.ofTokens before) r).filterMap (PlacedPiece.token? keepComments))
    (free : ∀ before t after, all = before ++ t :: after → t.JoinsAfter before →
      ¬ t.Overruns source) :
    let word := c :: rest.takeWhile continuesName
    let text := word ++ Piece.furtherNames (rest.dropWhile continuesName)
    ∃ names, ReadsRun source keepComments (.ofTokens before) r (r.skip text.length) word names ∧
      Lookback.ofTokens (before ++ .word word r.place :: names) = .plain := by
  intro word text
  obtain ⟨names, n, reads, stop⟩ := piecesFrom_run keepComments h unread run
  have joins : (Token.word word r.place).JoinsAfter before := ⟨run.isName, run.free⟩
  obtain ⟨prior, last, split, lastJoins, lastStop⟩ := joins.last reads.further
  refine ⟨names, ?_, (congrArg _ split).trans (Lookback.ofTokens_name prior lastJoins.1)⟩
  rcases stop with reached | dollar
  · rwa [List.length_append, ← reached]
  · -- The run stops short at a `$` only if its last name overruns.
    exfalso
    rw [reads.tokens, ← List.append_assoc, split, List.append_assoc] at whole
    apply free prior last _ whole lastJoins
    rw [Token.Overruns, lastStop]
    exact (h.skip _).slice? dollar

theorem GroupsFrom.run {names : List Token} (h : r.In source) (unread : r.rest = c :: rest)
    (run : RunsOn (.ofTokens before) c rest)
    (reads :
      let word := c :: rest.takeWhile continuesName
      let text := word ++ Piece.furtherNames (rest.dropWhile continuesName)
      ReadsRun source keepComments (.ofTokens before) r (r.skip text.length) word names)
    (plain : Lookback.ofTokens
      (before ++ .word (c :: rest.takeWhile continuesName) r.place :: names) = .plain)
    (others :
      let word := c :: rest.takeWhile continuesName
      let text := word ++ Piece.furtherNames (rest.dropWhile continuesName)
      GroupsFrom source keepComments (before ++ .word word r.place :: names)
        (r.skip text.length)) :
    GroupsFrom source keepComments before r := by
  let word := c :: rest.takeWhile continuesName
  let further := Piece.furtherNames (rest.dropWhile continuesName)
  let text := word ++ further
  have joined : TokenKind.ofWord (String.ofList text) = .name (String.ofList text) :=
    TokenKind.ofWord_of_space
      (List.mem_append_right word (Piece.furtherNames_space run.further))
  have grouped : piecesFrom true (.ofTokens before) r =
      ⟨⟨.word, text⟩, r.place⟩ :: piecesFrom true .plain (r.skip text.length) := by
    rw [piecesFrom_cons unread, Piece.read_grouped_of_runsOn run,
      Piece.lookback_word (by rw [joined]; rfl)]
  have front : text <+: r.rest := by
    rw [unread]
    exact (List.prefix_cons_inj c).2 (takeWhile_append_front (Piece.furtherNames_front _))
  have stop := Reader.offset_skip_front front
  have laterTokens := others.tokens
  have laterDiagnostics := others.diagnostics
  rw [plain] at laterTokens laterDiagnostics
  constructor
  · rw [reads.tokens, grouped, List.filterMap_cons_some (PlacedPiece.token?_word ..)]
    have token : Token.word text r.place = .write (.name (String.ofList text)) (String.ofList text)
        ⟨(Token.word word r.place).span.start, (r.skip text.length).place.offset⟩
        (Token.word word r.place).line (Token.word word r.place).startColumn := by
      rw [Token.word, joined, stop]
      rfl
    rw [token]
    refine .joined ⟨run.isName, run.free⟩ ?_ reads.further ?_ ?_ laterTokens
    · rintro rfl
      have same : r.place.offset + byteLength word = (r.skip text.length).place.offset :=
        reads.further.eq_of_nil
      have some : 0 < byteLength further := byteLength_pos run.further
      have size : byteLength text = byteLength word + byteLength further := byteLength_append _ _
      omega
    · apply not_nameNext (h.skip _)
      have left : (r.skip text.length).rest =
          (rest.dropWhile continuesName).drop further.length := by
        rw [List.length_append, Reader.skip_add, Reader.rest_skip, rest_skip_word unread]
      rw [left]
      exact Piece.furtherNames_drop _
    · rw [String.toList_ofList, stop]
      exact h.slice? front
  · rw [reads.diagnostics, grouped, List.filterMap_cons_none rfl, laterDiagnostics]

theorem piecesFrom_grouped (keepComments : Bool) {all before : List Token} {r : Reader}
    (h : r.In source)
    (whole : all = before ++
      (piecesFrom false (.ofTokens before) r).filterMap (PlacedPiece.token? keepComments))
    (free : ∀ before t after, all = before ++ t :: after → t.JoinsAfter before →
      ¬ t.Overruns source) :
    GroupsFrom source keepComments before r := by
  -- The induction is on the length of what is left, not on the pieces: one step of the scanner that
  -- groups is a whole run of pieces to the one that does not.
  induction length : r.rest.length using Nat.strong_induction_on generalizing r before with
  | _ length ih =>
      subst length
      cases unread : r.rest with
      | nil =>
          constructor
          · rw [piecesFrom_nil unread, piecesFrom_nil unread]
            exact .nil before
          · rw [piecesFrom_nil unread, piecesFrom_nil unread]
      | cons c rest =>
          have shorter {n : Nat} (some : 0 < n) : (r.skip n).rest.length < r.rest.length := by
            rw [Reader.rest_skip, List.length_drop, unread, List.length_cons]
            omega
          by_cases run : RunsOn (.ofTokens before) c rest
          · obtain ⟨names, reads, plain⟩ := piecesFrom_run_whole h unread run whole free
            refine .run h unread run reads plain (ih _ (shorter (Nat.succ_pos _)) (h.skip _) ?_ rfl)
            rw [whole, reads.tokens, plain, List.append_assoc]
          · have some := List.length_pos_iff.2
              (Piece.read_text_ne_nil false (.ofTokens before) r.lineRead c rest)
            refine .piece h unread run (ih _ (shorter some) (h.skip _) ?_ rfl)
            rw [whole, piecesFrom_ofTokens keepComments false before unread, List.filterMap_cons,
              List.append_assoc]
            split <;> simp_all

theorem NamesAfter.stop_mem {first : Token} {names : List Token} {stop : Nat}
    (h : NamesAfter source first.span.stop names stop) :
    ∃ t ∈ first :: names, t.span.stop = stop := by
  induction names generalizing first with
  | nil => exact ⟨first, List.mem_cons_self, h.eq_of_nil⟩
  | cons name names ih =>
      cases h with
      | more isName space others =>
          obtain ⟨t, member, here⟩ := ih others
          exact ⟨t, List.mem_cons_of_mem _ member, here⟩

theorem Grouped.bounds {plain grouped : List Token} (h : Grouped source before plain grouped) :
    ∀ t ∈ grouped, (∃ u ∈ plain, u.span.start = t.span.start) ∧
      ∃ u ∈ plain, u.span.stop = t.span.stop := by
  induction h with
  | nil => simp
  | alone noMore others ih =>
      rintro t (_ | ⟨_, member⟩)
      · exact ⟨⟨_, List.mem_cons_self, rfl⟩, _, List.mem_cons_self, rfl⟩
      · obtain ⟨⟨u, first, start⟩, v, last, stop⟩ := ih t member
        exact ⟨⟨u, List.mem_cons_of_mem _ first, start⟩, v, List.mem_cons_of_mem _ last, stop⟩
  | joined joins several further noMore written others ih =>
      rintro t (_ | ⟨_, member⟩)
      · obtain ⟨u, last, stop⟩ := further.stop_mem
        exact ⟨⟨_, List.mem_cons_self, rfl⟩, u, List.mem_append_left _ last, stop⟩
      · obtain ⟨⟨u, first, start⟩, v, last, stop⟩ := ih t member
        exact ⟨⟨u, List.mem_append_right _ first, start⟩, v, List.mem_append_right _ last, stop⟩

theorem lex_grouped (source : String) (keepComments : Bool)
    (free : ∀ before t after,
      (lex source { keepComments, groupNames := false }).tokens = before ++ t :: after →
        t.JoinsAfter before → ¬ t.Overruns source.toList) :
    let plain := lex source { keepComments, groupNames := false }
    let grouped := lex source { keepComments, groupNames := true }
    Grouped source.toList [] plain.tokens grouped.tokens ∧
      grouped.diagnostics = plain.diagnostics ∧
      ∀ t ∈ grouped.tokens, (∃ u ∈ plain.tokens, u.span.start = t.span.start) ∧
        ∃ u ∈ plain.tokens, u.span.stop = t.span.stop := by
  intro plain grouped
  have start : (Reader.ofText source.toList).In source.toList := ⟨[], rfl, rfl⟩
  have groups : GroupsFrom source.toList keepComments [] (Reader.ofText source.toList) :=
    piecesFrom_grouped keepComments start rfl free
  exact ⟨groups.tokens, groups.diagnostics, groups.tokens.bounds⟩

theorem lex_grouped_two_runs :
    let source := "?LIST my file\nINT total net cost; ! end ! RETURN x y"
    let plain := lex source { keepComments := true, groupNames := false }
    let grouped := lex source { keepComments := true, groupNames := true }
    (∀ t ∈ plain.tokens, ¬ t.Overruns source.toList) ∧
      Grouped source.toList [] plain.tokens grouped.tokens ∧
      grouped.diagnostics = plain.diagnostics ∧
      ∀ t ∈ grouped.tokens, (∃ u ∈ plain.tokens, u.span.start = t.span.start) ∧
        ∃ u ∈ plain.tokens, u.span.stop = t.span.stop := by
  have free : ∀ t ∈ (lex "?LIST my file\nINT total net cost; ! end ! RETURN x y"
      { keepComments := true, groupNames := false }).tokens,
      ¬ t.Overruns "?LIST my file\nINT total net cost; ! end ! RETURN x y".toList := by
    decide +kernel
  refine ⟨free, lex_grouped _ true fun before t after cut _ => free t ?_⟩
  rw [cut]
  exact List.mem_append_right _ List.mem_cons_self

/-- With a `$` in its way, a name takes in the space and stops where no token of the text does. -/
example : (lex "my $LEN" { groupNames := true }).tokens.map (·.span) = [⟨0, 3⟩, ⟨3, 7⟩] ∧
    (lex "my $LEN" {}).tokens.map (·.span) = [⟨0, 2⟩, ⟨3, 7⟩] := by
  decide +kernel

end TalAnalysis
