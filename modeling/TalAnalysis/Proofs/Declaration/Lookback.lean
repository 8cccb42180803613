import TalAnalysis.Proofs.Declaration.Layout
import TalAnalysis.Proofs.Lexer.FirstLine
import TalAnalysis.Proofs.Lexer.Grouping

namespace TalAnalysis.Declaration
open Text

/-- Where a statement goes on, the token declares nothing and changes nothing. -/
def Idle (t : Token) : Prop := ∀ s tokens, step s t tokens = ⟨[], s.inStatement, tokens⟩

theorem idle_of_isName {t : Token} (isName : t.kind.isName = true) : Idle t := by
  intro s tokens
  cases kind : t.kind with
  | name => simp only [step, kind]
  | _ => simp [kind, TokenKind.isName, TokenKind.name?] at isName

theorem idle_dot {t : Token}
    (dot : t.kind = .delimiter .dot ∨ t.kind = .indirection .standard) : Idle t := by
  intro s tokens
  rcases dot with kind | kind <;> simp only [step, kind]

theorem findings_idle {t : Token} (idle : Idle t) (s : State) (tokens : List Token) :
    findings s (t :: tokens) = findings s.inStatement tokens := by
  rw [findings_cons, idle]
  rfl

variable {lookback : Lookback} {rest : List Char} {c : Char}

theorem lookback_of_dot {p : Piece} {dot : List Char}
    (stands : p = ⟨.sign (.indirection .standard), dot⟩ ∨ p = ⟨.sign (.delimiter .dot), dot⟩)
    (before : Lookback) : p.lookback before = .plain := by
  rcases stands with rfl | rfl <;> rfl

variable {keepComments : Bool}

theorem findings_dot {groupNames : Bool} {r : Reader} {dot : List Char}
    (unread : r.rest = c :: rest)
    (here : Piece.read groupNames lookback r.lineRead c rest =
      ⟨.sign (.indirection .standard), dot⟩)
    (plain : Piece.read groupNames .plain r.lineRead c rest = ⟨.sign (.delimiter .dot), dot⟩)
    (s : State) :
    findings s ((piecesFrom groupNames lookback r).filterMap
        (PlacedPiece.token? keepComments)) =
      findings s ((piecesFrom groupNames .plain r).filterMap
        (PlacedPiece.token? keepComments)) := by
  let pointer : PlacedPiece := ⟨⟨.sign (.indirection .standard), dot⟩, r.place⟩
  let delimiter : PlacedPiece := ⟨⟨.sign (.delimiter .dot), dot⟩, r.place⟩
  have pointerKind : pointer.piece.kind? = some (.indirection .standard) := rfl
  have delimiterKind : delimiter.piece.kind? = some (.delimiter .dot) := rfl
  obtain ⟨t, shown, kind⟩ := exists_token? pointerKind (Bool.or_true keepComments) rfl
  obtain ⟨t', shown', kind'⟩ := exists_token? delimiterKind (Bool.or_true keepComments) rfl
  rw [piecesFrom_cons unread, piecesFrom_cons unread, here, plain,
    lookback_of_dot (.inl rfl), lookback_of_dot (.inr rfl), List.filterMap_cons_some shown,
    List.filterMap_cons_some shown', findings_idle (idle_dot (.inr kind)),
    findings_idle (idle_dot (.inl kind'))]

theorem findings_word {text : List Char} {place : Place}
    (isName : (TokenKind.ofWord (String.ofList text)).isName = true) (s : State)
    (others : List PlacedPiece) :
    findings s ((⟨⟨.word, text⟩, place⟩ :: others).filterMap
        (PlacedPiece.token? keepComments)) =
      findings s.inStatement (others.filterMap (PlacedPiece.token? keepComments)) := by
  rw [List.filterMap_cons_some (PlacedPiece.token?_word keepComments text place)]
  exact findings_idle (idle_of_isName isName) s _

theorem isName_append_furtherNames {text : List Char} (after : List Char)
    (isName : (TokenKind.ofWord (String.ofList text)).isName = true) :
    (TokenKind.ofWord (String.ofList (text ++ Piece.furtherNames after))).isName = true := by
  by_cases none : Piece.furtherNames after = []
  · rwa [none, List.append_nil]
  · have space := List.mem_append_right text (Piece.furtherNames_space none)
    rw [TokenKind.ofWord_of_space space]
    rfl

theorem findings_furtherNames (r : Reader) (s : State) :
    findings s.inStatement ((piecesFrom true .plain r).filterMap
        (PlacedPiece.token? keepComments)) =
      findings s.inStatement
        ((piecesFrom true .plain (r.skip (Piece.furtherNames r.rest).length)).filterMap
          (PlacedPiece.token? keepComments)) := by
  generalize unread : r.rest = text
  fun_cases Piece.furtherNames text with
  | case2 | case3 => rfl
  | case1 rest name ahead =>
      obtain ⟨rfl, isName, c, rest, rfl, opens⟩ := Piece.nameAhead?_eq_some ahead
      have left : (r.skip 1).rest = c :: rest := by rw [Reader.rest_skip, unread]; rfl
      have space : piecesFrom true .plain r =
          ⟨⟨.blanks, [' ']⟩, r.place⟩ :: piecesFrom true .plain (r.skip 1) := by
        rw [piecesFrom_cons unread, Piece.read_space true .plain _ opens]
        rfl
      rw [space, List.filterMap_cons_none (token?_of_kind?_none rfl)]
      by_cases mark : c = '$'
      · subst mark
        have none : ('$' :: rest).takeWhile continuesName = [] :=
          List.takeWhile_cons_of_neg (by decide)
        have stop : Piece.furtherNames ('$' :: rest) = [] := by
          rw [Piece.furtherNames]
          rintro _ ⟨⟩
        rw [none, List.length_nil, List.drop_zero, stop]
        rfl
      · have goesOn := continuesName_of_startsName opens mark
        rw [List.takeWhile_cons_of_pos goesOn] at isName ⊢
        have joined := isName_append_furtherNames (rest.dropWhile continuesName) isName
        have next : Piece.read true .plain (r.skip 1).lineRead c rest = ⟨.word,
            c :: rest.takeWhile continuesName ++
              Piece.furtherNames (rest.dropWhile continuesName)⟩ := by
          rw [Piece.read_of_startsName opens, Piece.word, isName]
          rfl
        rw [piecesFrom_cons left, next, Piece.lookback_word joined, findings_word joined,
          ← Reader.skip_add, List.length_cons (a := c), List.drop_succ_cons,
          drop_length_takeWhile, Nat.add_comm]
        rfl

theorem findings_run {r : Reader} (unread : r.rest = c :: rest) (run : RunsOn .plain c rest)
    (s : State) :
    findings s ((piecesFrom true .afterMarker r).filterMap (PlacedPiece.token? keepComments)) =
      findings s ((piecesFrom true .plain r).filterMap (PlacedPiece.token? keepComments)) := by
  let word := c :: rest.takeWhile continuesName
  let text := word ++ Piece.furtherNames (rest.dropWhile continuesName)
  have joined := isName_append_furtherNames (rest.dropWhile continuesName) run.isName
  have alone : piecesFrom true .afterMarker r =
      ⟨⟨.word, word⟩, r.place⟩ :: piecesFrom true .plain (r.skip word.length) := by
    rw [piecesFrom_cons unread, Piece.read_of_startsName run.opens, bne_self_eq_false,
      Bool.and_false, Piece.word_alone, Piece.lookback_word run.isName]
  have grouped : piecesFrom true .plain r =
      ⟨⟨.word, text⟩, r.place⟩ :: piecesFrom true .plain (r.skip text.length) := by
    rw [piecesFrom_cons unread, Piece.read_grouped_of_runsOn run, Piece.lookback_word joined]
  rw [alone, grouped, findings_word run.isName, findings_word joined, findings_furtherNames,
    rest_skip_word unread, ← Reader.skip_add, List.length_append]

theorem findings_comment {p : PlacedPiece} {kind : TokenKind} (found : p.piece.kind? = some kind)
    (comment : kind.isComment = true) (s : State) (others : List PlacedPiece) :
    findings s ((p :: others).filterMap (PlacedPiece.token? keepComments)) =
      findings s (others.filterMap (PlacedPiece.token? keepComments)) := by
  have noMark : kind.marksDirective = false := by
    cases kind with
    | comment | lineComment => rfl
    | _ => cases comment
  cases keepComments with
  | false =>
      have dropped : p.token? false = none := by
        rw [token?_of_kind?_some found, comment]
        rfl
      rw [List.filterMap_cons_none dropped]
  | true =>
      obtain ⟨t, shown, same⟩ := exists_token? found (Bool.true_or _) noMark
      have layout : t.kind.isLayout = true := by
        rw [same, TokenKind.isLayout, comment, Bool.or_true]
      rw [List.filterMap_cons_some shown, findings_cons, step_of_isLayout layout]
      rfl

theorem findings_lookback (groupNames : Bool) (lookback : Lookback) (r : Reader) (s : State) :
    findings s ((piecesFrom groupNames lookback r).filterMap
        (PlacedPiece.token? keepComments)) =
      findings s ((piecesFrom groupNames .plain r).filterMap
        (PlacedPiece.token? keepComments)) := by
  fun_induction piecesFrom groupNames lookback r with
  | case1 lookback r unread => rw [piecesFrom_nil unread]
  | case2 lookback r c rest unread piece ih =>
      have first : piecesFrom groupNames lookback r =
          ⟨piece, r.place⟩ :: piecesFrom groupNames (piece.lookback lookback)
            (r.skip piece.text.length) := piecesFrom_cons unread groupNames lookback
      rw [← first]
      -- Either the first piece is the same, and the rest goes on from there, or it is idle and
      -- leaves the two scanners alike.
      rcases Piece.read_lookback groupNames lookback r.lineRead c rest with
        same | ⟨dot, here, plain⟩ | ⟨rfl, rfl, run⟩
      · have plain : piecesFrom groupNames .plain r = ⟨piece, r.place⟩ ::
            piecesFrom groupNames (piece.lookback .plain) (r.skip piece.text.length) := by
          rw [piecesFrom_cons unread, ← same]
        rw [first, plain]
        cases found : piece.kind? with
        | none =>
            have silent : PlacedPiece.token? keepComments ⟨piece, r.place⟩ = none :=
              token?_of_kind?_none found
            rw [Piece.lookback, found] at ih
            rw [List.filterMap_cons_none silent, List.filterMap_cons_none silent, Piece.lookback,
              Piece.lookback, found]
            exact ih
        | some kind =>
            rw [Piece.lookback_of_kind? found] at ih
            rw [Piece.lookback_of_kind? found, Piece.lookback_of_kind? found]
            cases comment : kind.isComment with
            | false => rfl
            | true =>
                rw [comment, if_pos rfl] at ih
                rw [if_pos rfl, if_pos rfl, findings_comment found comment,
                  findings_comment found comment]
                exact ih
      · exact findings_dot unread here plain s
      · exact findings_run unread run s

theorem findings_lexAfter (lookback : Lookback) (text : List Char) (options : LexOptions)
    (s : State) :
    findings s (lexAfter lookback text options) =
      findings s (lex (String.ofList text) options).tokens := by
  rw [lexAfter, findings_lookback, lex, pieces, String.toList_ofList]

end TalAnalysis.Declaration
