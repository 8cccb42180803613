import TalAnalysis.Proofs.Lexer.BeforeLineFeed
import TalAnalysis.Proofs.Lexer.Segmentation
import TalAnalysis.Proofs.Text.Line

namespace TalAnalysis
open Text

def lineBreaks : List Char → Nat
  | [] => 0
  | c :: text => (if breaksLine c text then 1 else 0) + lineBreaks text

def lastLineWidth (text : List Char) : Nat :=
  (text.reverse.takeWhile fun c => !isLineBreak c).length

def Text.Place.shift (bytes lines : Nat) (p : Place) : Place :=
  ⟨p.offset + bytes, p.line + lines, p.column⟩

def Span.shift (bytes : Nat) (s : Span) : Span := ⟨s.start + bytes, s.stop + bytes⟩

def Token.shift (bytes lines : Nat) (t : Token) : Token :=
  { t with span := t.span.shift bytes, line := t.line + lines }

def Diagnostic.shift (bytes : Nat) (d : Diagnostic) : Diagnostic :=
  { d with span := d.span.shift bytes }

def PlacedPiece.shift (bytes lines : Nat) (p : PlacedPiece) : PlacedPiece :=
  { p with place := p.place.shift bytes lines }

namespace Text.Reader

def extend (r : Reader) (after : List Char) : Reader := { r with rest := r.rest ++ after }

def shift (bytes lines : Nat) (r : Reader) : Reader :=
  { r with place := r.place.shift bytes lines }

theorem breaksLine_append_lineFeed {c : Char} {rest : List Char}
    (noReturn : (c :: rest).getLast? ≠ some '\r') (after : List Char) :
    breaksLine c (rest ++ '\n' :: after) = breaksLine c rest := by
  cases rest with
  | cons d rest => rfl
  | nil =>
      have other : c ≠ '\r' := by
        rintro rfl
        simp at noReturn
      simp [breaksLine, other]

theorem next_extend {r : Reader} {c : Char} {rest : List Char} (unread : r.rest = c :: rest)
    (noReturn : r.rest.getLast? ≠ some '\r') (after : List Char) :
    (r.extend ('\n' :: after)).next = r.next.extend ('\n' :: after) := by
  obtain ⟨_, place, lineRead⟩ := r
  subst unread
  simp only [extend, next, List.cons_append, breaksLine_append_lineFeed noReturn]
  split <;> rfl

theorem getLast?_drop_ne {text : List Char} (noReturn : text.getLast? ≠ some '\r') (n : Nat) :
    (text.drop n).getLast? ≠ some '\r' := by
  rw [List.getLast?_drop]
  split
  · simp
  · exact noReturn

theorem skip_extend {r : Reader} {n : Nat} (fits : n ≤ r.rest.length)
    (noReturn : r.rest.getLast? ≠ some '\r') (after : List Char) :
    (r.extend ('\n' :: after)).skip n = (r.skip n).extend ('\n' :: after) := by
  induction n generalizing r with
  | zero => rfl
  | succ n ih =>
      cases unread : r.rest with
      | nil => simp [unread] at fits
      | cons c rest =>
          have left : r.next.rest = rest := by rw [rest_next, unread, List.tail_cons]
          rw [skip, next_extend unread noReturn, skip]
          rw [unread] at fits noReturn
          apply ih
          · rw [left]
            exact Nat.le_of_succ_le_succ fits
          · rw [left]
            exact getLast?_drop_ne noReturn 1

theorem skip_shift (bytes lines : Nat) (r : Reader) (n : Nat) :
    (r.shift bytes lines).skip n = (r.skip n).shift bytes lines := by
  induction n generalizing r with
  | zero => rfl
  | succ n ih =>
      have step : (r.shift bytes lines).next = r.next.shift bytes lines := by
        obtain ⟨rest, place, lineRead⟩ := r
        cases rest with
        | nil => rfl
        | cons c rest =>
            simp only [shift, next, Place.shift]
            split <;> simp [Nat.add_right_comm]
      rw [skip, step, ih, skip]

theorem lineBreaks_eq (text : List Char) : lineBreaks text = lineEnds text := by
  fun_induction lineEnds text with
  | case1 => rfl
  | case2 text ih => simp [lineBreaks, breaksLine, ih, Nat.add_comm]
  | case3 c text alone ih =>
      have breaks := breaksLine_append (not_splitsPair_nil (c :: text)) alone
      rw [List.append_nil] at breaks
      rw [lineBreaks, breaks, ih, Nat.add_comm]

theorem place_skip_all {text : List Char} {r : Reader} (unread : r.rest = text) :
    (r.skip text.length).place =
      ⟨r.place.offset + byteLength text, r.place.line + lineBreaks text,
        (if text.any isLineBreak then 0 else r.place.column) + lastLineWidth text⟩ := by
  have width : lastLineWidth text = (lastLine text).length := by
    rw [lastLine, List.length_reverse, lastLineWidth]
  rw [place_skip (unread.trans (List.append_nil text).symm) (not_splitsPair_nil text),
    lineBreaks_eq, width]

end Text.Reader

theorem piecesFrom_extend {groupNames : Bool} {lookback : Lookback} {r : Reader}
    (noReturn : r.rest.getLast? ≠ some '\r')
    (closed : ∀ p ∈ piecesFrom groupNames lookback r, ∀ contents,
      p.piece.lexeme ≠ .string contents false)
    (ended : ∀ p ∈ piecesFrom groupNames lookback r, p.piece.lexeme = .lineComment →
      ∃ c ∈ p.piece.text, isLineBreak c = true) (after : List Char) :
    ∃ lookback', piecesFrom groupNames lookback (r.extend ('\n' :: after)) =
      piecesFrom groupNames lookback r ++
        piecesFrom groupNames lookback' ((r.skip r.rest.length).extend ('\n' :: after)) := by
  fun_induction piecesFrom groupNames lookback r with
  | case1 lookback r unread => exact ⟨lookback, by rw [unread]; rfl⟩
  | case2 lookback r c rest unread piece ih =>
      obtain ⟨closed, closedLater⟩ := List.forall_mem_cons.1 closed
      obtain ⟨ended, endedLater⟩ := List.forall_mem_cons.1 ended
      have front := Piece.read_text_front groupNames lookback r.lineRead c rest
      have fits : piece.text.length ≤ r.rest.length := unread ▸ front.length_le
      have same : Piece.read groupNames lookback (r.extend ('\n' :: after)).lineRead c
          (rest ++ '\n' :: after) = piece := by
        apply Piece.read_append_lineFeed (unread ▸ noReturn) closed
        intro comment
        obtain ⟨d, member, breaks⟩ := ended comment
        exact ⟨d, front.subset member, breaks⟩
      have unread' : (r.extend ('\n' :: after)).rest = c :: (rest ++ '\n' :: after) :=
        congrArg (· ++ '\n' :: after) unread
      have noReturnLater : (r.skip piece.text.length).rest.getLast? ≠ some '\r' := by
        rw [Reader.rest_skip]
        exact Reader.getLast?_drop_ne noReturn _
      obtain ⟨lookback', later⟩ := ih noReturnLater closedLater endedLater
      refine ⟨lookback', ?_⟩
      have all : (r.skip piece.text.length).skip (r.skip piece.text.length).rest.length =
          r.skip r.rest.length := by
        rw [← Reader.skip_add, Reader.rest_skip, List.length_drop, Nat.add_sub_cancel' fits]
      rw [all] at later
      rw [piecesFrom_cons unread', same, Reader.skip_extend fits noReturn, later]
      rfl

theorem Sign.eq_of_opensWith_lineFeed {listed : String × Sign} {after : List Char}
    (member : listed ∈ spellings) (h : opensWith ('\n' :: after) listed.1.toList = true) :
    listed = ("\n", .lineEnd) := by
  have alone : ∀ listed ∈ spellings, (foldCase listed.1.toList).head? = some '\n' →
      listed = ("\n", .lineEnd) := by
    decide +kernel
  apply alone listed member
  rw [← sameSpelling_iff.1 h]
  have some := length_pos_of_mem_spellings member
  obtain ⟨n, size⟩ := Nat.exists_eq_succ_of_ne_zero (Nat.ne_of_gt some)
  rw [String.length_toList, size, List.take_succ_cons]
  rfl

theorem Sign.longest?_lineFeed (after : List Char) :
    longest? ('\n' :: after) = some ("\n", .lineEnd) := by
  cases found : longest? ('\n' :: after) with
  | none =>
      have := longest?_eq_none_iff.1 found ("\n", .lineEnd) (by decide +kernel)
      simp [matchesAt, opensWith, sameSpelling_refl] at this
  | some listed =>
      obtain ⟨member, spelled⟩ := mem_of_longest? found
      rw [matchesAt, Bool.and_eq_true] at spelled
      rw [eq_of_opensWith_lineFeed member spelled.1]

theorem Piece.read_lineFeed (groupNames : Bool) (lookback : Lookback) (lineRead after : List Char) :
    read groupNames lookback lineRead '\n' after = ⟨.sign .lineEnd, ['\n']⟩ := by
  have found : sign? lookback ('\n' :: after) = some ⟨.sign .lineEnd, ['\n']⟩ := by
    rw [sign?, Sign.longest?_lineFeed]
    rfl
  have noMark : ¬ isBlank '\n' = true := by decide
  simp [read, isBlank, startsName, found]

theorem piecesFrom_lineFeed (groupNames : Bool) (lookback : Lookback) (r : Reader)
    (after : List Char) (unread : r.rest = '\n' :: after) :
    piecesFrom groupNames lookback r = ⟨⟨.sign .lineEnd, ['\n']⟩, r.place⟩ ::
      piecesFrom groupNames .plain
        ((Reader.ofText after).shift (r.place.offset + 1) (r.place.line + 1)) := by
  rw [piecesFrom_cons unread, Piece.read_lineFeed]
  obtain ⟨_, place, lineRead⟩ := r
  subst unread
  simp [Reader.skip, Reader.next, breaksLine, Reader.shift, Reader.ofText, Place.shift,
    Piece.lookback, Piece.kind?, Piece.ofSign, Lookback.ofKind, TokenKind.isComment,
    Char.utf8Size]

theorem piecesFrom_shift (groupNames : Bool) (lookback : Lookback) (bytes lines : Nat)
    (r : Reader) :
    piecesFrom groupNames lookback (r.shift bytes lines) =
      (piecesFrom groupNames lookback r).map (PlacedPiece.shift bytes lines) := by
  fun_induction piecesFrom groupNames lookback r with
  | case1 lookback r unread =>
      have unread' : (r.shift bytes lines).rest = [] := unread
      exact piecesFrom_nil unread' groupNames lookback
  | case2 lookback r c rest unread piece ih =>
      have unread' : (r.shift bytes lines).rest = c :: rest := unread
      rw [piecesFrom_cons unread', List.map_cons, ← ih, ← Reader.skip_shift]
      rfl

theorem span_shift (bytes lines : Nat) (p : PlacedPiece) :
    (p.shift bytes lines).span = p.span.shift bytes := by
  simp [PlacedPiece.shift, PlacedPiece.span, Place.shift, Span.shift, Nat.add_right_comm]

theorem token?_shift (keepComments : Bool) (bytes lines : Nat) (p : PlacedPiece) :
    (p.shift bytes lines).token? keepComments =
      (p.token? keepComments).map (Token.shift bytes lines) := by
  have same : (p.shift bytes lines).piece = p.piece := rfl
  cases found : p.piece.kind? with
  | none => rw [token?_of_kind?_none found, token?_of_kind?_none (same ▸ found), Option.map_none]
  | some kind =>
      rw [token?_of_kind?_some found, token?_of_kind?_some (same ▸ found), span_shift]
      split <;> rfl

theorem diagnostic?_shift (bytes lines : Nat) (p : PlacedPiece) :
    (p.shift bytes lines).diagnostic? = p.diagnostic?.map (Diagnostic.shift bytes) := by
  have same : (p.shift bytes lines).cause? = p.cause? := rfl
  rw [PlacedPiece.diagnostic?, PlacedPiece.diagnostic?, same, span_shift, Option.map_map]
  rfl

theorem pieces_append_lineFeed {groupNames : Bool} {a : String}
    (noReturn : a.toList.getLast? ≠ some '\r')
    (closed : ∀ p ∈ pieces groupNames a, ∀ contents, p.piece.lexeme ≠ .string contents false)
    (ended : ∀ p ∈ pieces groupNames a, p.piece.lexeme = .lineComment →
      ∃ c ∈ p.piece.text, isLineBreak c = true) (b : String) :
    pieces groupNames (a ++ "\n" ++ b) = pieces groupNames a ++
      ⟨⟨.sign .lineEnd, ['\n']⟩,
        ⟨byteLength a.toList, lineBreaks a.toList, lastLineWidth a.toList⟩⟩ ::
      (pieces groupNames b).map
        (PlacedPiece.shift (byteLength a.toList + 1) (lineBreaks a.toList + 1)) := by
  let start := Reader.ofText a.toList
  have whole : Reader.ofText (a ++ "\n" ++ b).toList = start.extend ('\n' :: b.toList) := by
    simp [Reader.ofText, Reader.extend, start]
  let stop := (start.skip start.rest.length).extend ('\n' :: b.toList)
  have unread : stop.rest = '\n' :: b.toList := by
    simp [stop, Reader.extend]
  have place : stop.place =
      ⟨byteLength a.toList, lineBreaks a.toList, lastLineWidth a.toList⟩ := by
    show (start.skip start.rest.length).place = _
    rw [Reader.place_skip_all rfl]
    simp [start, Reader.ofText]
  obtain ⟨lookback, cut⟩ := piecesFrom_extend (r := start) noReturn closed ended b.toList
  rw [pieces, whole, cut, piecesFrom_lineFeed groupNames lookback stop b.toList unread, place,
    piecesFrom_shift]
  rfl

theorem lex_append_lineFeed {a : String} {options : LexOptions}
    (closed : ∀ d ∈ (lex a options).diagnostics, d.cause ≠ .unterminatedString)
    (noReturn : a.toList.getLast? ≠ some '\r')
    (ended : ∀ t ∈ (lex a { options with keepComments := true }).tokens,
      t.kind = .lineComment → t.text.toList.getLast?.any isLineBreak = true) (b : String) :
    let bytes := byteLength a.toList
    let lines := lineBreaks a.toList
    lex (a ++ "\n" ++ b) options =
      { tokens := (lex a options).tokens ++
          .write .newLine "\n" ⟨bytes, bytes + 1⟩ lines (lastLineWidth a.toList) ::
          (lex b options).tokens.map (Token.shift (bytes + 1) (lines + 1))
        diagnostics := (lex a options).diagnostics ++
          (lex b options).diagnostics.map (Diagnostic.shift (bytes + 1)) } := by
  intro bytes lines
  have noOpenString : ∀ p ∈ pieces options.groupNames a, ∀ contents,
      p.piece.lexeme ≠ .string contents false := by
    intro p member contents open_
    have reported : p.diagnostic? = some (.ofCause .unterminatedString p.span) := by
      simp [PlacedPiece.diagnostic?, PlacedPiece.cause?, open_]
    exact closed _ (List.mem_filterMap.2 ⟨p, member, reported⟩) rfl
  have commentsEnd : ∀ p ∈ pieces options.groupNames a, p.piece.lexeme = .lineComment →
      ∃ c ∈ p.piece.text, isLineBreak c = true := by
    intro p member comment
    have kind : p.piece.kind? = some .lineComment := by rw [Piece.kind?, comment]
    have shown : p.token? true = _ := token?_of_kind?_some kind
    rw [Bool.true_or, if_pos rfl] at shown
    have breaks := ended _ (List.mem_filterMap.2 ⟨p, member, shown⟩) rfl
    obtain ⟨c, last, breaks⟩ := (Option.any_eq_true _ _).1 breaks
    refine ⟨c, ?_, breaks⟩
    simpa [Token.write] using List.mem_of_getLast? last
  have cut := pieces_append_lineFeed noReturn noOpenString commentsEnd b
  have lineFeed : PlacedPiece.token? options.keepComments
      ⟨⟨.sign .lineEnd, ['\n']⟩, ⟨bytes, lines, lastLineWidth a.toList⟩⟩ =
        some (.write .newLine "\n" ⟨bytes, bytes + 1⟩ lines (lastLineWidth a.toList)) := by
    have noComment : TokenKind.isComment .newLine = false := rfl
    rw [token?_of_kind?_some rfl, Piece.ofSign, noComment, Bool.not_false, Bool.or_true]
    rfl
  have silent : PlacedPiece.diagnostic?
      ⟨⟨.sign .lineEnd, ['\n']⟩, ⟨bytes, lines, lastLineWidth a.toList⟩⟩ = none := rfl
  rw [lex, cut, List.filterMap_append, List.filterMap_append, List.filterMap_cons_some lineFeed,
    List.filterMap_cons_none silent, List.filterMap_map, List.filterMap_map]
  simp only [Function.comp_def, token?_shift, diagnostic?_shift, lex, List.map_filterMap]
  rfl

theorem lex_append_lineFeed_comment_directive :
    lex ("INT x; ! note\n-- more\nINT" ++ "\n" ++ ".y;\n?LIST") { keepComments := true } =
      { tokens := (lex "INT x; ! note\n-- more\nINT" { keepComments := true }).tokens ++
          .write .newLine "\n" ⟨25, 26⟩ 2 3 ::
          (lex ".y;\n?LIST" { keepComments := true }).tokens.map (Token.shift 26 3)
        diagnostics := (lex "INT x; ! note\n-- more\nINT" { keepComments := true }).diagnostics ++
          (lex ".y;\n?LIST" { keepComments := true }).diagnostics.map (Diagnostic.shift 26) } :=
  lex_append_lineFeed (by decide +kernel) (by decide) (by decide +kernel) ".y;\n?LIST"

end TalAnalysis
