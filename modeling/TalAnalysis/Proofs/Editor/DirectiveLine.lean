import TalAnalysis.Proofs.Checked.Analysis
import TalAnalysis.Proofs.Editor.Position
import TalAnalysis.Proofs.Lexer.LineRead
import TalAnalysis.Proofs.Lexer.Reading

namespace TalAnalysis
open Text

variable {groupNames : Bool}

theorem partsWords_mark : PartsWords '?' where
  small := by decide
  lower := by decide
  noName := by decide
  noDigit base := by cases base <;> decide
  noMark := by decide
  noSize := by decide

theorem Segment.of_mem_mark {lexeme : Lexeme} {text after : List Char}
    (h : Segment groupNames lexeme text after) (member : '?' ∈ text) :
    (∃ opensLine, lexeme = .directive opensLine) ∨ lexeme.isComment = true ∨
      ∃ contents closed, lexeme = .string contents closed := by
  cases lexeme with
  | directive opensLine => exact .inl ⟨opensLine, rfl⟩
  | lineComment | comment => exact .inr (.inl rfl)
  | string contents closed => exact .inr (.inr ⟨contents, closed, rfl⟩)
  | word => exact absurd member (partsWords_mark.not_mem_segment h (.inl rfl))
  | number value => exact absurd member (partsWords_mark.not_mem_segment h (.inr ⟨value, rfl⟩))
  | blanks =>
      cases h with
      | blanks some blank => exact absurd (blank _ member) (by decide)
  | unknown c =>
      cases h with
      | unknown nothing => exact absurd (List.mem_singleton.1 member).symm nothing.directive
  | sign sign =>
      cases h with
      | sign some spelled =>
          obtain ⟨entry, listed, same, -⟩ := spelled
          have none : ∀ listed ∈ Sign.spellings, '?' ∉ listed.1.toList := by decide +kernel
          exact absurd member (partsWords_mark.not_mem_of_sameSpelling same (none entry listed))

theorem Segment.comment_eq {lexeme : Lexeme} {text after : List Char}
    (h : Segment groupNames lexeme text after) (comment : lexeme.isComment = true) :
    ∃ line ending, text = line ++ ending ∧ (∀ c ∈ line, isLineBreak c = false) ∧
      ∀ c ∈ ending, isLineBreak c = true := by
  cases h with
  | @lineComment body terminator after onLine line =>
      refine ⟨'-' :: '-' :: body, terminator, rfl, ?_, ?_⟩
      · exact List.forall_mem_cons.2 ⟨rfl, List.forall_mem_cons.2 ⟨rfl, onLine⟩⟩
      · cases line <;> simp [isLineBreak]
  | @closedComment body onLine after =>
      refine ⟨'!' :: body ++ ['!'], [], (List.append_nil _).symm, ?_, List.forall_mem_nil _⟩
      exact List.forall_mem_append.2 ⟨List.forall_mem_cons.2 ⟨rfl, fun c h => (onLine c h).2⟩,
        List.forall_mem_singleton.2 rfl⟩
  | @openComment body after onLine stop =>
      refine ⟨'!' :: body, [], (List.append_nil _).symm, ?_, List.forall_mem_nil _⟩
      exact List.forall_mem_cons.2 ⟨rfl, fun c h => (onLine c h).2⟩
  | _ => cases comment

theorem Segment.break_of_mem {lexeme : Lexeme} {front back after : List Char} {d : Char}
    (h : Segment groupNames lexeme (front ++ d :: back) after) (comment : lexeme.isComment = true)
    (breaks : isLineBreak d = true) : ∀ c ∈ back, isLineBreak c = true := by
  obtain ⟨line, ending, cut, onLine, ends⟩ := h.comment_eq comment
  intro c member
  refine ends c (List.IsSuffix.subset ?_ member)
  rcases List.append_eq_append_iff.1 cut with ⟨inside, rfl, left⟩ | ⟨passed, -, rfl⟩
  · rcases List.append_eq_cons_iff.1 left.symm with ⟨-, rfl⟩ | ⟨_, rfl, -⟩
    · exact List.suffix_cons d back
    · exact absurd breaks (Bool.eq_false_iff.1 (onLine d (by simp)))
  · exact (List.suffix_cons d back).trans (List.suffix_append passed _)

theorem Segment.text_of_directive {lexeme : Lexeme} {text after : List Char} {opensLine : Bool}
    (h : Segment groupNames lexeme text after) (mark : lexeme = .directive opensLine) :
    text = ['?'] := by
  cases h with
  | directive => rfl
  | _ => cases mark

theorem Segment.of_mark_inside {lexeme : Lexeme} {front back after : List Char}
    (h : Segment groupNames lexeme (front ++ '?' :: back) after) (some : front ≠ []) :
    (lexeme.isComment = true ∨ ∃ contents closed, lexeme = .string contents closed) ∧
      ∀ c ∈ front.head?, isWhiteSpace c = false := by
  have inside : '?' ∈ front ++ '?' :: back := List.mem_append_right front List.mem_cons_self
  rcases h.of_mem_mark inside with ⟨opensLine, mark⟩ | other
  · exact absurd (List.append_eq_singleton_iff.1 (h.text_of_directive mark)) (by simp [some])
  · refine ⟨other, fun c first => ?_⟩
    have opens : (front ++ '?' :: back).head? = c := by
      rw [List.head?_append_of_ne_nil front some]
      exact first
    generalize front ++ '?' :: back = text at h opens
    cases h with
    | lineComment | closedComment | openComment | closedString | openString =>
        obtain rfl := Option.some.inj opens
        decide
    | _ => simp [Lexeme.isComment] at other

def TokenKind.isString : TokenKind → Bool
  | .string _ => true
  | _ => false

theorem kind?_of_token?_kept {p : PlacedPiece} {t : Token} (h : p.token? true = some t) :
    p.piece.kind? = some t.kind := by
  cases found : p.piece.kind? with
  | none =>
      rw [token?_of_kind?_none found] at h
      cases h
  | some kind =>
      obtain ⟨u, shown, kind⟩ := token?_kept found
      rw [h] at shown
      rw [Option.some.inj shown, kind]

theorem Piece.lexeme_of_directiveLine {p : Piece} (h : p.kind? = some .directiveLine) :
    p.lexeme = .directive true := by
  obtain ⟨lexeme, text⟩ := p
  cases lexeme with
  | directive opensLine =>
      cases opensLine with
      | true => rfl
      | false => cases h
  | word =>
      have isWord := TokenKind.isWord_ofWord (String.ofList text)
      rw [Option.some.inj h] at isWord
      cases isWord
  | sign sign => cases sign <;> cases h
  | _ => cases h

theorem Piece.read_mark (groupNames : Bool) (lookback : Lookback) (lineRead rest : List Char) :
    read groupNames lookback lineRead '?' rest =
      ⟨.directive (lineRead.all isWhiteSpace), ['?']⟩ := rfl

end TalAnalysis

namespace TalAnalysis.Editor
open Text

variable {source : String} {before after : List Char}

theorem opensDirectiveLine_iff :
    opensDirectiveLine before = true ↔ ∃ blank rest, lastLine before = blank ++ '?' :: rest ∧
      ∀ c ∈ blank, isWhiteSpace c = true := by
  change decide (((lastLine before).dropWhile isWhiteSpace).head? = some '?') = true ↔ _
  rw [decide_eq_true_eq]
  constructor
  · intro first
    obtain ⟨rest, mark⟩ := List.head?_eq_some_iff.1 first
    refine ⟨(lastLine before).takeWhile isWhiteSpace, rest, ?_, fun c => List.mem_takeWhile_imp⟩
    rw [← mark, List.takeWhile_append_dropWhile]
  · rintro ⟨blank, rest, line, white⟩
    rw [line, List.dropWhile_append_of_pos white, List.dropWhile_cons_of_neg (by decide)]
    rfl

theorem exists_line_of_directiveLine {groupNames : Bool} {t : Token}
    (member : t ∈ (lex source ⟨true, groupNames⟩).tokens) (kind : t.kind = .directiveLine) :
    ∃ front rest, source.toList = front ++ '?' :: rest ∧ t.line = lineEnds front ∧
      t.span.stop = byteLength front + 1 ∧ ∀ c ∈ lastLine front, isWhiteSpace c = true := by
  obtain ⟨p, placed, shown⟩ := List.mem_filterMap.1 member
  have line := Piece.lexeme_of_directiveLine (kind ▸ kind?_of_token?_kept shown)
  obtain ⟨front, c, rest, read⟩ := readOnLine_of_mem placed
  obtain ⟨lookback, piece⟩ := read.read
  obtain ⟨after, cut, segment⟩ := read.segment
  have text := segment.text_of_directive line
  rw [text] at cut
  obtain ⟨rfl, -⟩ := List.cons.inj cut
  rw [piece, Piece.read_mark, Lexeme.directive.injEq, List.all_reverse, List.all_eq_true] at line
  rw [write_of_token? shown, PlacedPiece.span, text, read.place]
  exact ⟨front, rest, read.cut, rfl, rfl, line⟩

theorem exists_gone {earlier blank front passed : List Char}
    (reached : earlier ++ blank = front ++ passed) (outside : ¬ passed ⊆ blank) :
    ∃ gone d, earlier = front ++ (gone ++ [d]) ∧ passed = gone ++ d :: blank := by
  rcases List.append_eq_append_iff.1 reached with ⟨_, -, rfl⟩ | ⟨gone, rfl, rfl⟩
  · exact absurd (List.subset_append_right _ _) outside
  · rcases List.eq_nil_or_concat' gone with rfl | ⟨gone, d, rfl⟩
    · exact absurd (List.Subset.refl _) outside
    · exact ⟨gone, d, rfl, by simp⟩

/-- A piece that holds the question mark opens with it: it does not open with the blanks before the
mark, and what opens on an earlier line is a comment, which ends there, or a string. -/
theorem opens_with_mark {groupNames : Bool} {p : PlacedPiece} {c : Char}
    {earlier blank front rest passed left : List Char} (placed : p ∈ pieces groupNames source)
    (read : p.ReadOnLine groupNames source.toList front c rest)
    (holds : p.piece.text = passed ++ '?' :: left) (reached : earlier ++ blank = front ++ passed)
    (breaks : ∀ c ∈ earlier.getLast?, isLineBreak c = true)
    (white : ∀ c ∈ blank, isWhiteSpace c = true)
    (clear : ∀ t ∈ (lex source ⟨true, groupNames⟩).tokens,
      t.kind.isString = true → t.line < lineEnds earlier → t.span.stop ≤ byteLength earlier) :
    passed = [] := by
  by_contra nonempty
  obtain ⟨after, text, segment⟩ := read.segment
  obtain ⟨other, visible⟩ := (holds ▸ segment).of_mark_inside nonempty
  have outside : ¬ passed ⊆ blank := by
    obtain ⟨d, others, rfl⟩ := List.exists_cons_of_ne_nil nonempty
    intro within
    exact Bool.eq_false_iff.1 (visible d rfl) (white d (within List.mem_cons_self))
  -- So the piece opens before the blanks, and the break `d` is inside of it.
  obtain ⟨gone, d, rfl, rfl⟩ := exists_gone reached outside
  have broken : isLineBreak d = true := breaks d (by simp)
  rcases other with comment | ⟨contents, closed, string⟩
  · rw [holds, List.append_assoc] at segment
    have mark := segment.break_of_mem comment broken '?' (by simp)
    cases mark
  · have found : p.piece.kind? = some (.string (String.ofList contents)) := by
      rw [Piece.kind?, string]
    obtain ⟨t, shown, kind⟩ := token?_kept found
    have apart : ¬ SplitsPair front (gone ++ [d]) := by
      rintro ⟨last, feed⟩
      refine read.whole ⟨last, ?_⟩
      rw [text, holds, ← feed]
      cases gone <;> rfl
    have later : lineEnds front < lineEnds (front ++ (gone ++ [d])) :=
      lineEnds_lt apart (by simp) broken
    -- The string is on an earlier line, so `clear` has it end there, and the mark is behind that.
    have stop := clear t (List.mem_filterMap.2 ⟨p, placed, shown⟩) (by rw [kind]; rfl) (by
      rwa [write_of_token? shown, Token.write, read.place])
    rw [span_of_token? shown, PlacedPiece.span, read.place, holds] at stop
    simp only [byteLength_append, byteLength_cons, byteLength_nil] at stop
    have size : '?'.utf8Size = 1 := rfl
    omega

theorem exists_directiveLine {groupNames : Bool} {earlier blank rest : List Char}
    (cut : source.toList = earlier ++ blank ++ '?' :: rest)
    (breaks : ∀ c ∈ earlier.getLast?, isLineBreak c = true)
    (onLine : ∀ c ∈ blank, isLineBreak c = false) (white : ∀ c ∈ blank, isWhiteSpace c = true)
    (clear : ∀ t ∈ (lex source ⟨true, groupNames⟩).tokens,
      t.kind.isString = true → t.line < lineEnds earlier → t.span.stop ≤ byteLength earlier) :
    ∃ t ∈ (lex source ⟨true, groupNames⟩).tokens, t.kind = .directiveLine ∧
      t.line = lineEnds earlier ∧ t.span.stop = byteLength (earlier ++ blank) + 1 := by
  obtain ⟨p, placed, front, c, rest', passed, left, read, holds, reached⟩ :=
    exists_readOnLine groupNames cut
  obtain rfl := opens_with_mark placed read holds reached breaks white clear
  rw [List.append_nil] at reached
  subst reached
  obtain ⟨after, text, -⟩ := read.segment
  rw [holds] at text
  obtain ⟨rfl, -⟩ := List.cons.inj text
  obtain ⟨lookback, piece⟩ := read.read
  -- The scanner looks back at the whole line so far, which is white.
  have line : lastLine (earlier ++ blank) = blank := by
    rw [lastLine_append_onLine earlier onLine, lastLine_eq_nil breaks, List.nil_append]
  have opens : (blank.reverse.all isWhiteSpace) = true := by
    rwa [List.all_reverse, List.all_eq_true]
  rw [Piece.read_mark, line, opens] at piece
  have found : p.piece.kind? = some .directiveLine := by
    rw [piece]
    rfl
  obtain ⟨t, shown, kind⟩ := token?_kept found
  refine ⟨t, List.mem_filterMap.2 ⟨p, placed, shown⟩, kind, ?_, ?_⟩
  · rw [write_of_token? shown, Token.write, read.place, lineEnds_append_onLine earlier onLine]
  · rw [span_of_token? shown, PlacedPiece.span, read.place, piece]
    rfl

variable (cut : source.toList = before ++ after) (whole : ¬ SplitsPair before after)

include cut in
theorem directiveLine_of_opens {groupNames : Bool} (opens : opensDirectiveLine before = true)
    (clear : ∀ t ∈ (lex source ⟨true, groupNames⟩).tokens, t.kind.isString = true →
      t.line < lineEnds before → t.span.stop + byteLength (lastLine before) ≤ byteLength before) :
    ∃ t ∈ (lex source ⟨true, groupNames⟩).tokens, t.kind = .directiveLine ∧
      t.line = lineEnds before ∧ t.span.stop ≤ byteLength before := by
  obtain ⟨blank, rest, line, white⟩ := opensDirectiveLine_iff.1 opens
  obtain ⟨earlier, split, breaks⟩ := exists_earlier before
  have onLine := onLine_lastLine before
  have lines : lineEnds before = lineEnds earlier := by
    conv_lhs => rw [split]
    exact lineEnds_append_onLine earlier onLine
  have size : byteLength before = byteLength earlier + byteLength (lastLine before) := by
    conv_lhs => rw [split]
    exact byteLength_append _ _
  have cutAtMark : source.toList = earlier ++ blank ++ '?' :: (rest ++ after) := by
    rw [cut, split, line]
    simp
  obtain ⟨t, member, kind, sameLine, stop⟩ := exists_directiveLine cutAtMark breaks
    (fun c inside => onLine c (by simp [line, inside])) white
    fun t member string earlierLine => by
      have ended := clear t member string (lines ▸ earlierLine)
      omega
  refine ⟨t, member, kind, sameLine.trans lines.symm, ?_⟩
  have one : '?'.utf8Size = 1 := rfl
  rw [stop, size, line]
  simp only [byteLength_append, byteLength_cons]
  omega

include cut in
theorem opens_of_directiveLine {groupNames : Bool} {t : Token}
    (member : t ∈ (lex source ⟨true, groupNames⟩).tokens) (kind : t.kind = .directiveLine)
    (sameLine : t.line = lineEnds before) (stop : t.span.stop ≤ byteLength before) :
    opensDirectiveLine before = true := by
  obtain ⟨front, rest, cut', line, stop', white⟩ := exists_line_of_directiveLine member kind
  rw [stop'] at stop
  obtain ⟨inLine, rfl⟩ : ∃ inLine, before = front ++ '?' :: inLine := by
    rcases in_front_or_after (cut'.symm.trans cut) with found | ⟨more, rfl, -⟩
    · exact found
    · rw [byteLength_append] at stop
      omega
  have apart : ¬ SplitsPair front ('?' :: inLine) := by simp [SplitsPair]
  rw [sameLine, lineEnds_append apart] at line
  have onLine := onLine_of_lineEnds (Nat.add_eq_left.1 line)
  rw [opensDirectiveLine_iff, lastLine_append_onLine front onLine]
  exact ⟨lastLine front, inLine, rfl, white⟩

/-- The editor takes a line for a directive line where the lexer does, if no string runs into the
line. -/
theorem onDirectiveLine?_iff (groupNames : Bool)
    (cut : source.toList = before ++ after) (whole : ¬ SplitsPair before after)
    (clear : ∀ t ∈ (lex source ⟨true, groupNames⟩).tokens, t.kind.isString = true →
      t.line < (positionAt source (byteLength before)).line →
        t.span.stop + byteLength (lastLine before) ≤ byteLength before) :
    ∃ answer, onDirectiveLine? source (byteLength before) = some answer ∧
      (answer = true ↔ ∃ t ∈ (lex source ⟨true, groupNames⟩).tokens, t.kind = .directiveLine ∧
        t.line = (positionAt source (byteLength before)).line ∧
        t.span.stop ≤ byteLength before) := by
  have here : onDirectiveLine? source (byteLength before) = some (opensDirectiveLine before) := by
    have within : byteLength before ≤ byteLength (before ++ after) := by simp
    rw [onDirectiveLine?, cut, Nat.min_eq_left within, cutAt?_byteLength, Option.map_some]
  rw [positionAt_cut cut whole] at clear ⊢
  refine ⟨_, here, fun opens => directiveLine_of_opens cut opens clear, ?_⟩
  rintro ⟨t, member, kind, sameLine, stop⟩
  exact opens_of_directiveLine cut member kind sameLine stop

theorem onDirectiveLine?_iff_after_string :
    let source := "s := \"a\r\n?\";\r\n\u3000?LIST"
    let tokens := (lex source ⟨true, false⟩).tokens
    positionAt source 18 = ⟨2, 2⟩ ∧ (∃ t ∈ tokens, t.kind.isString = true ∧ t.line = 0) ∧
      ∃ answer, onDirectiveLine? source 18 = some answer ∧
        (answer = true ↔
          ∃ t ∈ tokens, t.kind = .directiveLine ∧ t.line = 2 ∧ t.span.stop ≤ 18) := by
  intro source tokens
  have position : positionAt source 18 = ⟨2, 2⟩ := by decide +kernel
  have offset : byteLength (source.toList.take 16) = 18 := by decide +kernel
  refine ⟨position, by decide +kernel, ?_⟩
  have found := onDirectiveLine?_iff false (List.take_append_drop 16 source.toList).symm
    (fun pair => absurd pair.1 (by decide +kernel)) (by decide +kernel)
  rw [offset, position] at found
  exact found

end TalAnalysis.Editor
