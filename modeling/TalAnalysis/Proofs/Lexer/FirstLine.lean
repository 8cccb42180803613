import TalAnalysis.Proofs.Lexer.LineBreak

namespace TalAnalysis
open Text

variable {groupNames : Bool} {lookback : Lookback}

structure OneLine (line : List Char) : Prop where
  onLine : ∀ c ∈ line, isLineBreak c = false
  noQuote : '"' ∉ line

theorem OneLine.of_suffix {line rest : List Char} (h : OneLine line) (tail : rest <:+ line) :
    OneLine rest :=
  ⟨fun c member => h.onLine c (tail.subset member), fun quote => h.noQuote (tail.subset quote)⟩

theorem OneLine.noReturn {line : List Char} (h : OneLine line) : line.getLast? ≠ some '\r' := by
  intro last
  have breaks := h.onLine '\r' (List.mem_of_getLast? last)
  cases breaks

theorem OneLine.lineBreaks {line : List Char} (h : OneLine line) : lineBreaks line = 0 := by
  induction line with
  | nil => rfl
  | cons c line ih =>
      have onLine := h.onLine c List.mem_cons_self
      have stays : breaksLine c line = false := by
        simp only [isLineBreak, Bool.or_eq_false_iff] at onLine
        simp [breaksLine, onLine]
      rw [TalAnalysis.lineBreaks, stays, ih (h.of_suffix (List.suffix_cons c line))]
      rfl

namespace Piece

theorem read_of_hyphens (groupNames : Bool) (lookback : Lookback) (lineRead rest : List Char) :
    read groupNames lookback lineRead '-' ('-' :: rest) = lineComment ('-' :: '-' :: rest) := by
  rw [read, if_neg (by decide), if_pos ⟨rfl, rfl⟩]

theorem hyphens_of_read {lineRead : List Char} {c : Char} {rest : List Char}
    (h : (read groupNames lookback lineRead c rest).lexeme = .lineComment) :
    ∃ rest', c :: rest = '-' :: '-' :: rest' := by
  obtain ⟨after, whole, segment⟩ := read_segment groupNames lookback lineRead c rest
  generalize read groupNames lookback lineRead c rest = p at *
  obtain ⟨lexeme, text⟩ := p
  subst h
  cases segment
  exact ⟨_, whole⟩

theorem lineComment_oneLine {line : List Char} (h : OneLine line) :
    lineComment line = ⟨.lineComment, line⟩ := by
  have whole : line.takeWhile (fun c => !isLineBreak c) = line := by
    apply List.takeWhile_eq_self_iff.2
    intro c member
    rw [h.onLine c member, Bool.not_false]
  rw [lineComment, whole, List.drop_length, lineEnd, List.append_nil]

theorem lineComment_lineFeed {line : List Char} (h : OneLine line) (after : List Char) :
    lineComment (line ++ '\n' :: after) = ⟨.lineComment, line ++ ['\n']⟩ := by
  have whole : (line ++ '\n' :: after).takeWhile (fun c => !isLineBreak c) = line := by
    rw [takeWhile_append_stop rfl]
    apply List.takeWhile_eq_self_iff.2
    intro c member
    rw [h.onLine c member, Bool.not_false]
  rw [lineComment, whole, List.drop_left, lineEnd]
  · rfl
  · rintro _ ⟨⟩

theorem closed_of_oneLine {lineRead : List Char} {c : Char} {rest : List Char}
    (h : OneLine (c :: rest)) (contents : List Char) :
    (read groupNames lookback lineRead c rest).lexeme ≠ .string contents false := by
  obtain ⟨after, whole, segment⟩ := read_segment groupNames lookback lineRead c rest
  generalize read groupNames lookback lineRead c rest = p at *
  obtain ⟨lexeme, text⟩ := p
  rintro rfl
  cases segment
  apply h.noQuote
  rw [whole]
  exact List.mem_cons_self

end Piece

theorem piecesFrom_front {r : Reader} (h : OneLine r.rest) {before others : List PlacedPiece}
    (cut : piecesFrom groupNames lookback r = before ++ others)
    (other : ∀ p ∈ before, p.piece.lexeme ≠ .lineComment) (after : List Char) :
    ∃ lookback' n, n ≤ r.rest.length ∧ piecesFrom groupNames lookback' (r.skip n) = others ∧
      piecesFrom groupNames lookback (r.extend ('\n' :: after)) =
        before ++ piecesFrom groupNames lookback' ((r.skip n).extend ('\n' :: after)) := by
  -- Induction on the pieces before: none of them is a comment that would take in the line feed, so
  -- each is read alike whether or not the text goes on.
  induction before generalizing lookback r with
  | nil => exact ⟨lookback, 0, Nat.zero_le _, cut, rfl⟩
  | cons p before ih =>
      cases unread : r.rest with
      | nil => simp [piecesFrom_nil unread] at cut
      | cons c rest =>
          rw [piecesFrom_cons unread, List.cons_append] at cut
          obtain ⟨first, later⟩ := List.cons.inj cut
          obtain ⟨notComment, other⟩ := List.forall_mem_cons.1 other
          let piece := Piece.read groupNames lookback r.lineRead c rest
          have front : piece.text.length ≤ r.rest.length :=
            unread ▸ (Piece.read_text_front groupNames lookback r.lineRead c rest).length_le
          have left : (r.skip piece.text.length).rest <:+ r.rest := by
            rw [Reader.rest_skip]
            exact List.drop_suffix _ _
          obtain ⟨lookback', n, fits, rest', more⟩ := ih (h.of_suffix left) later other
          have same : Piece.read groupNames lookback (r.extend ('\n' :: after)).lineRead c
              (rest ++ '\n' :: after) = piece := by
            apply Piece.read_append_lineFeed (unread ▸ h.noReturn)
              (Piece.closed_of_oneLine (unread ▸ h))
            intro comment
            exact absurd (first ▸ comment) notComment
          have unread' : (r.extend ('\n' :: after)).rest = c :: (rest ++ '\n' :: after) :=
            congrArg (· ++ '\n' :: after) unread
          refine ⟨lookback', piece.text.length + n, ?_, ?_, ?_⟩
          · rw [Reader.rest_skip, List.length_drop] at fits
            rw [← unread]
            omega
          · rw [Reader.skip_add]
            exact rest'
          · rw [piecesFrom_cons unread', same, Reader.skip_extend front h.noReturn, more, ← first,
              Reader.skip_add]
            rfl

theorem Text.Reader.next_lineFeed {r : Reader} {after : List Char}
    (unread : r.rest = '\n' :: after) :
    r.next = (Reader.ofText after).shift (r.place.offset + 1) (r.place.line + 1) := by
  obtain ⟨_, place, lineRead⟩ := r
  subst unread
  simp [next, breaksLine, shift, ofText, Place.shift, Char.utf8Size]

theorem next_firstLine {line : List Char} (h : OneLine line) (after : List Char) :
    (((Reader.ofText line).skip line.length).extend ('\n' :: after)).next =
      (Reader.ofText after).shift (byteLength line + 1) 1 := by
  have unread : (((Reader.ofText line).skip line.length).extend ('\n' :: after)).rest =
      '\n' :: after := by
    simp [Reader.extend, Reader.ofText]
  have place : ((Reader.ofText line).skip line.length).place =
      ⟨byteLength line, 0, lastLineWidth line⟩ := by
    have unread : (Reader.ofText line).rest = line := rfl
    simpa [Reader.ofText, h.lineBreaks] using Reader.place_skip_all unread
  rw [Reader.next_lineFeed unread, Reader.extend, place, Nat.zero_add]

theorem piecesFrom_lineComment {r : Reader} (h : OneLine r.rest) {c : Char} {rest : List Char}
    (unread : r.rest = c :: rest)
    (comment : (Piece.read groupNames lookback r.lineRead c rest).lexeme = .lineComment)
    (after : List Char) :
    piecesFrom groupNames lookback r = [⟨⟨.lineComment, r.rest⟩, r.place⟩] ∧
      ∃ lookback', piecesFrom groupNames lookback (r.extend ('\n' :: after)) =
        ⟨⟨.lineComment, r.rest ++ ['\n']⟩, r.place⟩ ::
          piecesFrom groupNames lookback' ((r.skip r.rest.length).extend ('\n' :: after)).next := by
  obtain ⟨rest', hyphens⟩ := Piece.hyphens_of_read comment
  obtain ⟨rfl, rfl⟩ := List.cons.inj hyphens
  have unread' : (r.extend ('\n' :: after)).rest = '-' :: '-' :: (rest' ++ '\n' :: after) :=
    congrArg (· ++ '\n' :: after) unread
  have last : (r.skip r.rest.length).rest = [] := by simp
  have size : (r.rest ++ ['\n']).length = r.rest.length + 1 := by simp
  constructor
  · rw [piecesFrom_cons unread, Piece.read_of_hyphens, ← unread, Piece.lineComment_oneLine h,
      piecesFrom_nil last]
  · refine ⟨(⟨.lineComment, r.rest ++ ['\n']⟩ : Piece).lookback lookback, ?_⟩
    rw [piecesFrom_cons unread', Piece.read_of_hyphens]
    have read := Piece.lineComment_lineFeed h after
    rw [unread] at read
    rw [show '-' :: '-' :: (rest' ++ '\n' :: after) = '-' :: '-' :: rest' ++ '\n' :: after from rfl,
      read, ← unread, size, Reader.skip_add, Reader.skip_extend (Nat.le_refl _) h.noReturn]
    rfl

theorem pieces_firstLine {line : List Char} (h : OneLine line) (groupNames : Bool)
    (after : List Char) :
    ∃ before e lookback,
      pieces groupNames (String.ofList (line ++ '\n' :: after)) = before ++ e ::
        (piecesFrom groupNames lookback (Reader.ofText after)).map
          (PlacedPiece.shift (byteLength line + 1) 1) ∧
      (∀ p ∈ before, p.piece.lexeme ≠ .lineComment) ∧
      (pieces groupNames (String.ofList line) = before ∧ e.piece = ⟨.sign .lineEnd, ['\n']⟩ ∨
        ∃ c, pieces groupNames (String.ofList line) = before ++ [c] ∧
          c.piece.lexeme = .lineComment ∧ e.piece.lexeme = .lineComment) := by
  let start := Reader.ofText line
  have whole : pieces groupNames (String.ofList (line ++ '\n' :: after)) =
      piecesFrom groupNames .plain (start.extend ('\n' :: after)) := by
    rw [pieces, String.toList_ofList]
    rfl
  have alone : pieces groupNames (String.ofList line) = piecesFrom groupNames .plain start := by
    rw [pieces, String.toList_ofList]
  let isOther (p : PlacedPiece) : Bool := p.piece.lexeme != .lineComment
  let before := (piecesFrom groupNames .plain start).takeWhile isOther
  have other : ∀ p ∈ before, p.piece.lexeme ≠ .lineComment := by
    intro p member
    simpa [isOther] using List.mem_takeWhile_imp member
  have cut : piecesFrom groupNames .plain start =
      before ++ (piecesFrom groupNames .plain start).dropWhile isOther :=
    List.takeWhile_append_dropWhile.symm
  obtain ⟨lookback, n, fits, others, more⟩ := piecesFrom_front (r := start) h cut other after
  let here := start.skip n
  have left : here.rest <:+ line := by
    rw [Reader.rest_skip]
    exact List.drop_suffix _ _
  have all : here.skip here.rest.length = start.skip line.length := by
    rw [← Reader.skip_add, Reader.rest_skip, List.length_drop, Nat.add_sub_cancel' fits]
    rfl
  -- What is left of the line is nothing, and the line feed a piece, or it is a comment that takes
  -- in the line feed.
  cases unread : here.rest with
  | nil =>
      have stop : (here.extend ('\n' :: after)).rest = '\n' :: after := by
        simp [Reader.extend, unread]
      have atEnd : here = start.skip line.length := by
        rw [← all, unread]
        rfl
      have next := Reader.next_lineFeed stop
      rw [atEnd, next_firstLine h] at next
      refine ⟨before, ⟨⟨.sign .lineEnd, ['\n']⟩, here.place⟩, .plain, ?_, other, .inl ⟨?_, rfl⟩⟩
      · rw [whole, more, piecesFrom_lineFeed groupNames lookback _ after stop, atEnd, ← next,
          piecesFrom_shift]
        rfl
      · rw [alone, cut, ← others, piecesFrom_nil unread, List.append_nil]
  | cons c rest =>
      have comment : (Piece.read groupNames lookback here.lineRead c rest).lexeme =
          .lineComment := by
        rw [piecesFrom_cons unread] at others
        simpa [isOther] using not_of_dropWhile others.symm
      obtain ⟨single, lookback', later⟩ :=
        piecesFrom_lineComment (h.of_suffix left) unread comment after
      refine ⟨before, ⟨⟨.lineComment, here.rest ++ ['\n']⟩, here.place⟩, lookback', ?_, other,
        .inr ⟨⟨⟨.lineComment, here.rest⟩, here.place⟩, ?_, rfl, rfl⟩⟩
      · rw [whole, more, later, all, next_firstLine h, piecesFrom_shift]
      · rw [alone, cut, ← others, single]

theorem Segment.exists_mem_of_sign {sign : Sign} {text after : List Char}
    (h : Segment groupNames (.sign sign) text after) (inClass : Char → Bool)
    (noDot : sign ≠ .indirection .standard)
    (noLetter : ∀ c, inClass c = true → c.isLower = false ∧ c.toLower = c)
    (listed : ∀ x ∈ Sign.spellings, x.2 = sign → x.1.toList.any inClass = true) :
    ∃ c ∈ text, inClass c = true := by
  cases h with
  | sign some spelled =>
      obtain ⟨x, member, same, stands⟩ := spelled
      have own := listed x member (stands.resolve_right fun dot => noDot dot.2)
      obtain ⟨c, found, isIn⟩ := List.any_eq_true.1 own
      obtain ⟨small, lower⟩ := noLetter c isIn
      rw [sameSpelling_comm] at same
      exact ⟨c, mem_of_sameSpelling same small lower found, isIn⟩

theorem Segmented.segment_of_mem {pieces : List Piece} {text : List Char}
    (h : Segmented groupNames pieces text) {p : Piece} (member : p ∈ pieces) :
    p.text ⊆ text ∧ ∃ after, Segment groupNames p.lexeme p.text after := by
  induction h with
  | nil => cases member
  | cons segment others ih =>
      rcases List.mem_cons.1 member with rfl | later
      · exact ⟨List.subset_append_left _ _, _, segment⟩
      · obtain ⟨within, after, segment'⟩ := ih later
        exact ⟨List.Subset.trans within (List.subset_append_right _ _), after, segment'⟩

theorem OneLine.token {line : List Char} (h : OneLine line) {keepComments : Bool}
    {p : PlacedPiece} (member : p ∈ pieces groupNames (String.ofList line))
    (other : p.piece.lexeme ≠ .lineComment) {t : Token} (shown : p.token? keepComments = some t) :
    t.kind.endsLine = false ∧ (t.isDelimiter .lParen = true → '(' ∈ line) := by
  have segmented := @piecesFrom_segmented groupNames .plain (Reader.ofText line)
  rw [pieces, String.toList_ofList] at member
  obtain ⟨within, after, segment⟩ := segmented.segment_of_mem (List.mem_map_of_mem member)
  have shows {kind : TokenKind} (found : t.kind = kind) (noMark : kind.marksDirective = false) :
      p.piece.lexeme.Shows kind :=
    Piece.shows_of_kind? (found ▸ kind?_of_token? shown (found ▸ noMark))
  constructor
  · cases kind : t.kind with
    | newLine =>
        obtain ⟨sign, lexeme, stands⟩ := shows kind rfl rfl
        have lineEnd : sign = .lineEnd := by cases sign <;> first | rfl | cases stands
        rw [lexeme, lineEnd] at segment
        obtain ⟨c, written, breaks⟩ := segment.exists_mem_of_sign isLineBreak (by decide)
          (by simp [isLineBreak]) (by decide +kernel)
        rw [h.onLine c (within written)] at breaks
        cases breaks
    | lineComment => exact absurd (shows kind rfl) other
    | _ => rfl
  · intro opens
    have kind : t.kind = .delimiter .lParen := by simpa [Token.isDelimiter] using opens
    obtain ⟨sign, lexeme, stands⟩ := shows kind rfl rfl
    have paren : sign = .delimiter .lParen := by cases sign <;> cases stands; rfl
    rw [lexeme, paren] at segment
    obtain ⟨c, written, same⟩ := segment.exists_mem_of_sign (· == '(') (by decide) (by simp)
      (by decide +kernel)
    exact beq_iff_eq.1 same ▸ within written

/-- The tokens of a text, of which the first ones depend on what was read before. -/
def lexAfter (lookback : Lookback) (text : List Char) (options : LexOptions) : List Token :=
  (piecesFrom options.groupNames lookback (Reader.ofText text)).filterMap
    (PlacedPiece.token? options.keepComments)

theorem lex_firstLine {line : List Char} (h : OneLine line) (options : LexOptions)
    (comments : options.keepComments = false →
      ∀ p ∈ pieces options.groupNames (String.ofList line), p.piece.lexeme ≠ .lineComment)
    (after : List Char) :
    ∃ front e lookback,
      (lex (String.ofList (line ++ '\n' :: after)) options).tokens = front ++ e ::
        (lexAfter lookback after options).map (Token.shift (byteLength line + 1) 1) ∧
      e.kind.endsLine = true ∧
      (∀ t ∈ front, t.kind.endsLine = false ∧ (t.isDelimiter .lParen = true → '(' ∈ line)) ∧
      ((lex (String.ofList line) options).tokens = front ∨
        ∃ c, (lex (String.ofList line) options).tokens = front ++ [c] ∧
          c.kind.endsLine = true) := by
  obtain ⟨before, e, lookback, whole, other, alone⟩ :=
    pieces_firstLine h options.groupNames after
  have later (places : List PlacedPiece) :
      (places.map (PlacedPiece.shift (byteLength line + 1) 1)).filterMap
          (PlacedPiece.token? options.keepComments) =
        (places.filterMap (PlacedPiece.token? options.keepComments)).map
          (Token.shift (byteLength line + 1) 1) := by
    simp only [List.filterMap_map, Function.comp_def, token?_shift, List.map_filterMap]
  have front : ∀ t ∈ before.filterMap (PlacedPiece.token? options.keepComments),
      t.kind.endsLine = false ∧ (t.isDelimiter .lParen = true → '(' ∈ line) := by
    intro t member
    obtain ⟨p, listed, shown⟩ := List.mem_filterMap.1 member
    have within : p ∈ pieces options.groupNames (String.ofList line) := by
      rcases alone with ⟨same, -⟩ | ⟨c, same, -⟩
      · exact same ▸ listed
      · exact same ▸ List.mem_append_left _ listed
    exact h.token within (other p listed) shown
  rcases alone with ⟨same, lineFeed⟩ | ⟨c, same, comment, comment'⟩
  · have lineEnd : e.piece.kind? = some .newLine := by rw [lineFeed]; rfl
    obtain ⟨t, shown, kind⟩ := exists_token? lineEnd (Bool.or_true options.keepComments) rfl
    refine ⟨_, t, lookback, ?_, by rw [kind]; rfl, front, .inl ?_⟩
    · rw [lex, whole, List.filterMap_append, List.filterMap_cons_some shown, later]
      rfl
    · rw [lex, same]
  · have kept : options.keepComments = true := by
      by_contra dropped
      have member : c ∈ pieces options.groupNames (String.ofList line) :=
        same ▸ List.mem_append_right _ List.mem_cons_self
      exact comments (Bool.eq_false_iff.2 dropped) c member comment
    have shows (p : PlacedPiece) (comment : p.piece.lexeme = .lineComment) :
        ∃ t, p.token? options.keepComments = some t ∧ t.kind = .lineComment :=
      exists_token? (by rw [Piece.kind?, comment]) (by rw [kept]; rfl) rfl
    obtain ⟨t, shown, kind⟩ := shows e comment'
    obtain ⟨t', shown', kind'⟩ := shows c comment
    refine ⟨_, t, lookback, ?_, by rw [kind]; rfl, front, .inr ⟨t', ?_, by rw [kind']; rfl⟩⟩
    · rw [lex, whole, List.filterMap_append, List.filterMap_cons_some shown, later]
      rfl
    · rw [lex, same, List.filterMap_append, List.filterMap_cons_some shown']
      rfl

end TalAnalysis
