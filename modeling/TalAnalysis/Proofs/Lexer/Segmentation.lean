import TalAnalysis.Proofs.Lexer.Segment

/-!
# A source text is the sequence of its segments

* `piecesFrom_segmented`: one run of the scanner cuts what is left of the text into segments,
  without a gap and without an overlap.
* `lex_lossless`: the tokens and the diagnostics are read off these segments, in order, and
  nothing else is reported.
-/

namespace TalAnalysis
open Text

/-- The text is the sequence of the pieces, each of which is a segment of it. -/
inductive Segmented (groupNames : Bool) : List Piece → List Char → Prop
  | nil : Segmented groupNames [] []
  | cons {p pieces after} (segment : Segment groupNames p.lexeme p.text after)
      (others : Segmented groupNames pieces after) :
      Segmented groupNames (p :: pieces) (p.text ++ after)

def located (start : Nat) : List Piece → List (Piece × Span)
  | [] => []
  | p :: pieces =>
      (p, ⟨start, start + byteLength p.text⟩) :: located (start + byteLength p.text) pieces

def Lexeme.isComment : Lexeme → Bool
  | .lineComment | .comment _ => true
  | _ => false

def Lexeme.kept (keepComments : Bool) : Lexeme → Bool
  | .blanks | .unknown _ => false
  | .lineComment | .comment _ => keepComments
  | _ => true

def Piece.recovery? (p : Piece) : Option Cause :=
  match p.lexeme with
  | .unknown c => some (.unknownCharacter c)
  | .comment false => some .unterminatedComment
  | .number value =>
      if Nat.pow 2 63 ≤ value then some (.integerOutOfRange (String.ofList p.text)) else none
  | .string _ false => some .unterminatedString
  | _ => none

variable {groupNames : Bool}

theorem Segmented.flatMap_text {pieces : List Piece} {text : List Char}
    (h : Segmented groupNames pieces text) : pieces.flatMap Piece.text = text := by
  induction h with
  | nil => rfl
  | cons segment others ih => rw [List.flatMap_cons, ih]

theorem Segment.text_ne_nil {lexeme : Lexeme} {text after : List Char}
    (h : Segment groupNames lexeme text after) : text ≠ [] := by
  cases h with
  | blanks some => exact some
  | sign some => exact some
  | number marked some => simp [some]
  | _ => simp

theorem Segmented.ne_nil {pieces : List Piece} {text : List Char}
    (h : Segmented groupNames pieces text) : ∀ p ∈ pieces, p.text ≠ [] := by
  induction h with
  | nil => simp
  | cons segment others ih => exact List.forall_mem_cons.2 ⟨segment.text_ne_nil, ih⟩

theorem Segmented.eq_nil {pieces : List Piece} (h : Segmented groupNames pieces []) :
    pieces = [] := by
  cases pieces with
  | nil => rfl
  | cons p pieces =>
      have empty := List.append_eq_nil_iff.1 h.flatMap_text
      exact absurd empty.1 (h.ne_nil p List.mem_cons_self)

theorem Segment.after_of_openString {contents text after : List Char}
    (h : Segment groupNames (.string contents false) text after) : after = [] := by
  cases h
  rfl

theorem Segmented.last_of_openString {pieces before after : List Piece} {p : Piece}
    {text contents : List Char} (h : Segmented groupNames pieces text)
    (cut : pieces = before ++ p :: after) (open_ : p.lexeme = .string contents false) :
    after = [] := by
  induction h generalizing before with
  | nil => simp at cut
  | @cons q pieces rest segment others ih =>
      cases before with
      | nil =>
          obtain ⟨rfl, rfl⟩ := List.cons.inj cut
          rw [open_] at segment
          obtain rfl := segment.after_of_openString
          exact others.eq_nil
      | cons first before => exact ih (List.cons.inj cut).2

theorem rest_skip_read (groupNames : Bool) (lookback : Lookback) {reader : Reader} {c : Char}
    {rest : List Char} (unread : reader.rest = c :: rest) :
    let piece := Piece.read groupNames lookback reader.lineRead c rest
    reader.rest = piece.text ++ (reader.skip piece.text.length).rest := by
  intro piece
  obtain ⟨after, whole⟩ := Piece.read_text_front groupNames lookback reader.lineRead c rest
  rw [Reader.rest_skip, unread, ← whole, List.drop_left]

theorem piecesFrom_segmented (lookback : Lookback) (reader : Reader) :
    Segmented groupNames ((piecesFrom groupNames lookback reader).map PlacedPiece.piece)
      reader.rest := by
  fun_induction piecesFrom groupNames lookback reader with
  | case1 lookback reader unread => exact unread ▸ .nil
  | case2 lookback reader c rest unread piece ih =>
      obtain ⟨after, whole, segment⟩ :=
        Piece.read_segment groupNames lookback reader.lineRead c rest
      have left : (reader.skip piece.text.length).rest = after := by
        rw [Reader.rest_skip, unread, whole, List.drop_left]
      rw [left] at ih
      rw [unread, whole]
      exact .cons segment ih

theorem located_piecesFrom (lookback : Lookback) (reader : Reader) :
    located reader.place.offset ((piecesFrom groupNames lookback reader).map PlacedPiece.piece) =
      (piecesFrom groupNames lookback reader).map fun p => (p.piece, p.span) := by
  fun_induction piecesFrom groupNames lookback reader with
  | case1 => rfl
  | case2 lookback reader c rest unread piece ih =>
      have whole := rest_skip_read groupNames lookback unread
      have size : (reader.skip piece.text.length).place.offset =
          reader.place.offset + byteLength piece.text := by
        rw [Reader.offset_skip, whole, List.take_left]
      rw [size] at ih
      simp only [List.map_cons, located, PlacedPiece.span, ih]

theorem slice?_middle (before middle after : List Char) :
    slice? (before ++ (middle ++ after)) (byteLength before)
      (byteLength before + byteLength middle) = some middle := by
  have ordered : (guard (byteLength before ≤ byteLength before + byteLength middle) :
      Option Unit) = some () := if_pos (Nat.le_add_right _ _)
  unfold slice?
  rw [ordered]
  simp [cutAt?_byteLength]

theorem slice?_located (before : List Char) {pieces : List Piece} {p : Piece} {span : Span}
    (h : (p, span) ∈ located (byteLength before) pieces) :
    slice? (before ++ pieces.flatMap Piece.text) span.start span.stop = some p.text := by
  induction pieces generalizing before with
  | nil => simp [located] at h
  | cons q pieces ih =>
      rw [located, ← byteLength_append] at h
      rw [List.flatMap_cons]
      rcases List.mem_cons.1 h with here | later
      · obtain ⟨rfl, rfl⟩ := Prod.mk.inj here
        rw [byteLength_append]
        exact slice?_middle before p.text _
      · rw [← List.append_assoc]
        exact ih _ later

theorem isComment_ofWord (word : String) : (TokenKind.ofWord word).isComment = false := by
  unfold TokenKind.ofWord
  split
  · rfl
  · split
    · rfl
    · split <;> rfl

theorem token?_of_kind?_none {keepComments : Bool} {p : PlacedPiece} (h : p.piece.kind? = none) :
    p.token? keepComments = none := by
  unfold PlacedPiece.token?
  rw [h, Option.bind_eq_bind, Option.bind_none]

theorem token?_of_kind?_some {keepComments : Bool} {p : PlacedPiece} {kind : TokenKind}
    (h : p.piece.kind? = some kind) :
    p.token? keepComments = if keepComments || !kind.isComment then
      some (.write (if kind = .directiveLine ∧ keepComments = false then .directive else kind)
        (String.ofList p.piece.text) p.span p.place.line p.place.column) else none := by
  unfold PlacedPiece.token?
  rw [h, Option.bind_eq_bind, Option.bind_some]
  cases keepComments || !kind.isComment <;> rfl

theorem kind?_of_token? {keepComments : Bool} {p : PlacedPiece} {t : Token}
    (h : p.token? keepComments = some t) (other : t.kind.marksDirective = false) :
    p.piece.kind? = some t.kind := by
  cases found : p.piece.kind? with
  | none => simp [token?_of_kind?_none found] at h
  | some kind =>
      rw [token?_of_kind?_some found, Option.ite_none_right_eq_some] at h
      obtain rfl := Option.some.inj h.2
      simp only [Token.write] at other ⊢
      split at other
      · cases other
      · rename_i kept
        rw [if_neg kept]

theorem exists_token? {keepComments : Bool} {p : PlacedPiece} {kind : TokenKind}
    (h : p.piece.kind? = some kind) (kept : (keepComments || !kind.isComment) = true)
    (noMark : kind.marksDirective = false) :
    ∃ t, p.token? keepComments = some t ∧ t.kind = kind := by
  refine ⟨_, (token?_of_kind?_some h).trans (if_pos kept), ?_⟩
  rw [Token.write, if_neg]
  rintro ⟨rfl, -⟩
  cases noMark

theorem isComment_of_kind? {p : Piece} {kind : TokenKind} (h : p.kind? = some kind) :
    kind.isComment = p.lexeme.isComment ∧
      ∀ keepComments, p.lexeme.kept keepComments = (keepComments || !kind.isComment) := by
  obtain ⟨lexeme, text⟩ := p
  cases lexeme with
  | blanks => cases h
  | unknown => cases h
  | word =>
      cases h
      refine ⟨isComment_ofWord _, fun keepComments => ?_⟩
      rw [isComment_ofWord, Bool.not_false, Bool.or_true]
      rfl
  | directive opensLine =>
      cases h
      cases opensLine <;> exact ⟨rfl, fun keepComments => (Bool.or_true keepComments).symm⟩
  | sign sign =>
      cases h
      cases sign <;> exact ⟨rfl, fun keepComments => (Bool.or_true keepComments).symm⟩
  | lineComment | comment =>
      cases h
      exact ⟨rfl, fun keepComments => (Bool.or_false keepComments).symm⟩
  | number | string =>
      cases h
      exact ⟨rfl, fun keepComments => (Bool.or_true keepComments).symm⟩

theorem TokenKind.isWord_ofWord (word : String) : (ofWord word).isWord = true := by
  unfold ofWord
  split
  · rfl
  · split
    · rename_i o found
      exact (Operator.ofWord?_eq_some_iff.1 found).1
    · split <;> rfl

def TokenKind.isSign : TokenKind → Bool
  | .operator o => !o.isWord
  | .delimiter _ | .indirection _ | .newLine => true
  | _ => false

def Lexeme.Shows (lexeme : Lexeme) (kind : TokenKind) : Prop :=
  match kind with
  | .number n => ∃ value, lexeme = .number value ∧ n = (min value maxInteger : Nat)
  | .string text => ∃ contents closed, lexeme = .string contents closed ∧
      text = String.ofList contents
  | .lineComment => lexeme = .lineComment
  | kind => kind.isSign = true → ∃ sign, lexeme = .sign sign ∧ Piece.ofSign sign = kind

theorem Piece.shows_of_kind? {p : Piece} {kind : TokenKind} (h : p.kind? = some kind) :
    p.lexeme.Shows kind := by
  obtain ⟨lexeme, text⟩ := p
  cases lexeme with
  | blanks | unknown => cases h
  | lineComment =>
      cases h
      rfl
  | comment =>
      cases h
      exact fun isSign => absurd isSign Bool.false_ne_true
  | directive opensLine =>
      cases h
      cases opensLine <;> exact fun isSign => absurd isSign Bool.false_ne_true
  | number value =>
      cases h
      exact ⟨value, rfl, rfl⟩
  | string contents closed =>
      cases h
      exact ⟨contents, closed, rfl, rfl⟩
  | sign sign =>
      cases h
      cases sign <;> exact fun _ => ⟨_, rfl, rfl⟩
  | word =>
      -- The operators among the words are no signs.
      have word := TokenKind.isWord_ofWord (String.ofList text)
      rw [Option.some.inj h] at word
      cases kind with
      | operator o =>
          have isWord : o.isWord = true := word
          intro isSign
          simp [TokenKind.isSign, isWord] at isSign
      | keyword | dataType | name => exact fun isSign => absurd isSign Bool.false_ne_true
      | _ => cases word

theorem Lexeme.Shows.sign {lexeme : Lexeme} {kind : TokenKind} (h : lexeme.Shows kind)
    (isSign : kind.isSign = true) : ∃ sign, lexeme = .sign sign ∧ Piece.ofSign sign = kind := by
  cases kind with
  | operator | delimiter | indirection | newLine => exact h isSign
  | _ => cases isSign

theorem token?_eq (keepComments : Bool) (p : PlacedPiece) :
    (p.token? keepComments).map (fun t => (t.text, t.span, t.kind.isComment)) =
      if p.piece.lexeme.kept keepComments then
        some (String.ofList p.piece.text, p.span, p.piece.lexeme.isComment)
      else none := by
  cases found : p.piece.kind? with
  | none =>
      rw [token?_of_kind?_none found]
      obtain ⟨⟨lexeme, text⟩, place⟩ := p
      cases lexeme with
      | blanks => rfl
      | unknown => rfl
      | _ => cases found
  | some kind =>
      obtain ⟨comment, kept⟩ := isComment_of_kind? found
      have shown : (if kind = .directiveLine ∧ keepComments = false then .directive
          else kind : TokenKind).isComment = kind.isComment := by
        split
        · rename_i line
          rw [line.1]
          rfl
        · rfl
      rw [token?_of_kind?_some found, kept]
      cases keepComments || !kind.isComment with
      | false => rfl
      | true => simp [Token.write, shown, comment]

theorem cause?_eq (p : PlacedPiece) : p.cause? = p.piece.recovery? := by
  obtain ⟨⟨lexeme, text⟩, place⟩ := p
  cases lexeme with
  | number value => exact if_congr (Nat.lt_iff_add_one_le) rfl rfl
  | comment closed => cases closed <;> rfl
  | string contents closed => cases closed <;> rfl
  | _ => rfl

theorem lex_lossless (source : String) (options : LexOptions) :
    ∃ segments : List Piece,
      segments.flatMap Piece.text = source.toList ∧
      (∀ p ∈ segments, p.text ≠ []) ∧
      Segmented options.groupNames segments source.toList ∧
      (lex source options).tokens.map (fun t => (t.text, t.span, t.kind.isComment)) =
        ((located 0 segments).filter fun x => x.1.lexeme.kept options.keepComments).map
          (fun x => (String.ofList x.1.text, x.2, x.1.lexeme.isComment)) ∧
      (∀ t ∈ (lex source options).tokens,
        slice? source.toList t.span.start t.span.stop = some t.text.toList) ∧
      (lex source options).diagnostics =
        (located 0 segments).filterMap
          (fun x => x.1.recovery?.map fun cause => .ofCause cause x.2) ∧
      (∀ before p after contents, segments = before ++ p :: after →
        p.lexeme = .string contents false → after = []) := by
  let found := pieces options.groupNames source
  have segmented : Segmented options.groupNames (found.map PlacedPiece.piece) source.toList :=
    piecesFrom_segmented .plain (Reader.ofText source.toList)
  have places : located 0 (found.map PlacedPiece.piece) = found.map fun p => (p.piece, p.span) :=
    located_piecesFrom .plain (Reader.ofText source.toList)
  have tokens : (lex source options).tokens.map (fun t => (t.text, t.span, t.kind.isComment)) =
      ((located 0 (found.map PlacedPiece.piece)).filter
        fun x => x.1.lexeme.kept options.keepComments).map
          (fun x => (String.ofList x.1.text, x.2, x.1.lexeme.isComment)) := by
    rw [lex, List.map_filterMap, places, ← List.filterMap_eq_map', List.filterMap_filter,
      List.filterMap_map]
    exact congrArg (List.filterMap · found) (funext fun p => token?_eq options.keepComments p)
  refine ⟨found.map PlacedPiece.piece, segmented.flatMap_text, segmented.ne_nil, segmented, tokens,
    ?_, ?_, fun before p after contents cut => segmented.last_of_openString cut⟩
  · intro t member
    have shown : (t.text, t.span, t.kind.isComment) ∈ (lex source options).tokens.map
        fun t => (t.text, t.span, t.kind.isComment) := List.mem_map.2 ⟨t, member, rfl⟩
    rw [tokens] at shown
    obtain ⟨⟨p, span⟩, here, same⟩ := List.mem_map.1 shown
    obtain ⟨text, rest⟩ := Prod.mk.inj same
    obtain ⟨rfl, -⟩ := Prod.mk.inj rest
    have slice := slice?_located [] (List.mem_filter.1 here).1
    rw [segmented.flatMap_text] at slice
    rw [← text, String.toList_ofList]
    exact slice
  · rw [places, List.filterMap_map]
    refine congrArg (List.filterMap · found) (funext fun p => ?_)
    rw [PlacedPiece.diagnostic?, cause?_eq]
    rfl

end TalAnalysis
