import Mathlib.Data.List.Nodup
import TalAnalysis.Proofs.Lexer.Name
import TalAnalysis.Proofs.Lexer.Place

namespace TalAnalysis
open Text

variable {source : String} {options : LexOptions} {groupNames : Bool}

/-- The piece was read off `c :: rest`, which comes after `front` in the source, when the tokens
`seen` had been read. -/
structure PlacedPiece.ReadAfter (groupNames : Bool) (source front : List Char) (seen : List Token)
    (c : Char) (rest : List Char) (p : PlacedPiece) : Prop where
  cut : source = front ++ c :: rest
  start : p.place.offset = byteLength front
  read : ∃ lineRead, p.piece = .read groupNames (.ofTokens seen) lineRead c rest

theorem pieces_readAfter (keepComments : Bool) {before after : List PlacedPiece} {p : PlacedPiece}
    (cut : pieces groupNames source = before ++ p :: after) :
    ∃ front c rest, p.ReadAfter groupNames source.toList front
      (before.filterMap (PlacedPiece.token? keepComments)) c rest := by
  obtain ⟨c, rest, unread, rfl⟩ := @piecesFrom_lookback groupNames keepComments [] _ _ _ _ cut
  have start : (Reader.ofText source.toList).In source.toList := ⟨[], rfl, rfl⟩
  obtain ⟨front, whole, offset⟩ :=
    start.skip (before.flatMap fun q => q.piece.text).length
  rw [unread] at whole
  exact ⟨front, c, rest, whole, offset, _, rfl⟩

theorem exists_readAfter {p : PlacedPiece} (member : p ∈ pieces groupNames source) :
    ∃ front seen c rest, p.ReadAfter groupNames source.toList front seen c rest := by
  obtain ⟨before, after, cut⟩ := List.append_of_mem member
  obtain ⟨front, c, rest, read⟩ := pieces_readAfter false cut
  exact ⟨front, _, c, rest, read⟩

theorem exists_piece_of_token {seen later : List Token} {t : Token}
    (cut : (lex source options).tokens = seen ++ t :: later) :
    ∃ before p after, pieces options.groupNames source = before ++ p :: after ∧
      before.filterMap (PlacedPiece.token? options.keepComments) = seen ∧
      p.token? options.keepComments = some t := by
  obtain ⟨front, back, whole, rfl, found⟩ := List.filterMap_eq_append_iff.1 cut
  obtain ⟨hidden, p, after, rfl, none, shown, -⟩ := List.filterMap_eq_cons_iff.1 found
  refine ⟨front ++ hidden, p, after, by rw [whole, List.append_assoc], ?_, shown⟩
  rw [List.filterMap_append, List.filterMap_eq_nil_iff.2 none, List.append_nil]

namespace PlacedPiece.ReadAfter

variable {source front before after rest : List Char} {seen : List Token} {c : Char}
  {p : PlacedPiece}

theorem rest_eq (h : p.ReadAfter groupNames source front seen c rest)
    (cut : source = before ++ after) (place : byteLength before = p.place.offset) :
    before = front ∧ after = c :: rest := by
  have found := cutAt?_byteLength front (c :: rest)
  rw [← h.start, ← place, ← h.cut, cut, cutAt?_byteLength] at found
  exact Prod.mk.inj (Option.some.inj found)

theorem segment (h : p.ReadAfter groupNames source front seen c rest) :
    ∃ after, c :: rest = p.piece.text ++ after ∧
      Segment groupNames p.piece.lexeme p.piece.text after := by
  obtain ⟨lineRead, read⟩ := h.read
  rw [read]
  exact Piece.read_segment groupNames _ lineRead c rest

end PlacedPiece.ReadAfter

theorem apart_piecesFrom (lookback : Lookback) (r : Reader) :
    (piecesFrom groupNames lookback r).Pairwise fun p q => p.span.stop ≤ q.span.start := by
  fun_induction piecesFrom groupNames lookback r with
  | case1 => exact .nil
  | case2 lookback r c rest unread piece ih =>
      refine .cons (fun q later => ?_) ih
      have past := offset_le_piecesFrom _ _ q later
      have front := Piece.read_text_front groupNames lookback r.lineRead c rest
      rwa [Reader.offset_skip_front (unread ▸ front)] at past

theorem start_lt_stop_piecesFrom {lookback : Lookback} {r : Reader} {p : PlacedPiece}
    (member : p ∈ piecesFrom groupNames lookback r) : p.span.start < p.span.stop := by
  have some := (piecesFrom_segmented lookback r).ne_nil _ (List.mem_map_of_mem member)
  exact Nat.lt_add_of_pos_right (byteLength_pos some)

theorem pairwise_piecesFrom (lookback : Lookback) (r : Reader) :
    (piecesFrom groupNames lookback r).Pairwise fun p q => p.place.offset < q.place.offset :=
  (apart_piecesFrom lookback r).imp_of_mem fun member _ apart =>
    Nat.lt_of_lt_of_le (start_lt_stop_piecesFrom member) apart

theorem apart_tokens (source : String) (options : LexOptions) :
    (lex source options).tokens.Pairwise fun t u => t.span.stop ≤ u.span.start := by
  refine List.pairwise_filterMap.2 ((apart_piecesFrom .plain _).imp ?_)
  intro p q apart t shown u shown'
  rwa [span_of_token? shown, span_of_token? shown']

theorem start_lt_stop_token {t : Token} (member : t ∈ (lex source options).tokens) :
    t.span.start < t.span.stop := by
  obtain ⟨p, placed, shown⟩ := List.mem_filterMap.1 member
  exact span_of_token? shown ▸ start_lt_stop_piecesFrom placed

theorem eq_of_place {p q : PlacedPiece} (member : p ∈ pieces groupNames source)
    (member' : q ∈ pieces groupNames source) (same : p.place.offset = q.place.offset) : p = q := by
  have distinct : ((pieces groupNames source).map fun p => p.place.offset).Nodup :=
    List.pairwise_map.2 ((pairwise_piecesFrom .plain _).imp Nat.ne_of_lt)
  exact List.inj_on_of_nodup_map distinct member member' same

theorem mem_diagnostics_iff {d : Diagnostic} {cause : Cause} :
    d ∈ (lex source options).diagnostics ∧ d.cause = cause ↔
      ∃ p ∈ pieces options.groupNames source,
        p.cause? = some cause ∧ d = .ofCause cause p.span := by
  constructor
  · rintro ⟨member, rfl⟩
    obtain ⟨p, placed, here⟩ := List.mem_filterMap.1 member
    obtain ⟨cause, found, rfl⟩ := Option.map_eq_some_iff.1 here
    exact ⟨p, placed, found, rfl⟩
  · rintro ⟨p, placed, found, rfl⟩
    exact ⟨List.mem_filterMap.2 ⟨p, placed, congrArg (Option.map _) found⟩, rfl⟩

theorem TokenKind.eq_of_ofWord_name {word n : String} (h : ofWord word = .name n) : word = n := by
  unfold ofWord at h
  split at h
  · cases h
  · split at h
    · cases h
    · split at h
      · cases h
      · exact TokenKind.name.inj h

theorem Piece.text_of_name {p : Piece} {n : String} (h : p.kind? = some (.name n)) :
    String.ofList p.text = n := by
  obtain ⟨lexeme, text⟩ := p
  cases lexeme with
  | word => exact TokenKind.eq_of_ofWord_name (Option.some.inj h)
  | directive opensLine => cases opensLine <;> cases h
  | sign sign => cases sign <;> cases h
  | _ => cases h

theorem text_of_name {t : Token} (member : t ∈ (lex source options).tokens) {n : String}
    (named : t.kind = .name n) : t.text = n := by
  obtain ⟨p, -, shown⟩ := List.mem_filterMap.1 member
  have kind := kind?_of_token? shown (by rw [named]; rfl)
  rw [text_of_token? shown, Piece.text_of_name (kind.trans (congrArg some named))]

theorem TokenKind.not_marksDirective_of_isWord {kind : TokenKind} (isWord : kind.isWord = true) :
    kind.marksDirective = false := by
  cases kind with
  | directive | directiveLine => cases isWord
  | _ => rfl

theorem Segment.lexeme_of_isWord {p : Piece} {after : List Char} {kind : TokenKind}
    (h : Segment groupNames p.lexeme p.text after) (found : p.kind? = some kind)
    (isWord : kind.isWord = true) : p.lexeme = .word := by
  have noWord : ∀ listed ∈ Sign.spellings, (Piece.ofSign listed.2).isWord = false := by
    decide +kernel
  obtain ⟨lexeme, text⟩ := p
  cases h with
  | word => rfl
  | sign some spelled =>
      obtain ⟨entry, listed, -, rfl | ⟨-, rfl⟩⟩ := spelled
      · rw [← Option.some.inj found, noWord entry listed] at isWord
        cases isWord
      · cases found
        cases isWord
  | directive opensLine =>
      cases opensLine <;> (cases found; cases isWord)
  | _ => cases found <;> cases isWord

theorem not_mem_text_of_isWord {t : Token} (member : t ∈ (lex source options).tokens)
    (isWord : t.kind.isWord = true) {c : Char}
    (noName : startsName c = false ∧ continuesName c = false) (noSpace : c ≠ ' ') :
    c ∉ t.text.toList := by
  obtain ⟨p, placed, shown⟩ := List.mem_filterMap.1 member
  obtain ⟨_, _, _, _, read⟩ := exists_readAfter placed
  obtain ⟨after, -, segment⟩ := read.segment
  have noMark := TokenKind.not_marksDirective_of_isWord isWord
  have word := segment.lexeme_of_isWord (kind?_of_token? shown noMark) isWord
  rw [text_of_token? shown, String.toList_ofList]
  intro inside
  have inWord := segment.name_of_mem word inside
  simp [noName, noSpace] at inWord

theorem Piece.isPlain_of_kind? {p : Piece} {kind : TokenKind} (h : p.kind? = some kind)
    (onLine : kind.endsLine = false) (noString : ∀ contents, kind ≠ .string contents)
    (noComment : kind ≠ .comment) : p.lexeme.isPlain = true := by
  obtain ⟨lexeme, text⟩ := p
  cases lexeme with
  | blanks | unknown => cases h
  | number | word | directive => rfl
  | lineComment =>
      cases h
      cases onLine
  | comment =>
      cases h
      exact absurd rfl noComment
  | string =>
      cases h
      exact absurd rfl (noString _)
  | sign sign =>
      cases h
      cases sign with
      | lineEnd => cases onLine
      | _ => rfl

theorem not_mem_text_of_separates {t : Token} (member : t ∈ (lex source options).tokens)
    (onLine : t.kind.endsLine = false) (noString : ∀ contents, t.kind ≠ .string contents)
    (noComment : t.kind ≠ .comment) {s : Char} (separates : s ∈ separators) :
    s ∉ t.text.toList := by
  obtain ⟨p, placed, shown⟩ := List.mem_filterMap.1 member
  obtain ⟨_, _, _, _, read⟩ := exists_readAfter placed
  obtain ⟨after, -, segment⟩ := read.segment
  have plain : p.piece.lexeme.isPlain = true := by
    cases found : p.piece.kind? with
    | none => simp [token?_of_kind?_none found] at shown
    | some kind =>
        rw [token?_of_kind?_some found, Option.ite_none_right_eq_some] at shown
        rw [← Option.some.inj shown.2, Token.write] at onLine noString noComment
        by_cases marks : kind = .directiveLine
        · rw [marks] at found
          exact Piece.isPlain_of_kind? found rfl (by simp) (by simp)
        · rw [if_neg fun both => marks both.1] at onLine noString noComment
          exact Piece.isPlain_of_kind? found onLine noString noComment
  rw [text_of_token? shown, String.toList_ofList]
  exact segment.not_mem plain separates

end TalAnalysis
