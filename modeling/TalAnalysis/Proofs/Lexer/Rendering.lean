import TalAnalysis.Proofs.Lexer.Comments
import TalAnalysis.Proofs.Lexer.Grouping
import TalAnalysis.Proofs.Lexer.Tail

/-!
# The text of a run of tokens

`Token.joinText` writes tokens that touch together and puts one space for each gap. What it writes
for tokens that follow one another in a source reads as these tokens again.

* `toList_joinText`: the text of some tokens, from the pieces that they were read off.
* `readFrom_joinText`: the tokens of that text.
-/

namespace TalAnalysis
open Text

def TokenKind.isDot : TokenKind → Bool
  | .indirection .standard | .delimiter .dot => true
  | _ => false

/-- The token `u` has the text of `t` and stands for the same, except that one dot may mark a
pointer where the other does not. -/
structure Token.ReadsAs (t u : Token) : Prop where
  text : u.text = t.text
  kind : u.kind = t.kind ∨ t.kind.isDot = true ∧ u.kind.isDot = true

def Token.ReadFrom (text : String) (tokens : List Token) : Prop :=
  List.Forall₂ ReadsAs (tokens.filter fun t => t.kind ≠ .newLine) (lex text {}).tokens

/-! ## What a piece is apart from its place -/

/-- The kind of a token without what the text before it says: whether a dot marks a pointer, and
whether the mark of a directive opens its line. -/
def TokenKind.placeless : TokenKind → TokenKind
  | .directiveLine => .directive
  | .indirection .standard => .delimiter .dot
  | kind => kind

def Piece.placeless (p : Piece) : List Char × Option TokenKind :=
  (p.text, p.kind?.map TokenKind.placeless)

theorem TokenKind.placeless_eq (kind : TokenKind) :
    kind.placeless = if kind.isDot then .delimiter .dot else kind.unmarked := by
  cases kind with
  | indirection i => cases i <;> rfl
  | delimiter d => cases d <;> rfl
  | _ => rfl

theorem TokenKind.isDot_unmarked (kind : TokenKind) : kind.unmarked.isDot = kind.isDot := by
  cases kind <;> rfl

theorem TokenKind.isComment_placeless (kind : TokenKind) :
    kind.placeless.isComment = kind.isComment := by
  cases kind with
  | indirection i => cases i <;> rfl
  | _ => rfl

theorem TokenKind.eq_or_isDot_of_placeless {a b : TokenKind} (same : b.placeless = a.placeless) :
    b.unmarked = a.unmarked ∨ a.unmarked.isDot = true ∧ b.unmarked.isDot = true := by
  rw [placeless_eq, placeless_eq] at same
  rw [isDot_unmarked, isDot_unmarked]
  cases dot : a.isDot with
  | true =>
      cases dot' : b.isDot with
      | true => exact .inr ⟨rfl, rfl⟩
      | false =>
          rw [dot, dot', if_pos rfl, if_neg Bool.false_ne_true] at same
          rw [← isDot_unmarked, same] at dot'
          cases dot'
  | false =>
      cases dot' : b.isDot with
      | true =>
          rw [dot, dot', if_pos rfl, if_neg Bool.false_ne_true] at same
          rw [← isDot_unmarked, ← same] at dot
          cases dot
      | false =>
          rw [dot, dot', if_neg Bool.false_ne_true, if_neg Bool.false_ne_true] at same
          exact .inl same

theorem Piece.placeless_read (lookback lookback' : Lookback) (lineRead lineRead' : List Char)
    (c : Char) (rest : List Char) :
    (read false lookback lineRead c rest).placeless =
      (read false lookback' lineRead' c rest).placeless := by
  have unseen (lookback : Lookback) (lineRead : List Char) :
      (read false lookback lineRead c rest).placeless =
        (read false .plain lineRead c rest).placeless := by
    rcases read_lookback false lookback lineRead c rest with same | ⟨dot, here, plain⟩ | ⟨⟨⟩, -⟩
    · rw [same]
    · rw [here, plain]
      rfl
  have line : (read false .plain lineRead c rest).placeless =
      (read false .plain lineRead' c rest).placeless := by
    by_cases mark : c = '?'
    · subst mark
      have kind (opensLine : Bool) : (⟨.directive opensLine, ['?']⟩ : Piece).placeless =
          (['?'], some .directive) := by
        cases opensLine <;> rfl
      exact (kind _).trans (kind _).symm
    · simp only [read, mark, if_false]
  rw [unseen lookback, unseen lookback', line]

/-! ## The text, from the pieces -/

namespace Piece

def isWritten (p : Piece) : Bool := (p.kind?.map fun kind => !kind.isLayout).getD false

/-- The pieces that are written, with a space for each gap. `gap` tells whether there is one right
before the pieces, if anything was written before them. -/
def rendered (gap : Option Bool) : List Piece → List Char
  | [] => []
  | p :: pieces =>
      if p.isWritten then
        (if gap = some true then [' '] else []) ++ (p.text ++ rendered (some false) pieces)
      else rendered (gap.map fun _ => true) pieces

theorem spaceOrEnd_rendered (pieces : List Piece) : SpaceOrEnd (rendered (some true) pieces) := by
  induction pieces with
  | nil => exact spaceOrEnd_nil
  | cons p pieces ih =>
      rw [rendered]
      split
      · intro c first
        exact (Option.some.inj first).symm
      · exact ih

end Piece

namespace PlacedPiece

def written? (p : PlacedPiece) : Option Token := (p.token? false).filter fun t => !t.kind.isLayout

theorem token?_of_noComment {p : PlacedPiece} {kind : TokenKind} (found : p.piece.kind? = some kind)
    (noComment : kind.isComment = false) : p.token? false = some (.write kind.unmarked
      (String.ofList p.piece.text) p.span p.place.line p.place.column) := by
  rw [token?_of_kind?_some found, noComment]
  cases kind <;> rfl

theorem written?_of_isWritten {p : PlacedPiece} (written : p.piece.isWritten = true) :
    ∃ kind, p.piece.kind? = some kind ∧ kind.isComment = false ∧
      p.written? = some (.write kind.unmarked (String.ofList p.piece.text) p.span p.place.line
        p.place.column) := by
  cases found : p.piece.kind? with
  | none => simp [Piece.isWritten, found] at written
  | some kind =>
      rw [Piece.isWritten, found] at written
      refine ⟨kind, rfl, ?_⟩
      rw [written?, token?_of_kind?_some found]
      cases kind with
      | newLine | comment | lineComment => cases written
      | _ => exact ⟨rfl, rfl⟩

theorem written?_of_not_isWritten {p : PlacedPiece} (other : p.piece.isWritten = false) :
    p.written? = none := by
  cases found : p.piece.kind? with
  | none => rw [written?, token?_of_kind?_none found, Option.filter_none]
  | some kind =>
      rw [Piece.isWritten, found] at other
      rw [written?, token?_of_kind?_some found]
      cases kind with
      | newLine | comment | lineComment => rfl
      | _ => cases other

end PlacedPiece

variable {lookback : Lookback} {r : Reader} {slice after : List PlacedPiece}

theorem piecesFrom_eq_cons {p : PlacedPiece} {others : List PlacedPiece}
    (cut : piecesFrom false lookback r = p :: others) : ∃ c rest, r.rest = c :: rest ∧
      p = ⟨.read false lookback r.lineRead c rest, r.place⟩ ∧
        piecesFrom false (p.piece.lookback lookback) (r.skip p.piece.text.length) = others := by
  cases unread : r.rest with
  | nil =>
      rw [piecesFrom_nil unread] at cut
      cases cut
  | cons c rest =>
      rw [piecesFrom_cons unread] at cut
      obtain ⟨rfl, others⟩ := List.cons.inj cut
      exact ⟨c, rest, rfl, rfl, others⟩

theorem flatMap_pieces (cut : piecesFrom false lookback r = slice ++ after) {last : Option Nat}
    (before : ∀ stop ∈ last, stop ≤ r.place.offset) :
    (Token.pieces last (slice.filterMap PlacedPiece.written?)).flatMap String.toList =
      Piece.rendered (last.map fun stop => decide (stop < r.place.offset))
        (slice.map PlacedPiece.piece) := by
  -- `last` is where the token before ended: past it there is a gap, however many pieces are in it.
  induction slice generalizing lookback r last with
  | nil => rfl
  | cons p slice ih =>
      obtain ⟨c, rest, unread, piece, others⟩ := piecesFrom_eq_cons cut
      have place : p.place = r.place := by rw [piece]
      have next : (r.skip p.piece.text.length).place.offset =
          r.place.offset + byteLength p.piece.text := by
        apply Reader.offset_skip_front
        rw [unread, piece]
        exact Piece.read_text_front _ _ _ _ _
      have more : 0 < byteLength p.piece.text := by
        apply byteLength_pos
        rw [piece]
        exact Piece.read_text_ne_nil _ _ _ _ _
      rw [List.map_cons, Piece.rendered]
      split
      · rename_i written
        obtain ⟨kind, -, -, shown⟩ := PlacedPiece.written?_of_isWritten written
        rw [List.filterMap_cons_some shown, Token.pieces, List.flatMap_cons, List.flatMap_cons]
        simp only [Token.write, PlacedPiece.span, place]
        rw [ih others (by rintro _ ⟨⟩; exact next.ge), String.toList_ofList]
        congr 1
        · cases last with
          | none => rfl
          | some stop => by_cases gap : stop < r.place.offset <;> simp [gap]
        · simp [next]
      · rename_i other
        rw [List.filterMap_cons_none
          (PlacedPiece.written?_of_not_isWritten (Bool.eq_false_iff.2 other)), ih others]
        · cases last with
          | none => rfl
          | some stop =>
              have := before stop rfl
              simp only [Option.map_some, next]
              rw [decide_eq_true (by omega)]
        · intro stop touching
          have := before stop touching
          omega

theorem toList_joinText (cut : piecesFrom false lookback r = slice ++ after) :
    (Token.joinText (slice.filterMap (PlacedPiece.token? false))).toList =
      Piece.rendered none (slice.map PlacedPiece.piece) := by
  rw [Token.joinText, String.toList_join, List.filter_filterMap]
  exact flatMap_pieces cut (by rintro _ ⟨⟩)

/-! ## Reading the text -/

theorem isToken_of_isWritten {p : Piece} (written : p.isWritten = true) : p.IsToken := by
  cases found : p.kind? with
  | none => simp [Piece.isWritten, found] at written
  | some kind =>
      refine ⟨kind, found, Bool.eq_false_iff.2 fun comment => ?_⟩
      simp [Piece.isWritten, found, TokenKind.isLayout, comment] at written

theorem exists_touching (cut : piecesFrom false lookback r = slice ++ after) :
    ∃ front back back', r.rest = front ++ back ∧
      Piece.rendered (some false) (slice.map PlacedPiece.piece) = front ++ back' ∧
        TokenNext front back ∧ SpaceOrEnd back' := by
  induction slice generalizing lookback r with
  | nil => exact ⟨[], r.rest, [], rfl, rfl, .inl rfl, spaceOrEnd_nil⟩
  | cons p slice ih =>
      obtain ⟨c, rest, unread, piece, others⟩ := piecesFrom_eq_cons cut
      rw [List.map_cons, Piece.rendered]
      split
      · rename_i written
        obtain ⟨front, back, back', here, text, -, gap⟩ := ih others
        have whole : r.rest = p.piece.text ++ (front ++ back) := by
          have := rest_skip_read false lookback unread
          rw [piece] at here ⊢
          rw [← here]
          exact this
        refine ⟨p.piece.text ++ front, back, back', ?_, ?_,
          .inr ⟨lookback, r.lineRead, c, rest, ?_⟩, gap⟩
        · rw [whole, List.append_assoc]
        · rw [if_neg (by simp), text, List.nil_append, List.append_assoc]
        · rw [List.append_assoc, ← whole, unread]
          rw [piece] at written ⊢
          exact ⟨rfl, isToken_of_isWritten written, List.prefix_append _ _⟩
      · exact ⟨[], r.rest, _, rfl, rfl, .inl rfl, Piece.spaceOrEnd_rendered _⟩

theorem read_rendered {c : Char} {rest rest' : List Char} (unread : r.rest = c :: rest)
    (cut : piecesFrom false ((Piece.read false lookback r.lineRead c rest).lookback lookback)
      (r.skip (Piece.read false lookback r.lineRead c rest).text.length) = slice ++ after)
    (token : (Piece.read false lookback r.lineRead c rest).IsToken)
    (text : c :: rest' = (Piece.read false lookback r.lineRead c rest).text ++
      Piece.rendered (some false) (slice.map PlacedPiece.piece)) :
    Piece.read false lookback r.lineRead c rest' = Piece.read false lookback r.lineRead c rest := by
  obtain ⟨front, back, back', left, rendered, next, gap⟩ := exists_touching cut
  have whole := rest_skip_read false lookback unread
  rw [unread] at whole
  refine Piece.read_tail token (left ▸ whole) next gap ?_ (rendered ▸ text)
  intro contents open_
  obtain ⟨rest, cut', segment⟩ := Piece.read_segment false lookback r.lineRead c rest
  rw [open_] at segment
  have ended := segment.after_of_openString
  rw [ended, List.append_nil] at cut'
  have nothing := List.append_right_eq_self.1 (cut'.symm.trans whole).symm
  rw [piecesFrom_nil nothing] at cut
  obtain ⟨rfl, -⟩ := List.append_eq_nil_iff.1 cut.symm
  exact (List.append_eq_nil_iff.1 rendered.symm).2

theorem piecesFrom_rendered (lookback' : Lookback) {r' : Reader} {p : PlacedPiece}
    (cut : piecesFrom false lookback r = p :: slice ++ after) (written : p.piece.isWritten = true)
    (unread : r'.rest =
      p.piece.text ++ Piece.rendered (some false) (slice.map PlacedPiece.piece)) :
    ∃ q lookback, q.piece.placeless = p.piece.placeless ∧ piecesFrom false lookback' r' =
      q :: piecesFrom false lookback (r'.skip p.piece.text.length) := by
  obtain ⟨c, rest, source, piece, others⟩ := piecesFrom_eq_cons cut
  have token := isToken_of_isWritten written
  have read : p.piece = Piece.read false lookback r.lineRead c rest := by rw [piece]
  obtain ⟨own, opens⟩ : ∃ own, p.piece.text = c :: own := read ▸ Piece.text_of_read _ _ _ _
  rw [opens, List.cons_append] at unread
  have again : Piece.read false lookback r.lineRead c
      (own ++ Piece.rendered (some false) (slice.map PlacedPiece.piece)) = p.piece := by
    rw [read] at token others opens ⊢
    exact read_rendered source others token (by rw [opens, List.cons_append])
  -- It is the same token, but what was read before it is other text.
  have placeless := Piece.placeless_read lookback' lookback r'.lineRead r.lineRead c
    (own ++ Piece.rendered (some false) (slice.map PlacedPiece.piece))
  rw [again] at placeless
  have size := congrArg List.length (Prod.mk.inj placeless).1
  rw [← size]
  exact ⟨_, _, placeless, piecesFrom_cons unread false lookback'⟩

theorem tokens_after_gap (lookback : Lookback) {gap : Option Bool} {text : List Char}
    (unread : r.rest = (if gap = some true then [' '] else []) ++ text)
    (noBlank : StopsBefore isBlank text) : ∃ r' : Reader, r'.rest = text ∧
      (piecesFrom false lookback r).filterMap (PlacedPiece.token? false) =
        (piecesFrom false lookback r').filterMap (PlacedPiece.token? false) := by
  split at unread
  · rw [List.singleton_append] at unread
    have space : Piece.read false lookback r.lineRead ' ' text = ⟨.blanks, [' ']⟩ := by
      rw [Piece.read_of_isBlank (by decide), noBlank.takeWhile]
    refine ⟨r.skip 1, by rw [Reader.rest_skip, unread]; rfl, ?_⟩
    rw [piecesFrom_cons unread, space, List.filterMap_cons_none (token?_of_kind?_none rfl)]
    rfl
  · exact ⟨r, unread, rfl⟩

theorem readsAs_of_placeless {p q : PlacedPiece} (written : p.piece.isWritten = true)
    (same : q.piece.placeless = p.piece.placeless) :
    ∃ t u, p.written? = some t ∧ q.token? false = some u ∧ t.ReadsAs u := by
  obtain ⟨kind, found, noComment, shown⟩ := PlacedPiece.written?_of_isWritten written
  obtain ⟨text, kinds⟩ := Prod.mk.inj same
  rw [found, Option.map_some] at kinds
  obtain ⟨kind', found', alike⟩ := Option.map_eq_some_iff.1 kinds
  have noComment' : kind'.isComment = false := by
    rw [← TokenKind.isComment_placeless, alike, TokenKind.isComment_placeless, noComment]
  exact ⟨_, _, shown, PlacedPiece.token?_of_noComment found' noComment',
    congrArg String.ofList text, TokenKind.eq_or_isDot_of_placeless alike⟩

theorem readsAs_rendered {lookback' : Lookback} {r' : Reader} {gap : Option Bool}
    (cut : piecesFrom false lookback r = slice ++ after)
    (unread : r'.rest = Piece.rendered gap (slice.map PlacedPiece.piece)) :
    List.Forall₂ Token.ReadsAs (slice.filterMap PlacedPiece.written?)
      ((piecesFrom false lookback' r').filterMap (PlacedPiece.token? false)) := by
  induction slice generalizing lookback r lookback' r' gap with
  | nil =>
      rw [piecesFrom_nil unread]
      exact .nil
  | cons p slice ih =>
      obtain ⟨_, _, _, piece, others⟩ := piecesFrom_eq_cons cut
      rw [List.map_cons, Piece.rendered] at unread
      split at unread
      · rename_i written
        have noBlank (text : List Char) : StopsBefore isBlank (p.piece.text ++ text) := by
          have token := isToken_of_isWritten written
          rw [piece] at token ⊢
          exact Piece.stopsBefore_of_isToken token text
        obtain ⟨r', unread', same⟩ := tokens_after_gap lookback' unread (noBlank _)
        obtain ⟨q, _, placeless, first⟩ := piecesFrom_rendered lookback' cut written unread'
        obtain ⟨t, u, shown, shown', reads⟩ := readsAs_of_placeless written placeless
        have left : (r'.skip p.piece.text.length).rest =
            Piece.rendered (some false) (slice.map PlacedPiece.piece) := by
          rw [Reader.rest_skip, unread', List.drop_left]
        rw [same, first, List.filterMap_cons_some shown, List.filterMap_cons_some shown']
        exact .cons reads (ih others left)
      · rename_i other
        rw [List.filterMap_cons_none
          (PlacedPiece.written?_of_not_isWritten (Bool.eq_false_iff.2 other))]
        exact ih others unread

/-! ## Slices of the tokens of a source -/

theorem exists_piecesFrom {before others : List PlacedPiece}
    (cut : piecesFrom false lookback r = before ++ others) :
    ∃ lookback' r', piecesFrom false lookback' r' = others := by
  induction before generalizing lookback r with
  | nil => exact ⟨lookback, r, cut⟩
  | cons p before ih =>
      obtain ⟨_, _, _, _, left⟩ := piecesFrom_eq_cons cut
      exact ih left

variable {source : String} {tokens : List Token}

theorem exists_pieces_of_infix (within : tokens <:+: (lex source {}).tokens) :
    ∃ lookback r slice after, piecesFrom false lookback r = slice ++ after ∧
      slice.filterMap (PlacedPiece.token? false) = tokens := by
  obtain ⟨before, after, whole⟩ := within
  obtain ⟨front, after, cut, here, -⟩ := List.filterMap_eq_append_iff.1 whole.symm
  obtain ⟨before, slice, rfl, -, here⟩ := List.filterMap_eq_append_iff.1 here
  rw [List.append_assoc] at cut
  obtain ⟨lookback, r, left⟩ := exists_piecesFrom cut
  exact ⟨lookback, r, slice, after, left, here⟩

theorem not_isComment_of_mem {t : Token} (member : t ∈ (lex source {}).tokens) :
    t.kind.isComment = false := by
  obtain ⟨p, -, shown⟩ := List.mem_filterMap.1 member
  rw [token?_dropped, Option.map_eq_some_iff] at shown
  obtain ⟨u, kept, rfl⟩ := shown
  have noComment := (Option.filter_eq_some_iff.1 kept).2
  rw [Token.unmarked, TokenKind.isComment_unmarked]
  simpa using noComment

theorem readFrom_joinText (within : tokens <:+: (lex source {}).tokens) :
    Token.ReadFrom (Token.joinText tokens) tokens := by
  have lines : (tokens.filter fun t => t.kind ≠ .newLine) =
      tokens.filter fun t => !t.kind.isLayout := by
    apply List.filter_congr
    intro t member
    rw [TokenKind.isLayout, not_isComment_of_mem (within.subset member), Bool.or_false,
      beq_eq_decide, decide_not]
  obtain ⟨lookback, r, slice, after, cut, rfl⟩ := exists_pieces_of_infix within
  rw [Token.ReadFrom, lines, List.filter_filterMap]
  exact readsAs_rendered cut (toList_joinText cut)

/-- Hyphens that only a comment keeps apart open none in the text. -/
example : Token.joinText (lex "1 -! less !-1" {}).tokens = "1 - -1" := by decide +kernel

end TalAnalysis
