import TalAnalysis.Proofs.Lexer.Segmentation

namespace TalAnalysis
open Text

def TokenKind.unmarked : TokenKind → TokenKind
  | .directiveLine => .directive
  | kind => kind

def Token.unmarked (t : Token) : Token := { t with kind := t.kind.unmarked }

def withoutComments (tokens : List Token) : List Token :=
  (tokens.filter fun t => !t.kind.isComment).map Token.unmarked

/-- What the last of the tokens says that is no comment. -/
def Lookback.ofTokens (tokens : List Token) : Lookback :=
  ((tokens.reverse.find? fun t => !t.kind.isComment).map fun t => .ofKind t.kind).getD .plain

variable {groupNames : Bool}

theorem TokenKind.isComment_unmarked (kind : TokenKind) :
    kind.unmarked.isComment = kind.isComment := by
  cases kind <;> rfl

theorem token?_kept {p : PlacedPiece} {kind : TokenKind} (h : p.piece.kind? = some kind) :
    ∃ t, p.token? true = some t ∧ t.kind = kind := by
  refine ⟨.write kind (String.ofList p.piece.text) p.span p.place.line p.place.column, ?_, rfl⟩
  rw [token?_of_kind?_some h, Bool.true_or, if_pos rfl, if_neg (by simp)]

theorem token?_dropped (p : PlacedPiece) :
    p.token? false =
      ((p.token? true).filter fun t => !t.kind.isComment).map Token.unmarked := by
  cases found : p.piece.kind? with
  | none => simp [token?_of_kind?_none found]
  | some kind =>
      rw [token?_of_kind?_some found, token?_of_kind?_some found]
      cases kind <;> rfl

theorem Lookback.ofTokens_comment (tokens : List Token) {t : Token}
    (comment : t.kind.isComment = true) : ofTokens (tokens ++ [t]) = ofTokens tokens := by
  simp [ofTokens, comment]

theorem Lookback.ofTokens_significant (tokens : List Token) {t : Token}
    (other : t.kind.isComment = false) : ofTokens (tokens ++ [t]) = .ofKind t.kind := by
  simp [ofTokens, other]

theorem Piece.lookback_of_kind? {p : Piece} {kind : TokenKind} (h : p.kind? = some kind)
    (before : Lookback) :
    p.lookback before = if kind.isComment then before else .ofKind kind := by
  rw [lookback, h]

theorem Lookback.ofKind_unmarked (kind : TokenKind) : ofKind kind.unmarked = ofKind kind := by
  cases kind <;> rfl

theorem Lookback.ofTokens_piece (keepComments : Bool) (tokens : List Token) (p : PlacedPiece) :
    ofTokens (tokens ++ (p.token? keepComments).toList) = p.piece.lookback (ofTokens tokens) := by
  cases found : p.piece.kind? with
  | none => simp [token?_of_kind?_none found, Piece.lookback, found]
  | some kind =>
      obtain ⟨t, shown, rfl⟩ := token?_kept found
      rw [Piece.lookback_of_kind? found]
      cases comment : t.kind.isComment with
      | true =>
          rw [if_pos rfl]
          cases keepComments with
          | false => simp [token?_dropped, shown, Option.filter, comment]
          | true =>
              rw [shown]
              exact ofTokens_comment tokens comment
      | false =>
          rw [if_neg Bool.false_ne_true]
          cases keepComments with
          | false =>
              have other : t.unmarked.kind.isComment = false :=
                (TokenKind.isComment_unmarked t.kind).trans comment
              have dropped : p.token? false = some t.unmarked := by
                simp [token?_dropped, shown, Option.filter, comment]
              rw [dropped]
              exact (ofTokens_significant tokens other).trans (ofKind_unmarked t.kind)
          | true =>
              rw [shown]
              exact ofTokens_significant tokens comment

theorem piecesFrom_lookback (keepComments : Bool) {emitted : List Token} {r : Reader}
    {before after : List PlacedPiece} {p : PlacedPiece}
    (cut : piecesFrom groupNames (.ofTokens emitted) r = before ++ p :: after) :
    let here := r.skip (before.flatMap fun q => q.piece.text).length
    let seen := emitted ++ before.filterMap (PlacedPiece.token? keepComments)
    ∃ c rest, here.rest = c :: rest ∧
      p = ⟨.read groupNames (.ofTokens seen) here.lineRead c rest, here.place⟩ := by
  induction before generalizing emitted r with
  | nil =>
      cases unread : r.rest with
      | nil => simp [piecesFrom_nil unread] at cut
      | cons c rest =>
          rw [piecesFrom_cons unread, List.nil_append] at cut
          obtain ⟨rfl, -⟩ := List.cons.inj cut
          exact ⟨c, rest, unread, by simp [Reader.skip]⟩
  | cons q before ih =>
      cases unread : r.rest with
      | nil => simp [piecesFrom_nil unread] at cut
      | cons c rest =>
          rw [piecesFrom_cons unread, List.cons_append] at cut
          obtain ⟨first, later⟩ := List.cons.inj cut
          have read : Piece.read groupNames (.ofTokens emitted) r.lineRead c rest = q.piece := by
            rw [← first]
          rw [read, ← Lookback.ofTokens_piece keepComments] at later
          have split : emitted ++ (q :: before).filterMap (PlacedPiece.token? keepComments) =
              emitted ++ (q.token? keepComments).toList ++
                before.filterMap (PlacedPiece.token? keepComments) := by
            cases shown : q.token? keepComments <;> simp [shown]
          rw [split, List.flatMap_cons, List.length_append, Reader.skip_add]
          exact ih later

theorem withoutComments_kept (source : String) (groupNames : Bool) :
    withoutComments (lex source { keepComments := true, groupNames }).tokens =
      (lex source { keepComments := false, groupNames }).tokens := by
  simp only [withoutComments, lex, List.filter_filterMap, List.map_filterMap,
    ← token?_dropped]

theorem lex_withoutComments (source : String) (groupNames : Bool) :
    let kept := lex source { keepComments := true, groupNames }
    let dropped := lex source { keepComments := false, groupNames }
    withoutComments kept.tokens = dropped.tokens ∧ kept.diagnostics = dropped.diagnostics ∧
      ∀ keepComments before p after, pieces groupNames source = before ++ p :: after →
        let here := (Reader.ofText source.toList).skip (before.flatMap fun q => q.piece.text).length
        let seen := before.filterMap (PlacedPiece.token? keepComments)
        ∃ c rest, here.rest = c :: rest ∧
          p = ⟨.read groupNames (.ofTokens seen) here.lineRead c rest, here.place⟩ := by
  refine ⟨withoutComments_kept source groupNames, rfl, ?_⟩
  intro keepComments before p after cut
  exact @piecesFrom_lookback groupNames keepComments [] _ before after p cut

end TalAnalysis
