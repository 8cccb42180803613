import TalAnalysis.Proofs.Lexer.Place

namespace TalAnalysis
open Text

variable {groupNames : Bool}

theorem Text.Reader.StandsAfter.lineRead {source before : List Char} {r : Reader}
    (h : r.StandsAfter source before) : r.lineRead = (lastLine before).reverse := by
  have read := lineRead_skip (r := ofText source) h.cut h.whole
  rw [← h.reached] at read
  simpa [ofText] using read

/-- The piece was read off `c :: rest`, which comes after `before` in the source, and what `before`
has on its last line was known. -/
structure PlacedPiece.ReadOnLine (groupNames : Bool) (source before : List Char) (c : Char)
    (rest : List Char) (p : PlacedPiece) : Prop where
  cut : source = before ++ c :: rest
  whole : ¬ SplitsPair before (c :: rest)
  place : p.place = ⟨byteLength before, lineEnds before, (lastLine before).length⟩
  read : ∃ lookback,
    p.piece = .read groupNames lookback (lastLine before).reverse c rest

theorem Text.Reader.StandsAfter.readOnLine {source before rest : List Char} {r : Reader} {c : Char}
    (h : r.StandsAfter source before) (unread : r.rest = c :: rest) (lookback : Lookback) :
    PlacedPiece.ReadOnLine groupNames source before c rest
      ⟨.read groupNames lookback r.lineRead c rest, r.place⟩ where
  cut := unread ▸ h.cut
  whole := unread ▸ h.whole
  place := h.place
  read := ⟨lookback, by rw [h.lineRead]⟩

theorem PlacedPiece.ReadOnLine.segment {source before rest : List Char} {c : Char}
    {p : PlacedPiece} (h : p.ReadOnLine groupNames source before c rest) :
    ∃ after, c :: rest = p.piece.text ++ after ∧
      Segment groupNames p.piece.lexeme p.piece.text after := by
  obtain ⟨lookback, read⟩ := h.read
  rw [read]
  exact Piece.read_segment groupNames lookback _ c rest

theorem piecesFrom_readOnLine {source before : List Char} {lookback : Lookback} {r : Reader}
    (h : r.StandsAfter source before) : ∀ p ∈ piecesFrom groupNames lookback r,
      ∃ before c rest, p.ReadOnLine groupNames source before c rest := by
  fun_induction piecesFrom groupNames lookback r generalizing before with
  | case1 => simp
  | case2 lookback r c rest unread piece =>
      rename_i ih
      rintro p (_ | ⟨_, member⟩)
      · exact ⟨before, c, rest, h.readOnLine unread lookback⟩
      · exact ih (h.past unread groupNames lookback) p member

theorem piecesFrom_exists_readOnLine {source before front back : List Char} {lookback : Lookback}
    {r : Reader} {d : Char} (h : r.StandsAfter source before)
    (unread : r.rest = front ++ d :: back) :
    ∃ p ∈ piecesFrom groupNames lookback r, ∃ earlier c rest passed left,
      p.ReadOnLine groupNames source earlier c rest ∧ p.piece.text = passed ++ d :: left ∧
        before ++ front = earlier ++ passed := by
  fun_induction piecesFrom groupNames lookback r generalizing before front with
  | case1 lookback r empty => simp [empty] at unread
  | case2 lookback r c rest opens piece =>
      rename_i ih
      have whole := rest_skip_read groupNames lookback opens
      rw [unread] at whole
      -- Either the first piece holds `d`, or the reader gets past it and has `d` before it still.
      rcases in_front_or_after whole with ⟨left, inside⟩ | ⟨front', past, later⟩
      · exact ⟨_, List.mem_cons_self, before, c, rest, front, left,
          h.readOnLine opens lookback, inside, rfl⟩
      · obtain ⟨p, member, found⟩ := ih (h.past opens groupNames lookback) later
        rw [List.append_assoc, ← past] at found
        exact ⟨p, List.mem_cons_of_mem _ member, found⟩

theorem readOnLine_of_mem {source : String} {p : PlacedPiece}
    (placed : p ∈ pieces groupNames source) :
    ∃ before c rest, p.ReadOnLine groupNames source.toList before c rest :=
  piecesFrom_readOnLine (Reader.standsAfter_ofText _) p placed

theorem exists_readOnLine (groupNames : Bool) {source : String} {front back : List Char} {d : Char}
    (cut : source.toList = front ++ d :: back) :
    ∃ p ∈ pieces groupNames source, ∃ earlier c rest passed left,
      p.ReadOnLine groupNames source.toList earlier c rest ∧ p.piece.text = passed ++ d :: left ∧
        front = earlier ++ passed :=
  piecesFrom_exists_readOnLine (Reader.standsAfter_ofText _) cut

end TalAnalysis
