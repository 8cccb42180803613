import TalAnalysis.Editor.Position
import TalAnalysis.Proofs.Lexer.Place

namespace TalAnalysis.Editor
open Text

def unitWidth (c : Char) : Nat := if c = '\r' then 0 else unitSize c

theorem positionFrom_cons (p : Position) (c : Char) (offset : Nat) (text : List Char) :
    positionFrom p (c.utf8Size + offset) (c :: text) = positionFrom (p.after c text) offset text := by
  have size := c.utf8Size_pos
  rw [positionFrom, if_neg (by omega), Nat.add_sub_cancel_left]

theorem positionFrom_advance (p : Position) (text after : List Char) :
    let stop := advance unitWidth after p.line p.character text
    positionFrom p (byteLength text) (text ++ after) = ⟨stop.1, stop.2⟩ := by
  induction text generalizing p with
  | nil => cases after <;> rfl
  | cons c text ih =>
      rw [List.cons_append, byteLength_cons, positionFrom_cons, ih, advance, Position.after]
      cases breaks : breaksLine c (text ++ after) with
      | true => rfl
      | false => by_cases return_ : c = '\r' <;> simp [unitWidth, return_]

theorem sum_unitWidth {text : List Char} (onLine : ∀ c ∈ text, isLineBreak c = false) :
    (text.map unitWidth).sum = unitLength text := by
  induction text with
  | nil => rfl
  | cons c text ih =>
      obtain ⟨first, others⟩ := List.forall_mem_cons.1 onLine
      rw [List.map_cons, List.sum_cons, ih others, unitLength_cons, unitWidth,
        if_neg (ne_return_of_onLine first)]

theorem unitLength_eq_length {text : List Char} (narrow : ∀ c ∈ text, c.toNat < 0x10000) :
    unitLength text = text.length := by
  induction text with
  | nil => rfl
  | cons c text ih =>
      obtain ⟨first, others⟩ := List.forall_mem_cons.1 narrow
      rw [unitLength_cons, ih others, unitSize, if_pos first, List.length_cons, Nat.add_comm]

theorem positionAt_cut {source : String} {before after : List Char}
    (cut : source.toList = before ++ after) (whole : ¬ SplitsPair before after) :
    positionAt source (byteLength before) = ⟨lineEnds before, unitLength (lastLine before)⟩ := by
  rw [positionAt, cut, positionFrom_advance, advance_eq _ _ _ whole,
    sum_unitWidth (onLine_lastLine before)]
  simp

theorem Position.line_after (p : Position) (c : Char) (rest : List Char) :
    (p.after c rest).line = p.line + if breaksLine c rest then 1 else 0 := by
  rw [Position.after]
  split_ifs <;> rfl

theorem Position.character_after (p : Position) (c : Char) (rest : List Char) :
    (p.after c rest).character ≤ p.character + unitSize c := by
  rw [Position.after]
  split_ifs <;> simp

theorem positionFrom_fits (p : Position) (offset : Nat) (text : List Char) :
    (positionFrom p offset text).line ≤ p.line + lineEnds text ∧
      (positionFrom p offset text).character ≤ p.character + unitLength text := by
  fun_induction positionFrom p offset text with
  | case1 => exact ⟨Nat.le_add_right _ _, Nat.le_add_right _ _⟩
  | case2 => exact ⟨Nat.le_add_right _ _, Nat.le_add_right _ _⟩
  | case3 p offset c text more ih =>
      have column := p.character_after c text
      rw [Position.line_after] at ih
      rw [lineEnds_cons, unitLength_cons]
      omega

theorem positionAt_fits (source : String) (offset : Nat) :
    (positionAt source offset).line ≤ lineEnds source.toList ∧
      (positionAt source offset).character ≤ unitLength source.toList := by
  rw [positionAt]
  simpa using positionFrom_fits ⟨0, 0⟩ offset source.toList

theorem unitSize_le_utf8Size (c : Char) : unitSize c ≤ c.utf8Size := by
  rw [unitSize]
  split_ifs with narrow
  · exact c.utf8Size_pos
  · have wide : ¬ c.val ≤ 0xFFFF := fun small => narrow (Nat.lt_succ_of_le small)
    have wider : ¬ c.val ≤ 0x7FF := fun small => wide (UInt32.le_trans small (by decide))
    have widest : ¬ c.val ≤ 0x7F := fun small => wider (UInt32.le_trans small (by decide))
    simp [Char.utf8Size, wide, wider, widest]

theorem unitLength_le_byteLength (text : List Char) : unitLength text ≤ byteLength text := by
  induction text with
  | nil => exact le_refl 0
  | cons c text ih => exact Nat.add_le_add (unitSize_le_utf8Size c) ih

theorem length_le_byteLength (text : List Char) : text.length ≤ byteLength text := by
  induction text with
  | nil => exact le_refl 0
  | cons c text ih =>
      rw [List.length_cons, byteLength_cons, Nat.add_comm]
      exact Nat.add_le_add c.utf8Size_pos ih

structure Position.FitsWord (p : Position) : Prop where
  line : p.line < UInt32.size
  character : p.character < UInt32.size

theorem positionAt_fitsWord {source : String} (small : byteLength source.toList < UInt32.size)
    (offset : Nat) : (positionAt source offset).FitsWord := by
  obtain ⟨line, character⟩ := positionAt_fits source offset
  have lines := (lineEnds_le_length _).trans (length_le_byteLength source.toList)
  exact ⟨(line.trans lines).trans_lt small,
    (character.trans (unitLength_le_byteLength _)).trans_lt small⟩

/-- Both counts agree at the end of `before`, a front part of the source: its bytes are the offset,
its line ends are the line, and the column counts the characters that the editor counts the units
of. -/
structure CountedAfter (source : String) (before : List Char) (offset line column : Nat) : Prop
  where
  bytes : byteLength before = offset
  lines : lineEnds before = line
  characters : (lastLine before).length = column
  units : positionAt source offset = ⟨line, unitLength (lastLine before)⟩
  narrow : (∀ c ∈ lastLine before, c.toNat < 0x10000) →
    positionAt source offset = ⟨line, column⟩

theorem countedAfter {source : String} {before : List Char} {r : Reader}
    (h : r.StandsAfter source.toList before) :
    CountedAfter source before (byteLength before) (lineEnds before) (lastLine before).length where
  bytes := rfl
  lines := rfl
  characters := rfl
  units := positionAt_cut h.cut h.whole
  narrow narrow := by rw [positionAt_cut h.cut h.whole, unitLength_eq_length narrow]

theorem lastLine_suffix (text : List Char) : lastLine text <:+ text := by
  obtain ⟨earlier, cut, -⟩ := exists_earlier text
  exact ⟨earlier, cut.symm⟩

/-- In a source of less than 2³² bytes, each count of a place fits in a word of 32 bits. -/
theorem CountedAfter.fitsWord {source : String} {before after : List Char}
    {offset line column : Nat} (h : CountedAfter source before offset line column)
    (cut : source.toList = before ++ after) (small : byteLength source.toList < UInt32.size) :
    offset < UInt32.size ∧ line < UInt32.size ∧ column < UInt32.size ∧
      (positionAt source offset).FitsWord := by
  have fits : byteLength before < UInt32.size := by
    rw [cut, byteLength_append] at small
    exact (Nat.le_add_right _ _).trans_lt small
  have lines := (lineEnds_le_length before).trans (length_le_byteLength before)
  have columns := (lastLine_suffix before).length_le.trans (length_le_byteLength before)
  rw [← h.bytes, ← h.lines, ← h.characters]
  exact ⟨fits, lines.trans_lt fits, columns.trans_lt fits, positionAt_fitsWord small _⟩

theorem firstLineWidth_onLine {text : List Char} (onLine : ∀ c ∈ text, isLineBreak c = false) :
    Token.firstLineWidth text = text.length := by
  fun_induction Token.firstLineWidth text with
  | case1 => rfl
  | case2 rest => exact absurd (onLine '\r' List.mem_cons_self) (by decide)
  | case3 c text alone breaks =>
      have first := onLine c List.mem_cons_self
      rcases breaks with rfl | rfl <;> exact absurd first (by decide)
  | case4 c text alone inLine ih =>
      rw [ih fun d member => onLine d (List.mem_cons_of_mem c member), List.length_cons]

theorem lex_token_positions {source : String} {options : LexOptions} {t : Token}
    (member : t ∈ (lex source options).tokens) :
    ∃ before after, source.toList = before ++ t.text.toList ++ after ∧
      CountedAfter source before t.span.start t.line t.startColumn ∧
      ((∀ c ∈ t.text.toList, isLineBreak c = false) →
        CountedAfter source (before ++ t.text.toList) t.span.stop t.line t.endColumn) := by
  obtain ⟨p, placed, shown⟩ := List.mem_filterMap.1 member
  obtain ⟨before, ⟨r, start, place⟩, ⟨r', stop⟩⟩ := pieces_stand options.groupNames source p placed
  rw [start.place] at place
  cases found : p.piece.kind? with
  | none =>
      rw [token?_of_kind?_none found] at shown
      cases shown
  | some kind =>
      rw [token?_of_kind?_some found, Option.ite_none_right_eq_some, Option.some.injEq] at shown
      obtain ⟨-, rfl⟩ := shown
      simp only [Token.write, PlacedPiece.span, place, String.toList_ofList]
      refine ⟨before, r'.rest, stop.cut, countedAfter start, fun onLine => ?_⟩
      rw [← byteLength_append, ← lineEnds_append_onLine before onLine,
        firstLineWidth_onLine onLine, ← List.length_append,
        ← lastLine_append_onLine before onLine]
      exact countedAfter stop

theorem lex_token_positions_after_string :
    ∃ before after, "s := \"😀\r\n😀\" ; x".toList = before ++ "x".toList ++ after ∧
      CountedAfter "s := \"😀\r\n😀\" ; x" before 20 1 5 ∧
      ((∀ c ∈ "x".toList, isLineBreak c = false) →
        CountedAfter "s := \"😀\r\n😀\" ; x" (before ++ "x".toList) 21 1 6) :=
  lex_token_positions (t := .write (.name "x") "x" ⟨20, 21⟩ 1 5)
    (show _ ∈ (lex "s := \"😀\r\n😀\" ; x" {}).tokens by decide +kernel)

end TalAnalysis.Editor
