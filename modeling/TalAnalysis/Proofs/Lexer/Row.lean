import TalAnalysis.Proofs.Lexer.LineBreak
import TalAnalysis.Proofs.Lexer.Place
import TalAnalysis.Proofs.Lexer.Tail

namespace TalAnalysis
open Text

/-- Before `after` the piece is read, whatever stands before it. -/
def Piece.ReadBefore (p : Piece) (after : List Char) : Prop :=
  ∃ c rest, p.text ++ after = c :: rest ∧
    ∀ lookback lineRead, read false lookback lineRead c rest = p

def rowText (row : List Piece) : List Char := row.flatMap Piece.text

def RowBefore : List Piece → List Char → Prop
  | [], _ => True
  | p :: row, after => p.ReadBefore (rowText row ++ after) ∧ RowBefore row after

def Text.Place.afterText (before : List Char) : Place :=
  ⟨byteLength before, lineEnds before, (lastLine before).length⟩

def placed (before : List Char) : List Piece → List PlacedPiece
  | [] => []
  | p :: row => ⟨p, .afterText before⟩ :: placed (before ++ p.text) row

variable {row others : List Piece} {after : List Char}

theorem rowText_append (row others : List Piece) :
    rowText (row ++ others) = rowText row ++ rowText others := List.flatMap_append

theorem placed_append (before : List Char) (row others : List Piece) :
    placed before (row ++ others) = placed before row ++ placed (before ++ rowText row) others := by
  induction row generalizing before with
  | nil => rw [rowText, List.flatMap_nil, List.append_nil]; rfl
  | cons p row ih =>
      rw [List.cons_append, placed, placed, ih, rowText, rowText, List.flatMap_cons,
        List.append_assoc]
      rfl

theorem RowBefore.append (first : RowBefore row (rowText others ++ after))
    (second : RowBefore others after) : RowBefore (row ++ others) after := by
  induction row with
  | nil => exact second
  | cons p row ih =>
      obtain ⟨read, first⟩ := first
      refine ⟨?_, ih first⟩
      change p.ReadBefore (rowText (row ++ others) ++ after)
      rwa [rowText_append, List.append_assoc]

theorem piecesFrom_row {source before : List Char} {lookback : Lookback} {r : Reader}
    (written : RowBefore row []) (stands : r.StandsAfter source before)
    (unread : r.rest = rowText row) : piecesFrom false lookback r = placed before row := by
  induction row generalizing before lookback r with
  | nil => exact piecesFrom_nil unread _ _
  | cons p row ih =>
      obtain ⟨⟨c, rest, opens, read⟩, later⟩ := written
      rw [List.append_nil] at opens
      have here : r.rest = c :: rest := unread.trans opens
      have own : Piece.read false lookback r.lineRead c rest = p := read lookback r.lineRead
      have some : p.text ≠ [] := own ▸ Piece.read_text_ne_nil _ _ _ _ _
      have whole : ¬ SplitsPair p.text (rowText row) := by
        rw [← own] at opens ⊢
        exact Piece.not_splitsPair_read opens.symm
      have left : (r.skip p.text.length).rest = rowText row := by
        rw [Reader.rest_skip, unread]
        exact List.drop_left
      rw [piecesFrom_cons here, own, placed, ih later (stands.skip unread some whole) left,
        stands.place]
      rfl

theorem pieces_row (written : RowBefore row []) :
    pieces false (String.ofList (rowText row)) = placed [] row := by
  rw [pieces, String.toList_ofList]
  exact piecesFrom_row written (Reader.standsAfter_ofText _) rfl

def Token.writtenAfter (before : List Char) (kind : TokenKind) (text : List Char) : Token :=
  .write kind (String.ofList text) ⟨byteLength before, byteLength before + byteLength text⟩
    (lineEnds before) (lastLine before).length

def rowTokens (before : List Char) (row : List Piece) : List Token :=
  (placed before row).filterMap (PlacedPiece.token? false)

theorem rowTokens_append (before : List Char) (row others : List Piece) :
    rowTokens before (row ++ others) =
      rowTokens before row ++ rowTokens (before ++ rowText row) others := by
  rw [rowTokens, placed_append, List.filterMap_append]
  rfl

theorem rowTokens_silent {p : Piece} (none : p.kind? = none) (before : List Char)
    (row : List Piece) : rowTokens before (p :: row) = rowTokens (before ++ p.text) row := by
  rw [rowTokens, placed, List.filterMap_cons_none (token?_of_kind?_none none), ← rowTokens]

theorem rowTokens_token {p : Piece} {kind : TokenKind} (found : p.kind? = some kind)
    (plain : (kind.isComment || kind.marksDirective) = false) (before : List Char)
    (row : List Piece) : rowTokens before (p :: row) =
      .writtenAfter before kind p.text :: rowTokens (before ++ p.text) row := by
  obtain ⟨noComment, noMark⟩ := Bool.or_eq_false_iff.1 plain
  have other : kind ≠ .directiveLine := by
    rintro rfl
    cases noMark
  have shown : PlacedPiece.token? false ⟨p, .afterText before⟩ =
      some (.writtenAfter before kind p.text) := by
    rw [token?_of_kind?_some found, noComment, Bool.not_false, Bool.or_true, if_pos rfl,
      if_neg fun mark => other mark.1]
    rfl
  rw [rowTokens, placed, List.filterMap_cons_some shown, ← rowTokens]

theorem map_piece_placed (before : List Char) (row : List Piece) :
    (placed before row).map PlacedPiece.piece = row := by
  induction row generalizing before with
  | nil => rfl
  | cons p row ih => rw [placed, List.map_cons, ih]

def Piece.Silent (p : Piece) : Prop := ∀ place, PlacedPiece.cause? ⟨p, place⟩ = none

theorem silent_placed (silent : ∀ p ∈ row, p.Silent) (before : List Char) :
    (placed before row).filterMap PlacedPiece.diagnostic? = [] := by
  refine List.filterMap_eq_nil_iff.2 fun p member => ?_
  have listed : p.piece ∈ row :=
    map_piece_placed before row ▸ List.mem_map_of_mem member
  rw [PlacedPiece.diagnostic?, silent p.piece listed p.place, Option.map_none]

namespace Piece

theorem readBefore_blanks {gap : List Char} (some : gap ≠ [])
    (blank : ∀ c ∈ gap, isBlank c = true) (stop : StopsBefore isBlank after) :
    ReadBefore ⟨.blanks, gap⟩ after := by
  obtain ⟨c, gap, rfl⟩ := List.exists_cons_of_ne_nil some
  obtain ⟨first, blank⟩ := List.forall_mem_cons.1 blank
  refine ⟨c, gap ++ after, rfl, fun lookback lineRead => ?_⟩
  rw [read_of_isBlank first, stop.takeWhile_append blank]

theorem readBefore_word {c : Char} {name : List Char} (opens : startsName c = true)
    (inName : ∀ d ∈ name, continuesName d = true) (stop : StopsBefore continuesName after) :
    ReadBefore ⟨.word, c :: name⟩ after := by
  refine ⟨c, name ++ after, rfl, fun lookback lineRead => ?_⟩
  rw [read_of_startsName opens, Bool.false_and, word_alone, stop.takeWhile_append inName]

def goesOnNumeral (c : Char) : Bool := continuesName c || c == '%'

theorem marked?_of_stop (base : NumeralBase) (stop : StopsBefore goesOnNumeral after) :
    NumeralSize.marked? base after = none := by
  have goesOn : ∀ listed ∈ NumeralSize.marks,
      listed.1.toList.head?.any (fun c => goesOnNumeral c.toLower) = true := by
    decide
  have ignoresCase : IgnoresCase goesOnNumeral := ignoresCase_of_capitals (by decide)
  refine List.find?_eq_none.2 fun listed member marks => ?_
  simp only [Bool.and_eq_true] at marks
  obtain ⟨c, first, more⟩ := (Option.any_eq_true _ _).1 (goesOn listed member)
  have some : listed.1.toList ≠ [] := by
    rintro empty
    rw [empty] at first
    cases first
  have same := head?_of_opensWith some marks.1.2
  rw [first] at same
  obtain ⟨d, here, lower⟩ := Option.map_eq_some_iff.1 same
  have stops := stop d here
  rw [← ignoresCase, lower, more] at stops
  cases stops

theorem readBefore_number {digits : List Char} (some : digits ≠ [])
    (decimal : ∀ c ∈ digits, c.isDigit = true) (stop : StopsBefore goesOnNumeral after) :
    ReadBefore ⟨.number (numberIn 10 digits), digits⟩ after := by
  obtain ⟨c, more, rfl⟩ := List.exists_cons_of_ne_nil some
  have digit : c.isDigit = true := decimal c List.mem_cons_self
  have noMark : c ≠ '%' := by
    rintro rfl
    cases digit
  have parts : NumeralParts .decimal [] (c :: more) [] after := by
    refine ⟨⟨"", rfl, ?_⟩, fun d member => ?_, fun d first => ?_, ?_⟩
    · rw [List.nil_append, List.cons_append, NumeralBase.marked?_of_ne noMark]
      rfl
    · exact (isDigitIn_ten d).trans (decimal d member)
    · have stops := stop d first
      simp only [goesOnNumeral, continuesName, Char.isAlphanum, Bool.or_eq_false_iff] at stops
      exact (isDigitIn_ten d).trans stops.1.1.1.2
    · rw [List.nil_append, marked?_of_stop .decimal stop]
      rfl
  refine ⟨c, more ++ after, rfl, fun lookback lineRead => ?_⟩
  rw [read_numeral (.inl digit)]
  simpa [NumeralBase.radix] using parts.numeral_eq

theorem readBefore_lineFeed (after : List Char) : ReadBefore ⟨.sign .lineEnd, ['\n']⟩ after :=
  ⟨'\n', after, rfl, fun _ _ => read_lineFeed _ _ _ _⟩

def opensSign (c : Char) : Bool :=
  !(isBlank c || c.isDigit || startsName c || ['-', '!', '?', '%', '"'].contains c)

theorem longest?_alone {c : Char} {found : String × Sign} (noReturn : c ≠ '\r')
    (alone : Sign.longest? [c] = some found) (size : found.1.length = 1)
    (stop : ∀ x ∈ after.head?, x = ' ' ∨ x = '\n') : Sign.longest? (c :: after) = some found := by
  by_cases feed : after.head? = some '\n'
  · obtain ⟨more, rfl⟩ := List.head?_eq_some_iff.1 feed
    have other : [c] ≠ ['\r'] := fun same => noReturn (List.cons.inj same).1
    exact (Sign.longest?_append_lineFeed (List.cons_ne_nil c []) other more).trans alone
  · have gap : SpaceOrEnd after := fun x first =>
      (stop x first).resolve_right fun same => feed (same ▸ first)
    have whole : Sign.longest? ([c] ++ ([] ++ [])) = some found := alone
    exact Sign.longest?_tail whole size (.inl rfl) gap

theorem readBefore_delimiter {c : Char} {d : Delimiter} (opens : opensSign c = true)
    (alone : Sign.longest? [c] = some (String.singleton c, .delimiter d)) (noDot : d ≠ .dot)
    (stop : ∀ x ∈ after.head?, x = ' ' ∨ x = '\n') :
    ReadBefore ⟨.sign (.delimiter d), [c]⟩ after := by
  have noReturn : c ≠ '\r' := by
    rintro rfl
    have lineEnd := alone.symm.trans (by decide +kernel : _ = some ("\r", Sign.lineEnd))
    cases lineEnd
  have longest := longest?_alone noReturn alone (by simp) stop
  simp only [opensSign, Bool.not_eq_true', Bool.or_eq_false_iff, List.contains_eq_mem,
    decide_eq_false_iff_not, List.mem_cons, List.not_mem_nil, or_false, not_or] at opens
  obtain ⟨⟨⟨blank, digit⟩, name⟩, hyphen, comment, directive, percent, mark⟩ := opens
  refine ⟨c, after, rfl, fun lookback lineRead => ?_⟩
  have sign : sign? lookback (c :: after) = some ⟨.sign (.delimiter d), [c]⟩ := by
    rw [sign?, longest]
    simp [noDot]
  rw [read, if_neg (by simp [blank]), if_neg fun hyphens => hyphen hyphens.1, if_neg comment,
    if_neg directive, if_neg (by simp [digit, percent]), if_neg (by simp [name]), if_neg mark,
    sign, Option.getD_some]

end Piece
end TalAnalysis
