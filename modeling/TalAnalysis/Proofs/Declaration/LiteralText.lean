import Mathlib.Data.List.Induction
import TalAnalysis.Analysis
import TalAnalysis.Proofs.Declaration.Lists.Extraction
import TalAnalysis.Proofs.Declaration.Value
import TalAnalysis.Proofs.Editor.Position
import TalAnalysis.Proofs.Lexer.Row
import TalAnalysis.Proofs.Symbol.History
import TalAnalysis.Proofs.Text.Digits

namespace TalAnalysis.Declaration
open Text

/-- The word has the form of a name and is not reserved, in any case. -/
def isIdentifier (word : String) : Bool :=
  (word.toList.head?.map startsName).getD false && word.toList.tail.all continuesName &&
    Keyword.all.all fun k => !sameWord word k.spelling

structure NamedNumber where
  name : String
  value : Nat
  identifier : isIdentifier name = true
  fits : value ≤ maxInteger

namespace NamedNumber

def digits (item : NamedNumber) : String := toString item.value

def text (item : NamedNumber) : String := item.name ++ " = " ++ item.digits

end NamedNumber

def literalText (items : List NamedNumber) : String :=
  "LITERAL " ++ ",\n  ".intercalate (items.map NamedNumber.text) ++ ";"

def literalFront (before : List NamedNumber) : String :=
  "LITERAL " ++ String.join (before.map fun item => item.text ++ ",\n  ")

def NamedNumber.symbolAfter (before : List NamedNumber) (item : NamedNumber) : Symbol :=
  let start := byteLength (literalFront before).toList
  let column := if before.isEmpty then 8 else 2
  { key := ⟨globalContext, item.name, .none⟩
    kind := .literal
    type := .value
    name := item.name
    value := .text item.digits
    context := globalContext
    line := before.length
    startColumn := column
    endColumn := column + item.name.length
    span := ⟨start, start + byteLength item.name.toList⟩ }

theorem NamedNumber.exists_name (item : NamedNumber) : ∃ c name, item.name.toList = c :: name ∧
    startsName c = true ∧ (∀ d ∈ name, continuesName d = true) ∧
      TokenKind.ofWord item.name = .name item.name := by
  have identifier := item.identifier
  simp only [isIdentifier, Bool.and_eq_true, List.all_eq_true, Bool.not_eq_true'] at identifier
  obtain ⟨⟨opens, inName⟩, free⟩ := identifier
  cases spelled : item.name.toList with
  | nil => rw [spelled] at opens; cases opens
  | cons c name =>
      rw [spelled] at opens inName
      exact ⟨c, name, rfl, opens, inName, TokenKind.ofWord_of_notReserved free⟩

theorem NamedNumber.toList_digits (item : NamedNumber) :
    item.digits.toList = Nat.toDigits 10 item.value := Nat.toList_repr

def NamedNumber.row (item : NamedNumber) : List Piece :=
  [⟨.word, item.name.toList⟩, ⟨.blanks, [' ']⟩, ⟨.sign (.delimiter .equal), ['=']⟩,
    ⟨.blanks, [' ']⟩, ⟨.number item.value, item.digits.toList⟩]

def itemBreak : List Piece :=
  [⟨.sign (.delimiter .comma), [',']⟩, ⟨.sign .lineEnd, ['\n']⟩, ⟨.blanks, [' ', ' ']⟩]

def itemsRow : NamedNumber → List NamedNumber → List Piece
  | item, [] => item.row ++ [⟨.sign (.delimiter .semicolon), [';']⟩]
  | item, next :: others => item.row ++ (itemBreak ++ itemsRow next others)

def literalRow (item : NamedNumber) (others : List NamedNumber) : List Piece :=
  [⟨.word, ['L', 'I', 'T', 'E', 'R', 'A', 'L']⟩, ⟨.blanks, [' ']⟩] ++ itemsRow item others

variable {after : List Char}

theorem rowText_item (item : NamedNumber) : rowText item.row = item.text.toList := by
  simp [rowText, NamedNumber.row, NamedNumber.text]

theorem rowText_itemsRow (item : NamedNumber) (others : List NamedNumber) :
    rowText (itemsRow item others) =
      (",\n  ".intercalate ((item :: others).map NamedNumber.text)).toList ++ [';'] := by
  induction others generalizing item with
  | nil => rw [itemsRow, rowText_append, rowText_item]; rfl
  | cons next others ih =>
      rw [itemsRow, rowText_append, rowText_append, rowText_item, ih]
      simp [rowText, itemBreak]

theorem rowText_literalRow (item : NamedNumber) (others : List NamedNumber) :
    String.ofList (rowText (literalRow item others)) = literalText (item :: others) := by
  rw [literalRow, rowText_append, rowText_itemsRow, ← String.toList_inj, String.toList_ofList]
  simp [rowText, literalText]

theorem exists_itemsRow (item : NamedNumber) (others : List NamedNumber) :
    ∃ row, itemsRow item others = item.row ++ row := by
  cases others with
  | nil => exact ⟨_, rfl⟩
  | cons next others => exact ⟨_, rfl⟩

theorem head?_rowText (item : NamedNumber) (others : List NamedNumber) :
    ∀ c ∈ (rowText (itemsRow item others)).head?, startsName c = true := by
  obtain ⟨c, name, spelled, opens, -⟩ := item.exists_name
  obtain ⟨row, cut⟩ := exists_itemsRow item others
  intro d first
  rw [cut, rowText_append, rowText_item, NamedNumber.text] at first
  simp only [String.toList_append, spelled, List.cons_append] at first
  exact Option.some.inj first ▸ opens

theorem space_written (stop : StopsBefore isBlank after) :
    Piece.ReadBefore ⟨.blanks, [' ']⟩ after :=
  Piece.readBefore_blanks (List.cons_ne_nil _ _) (List.all_eq_true.1 rfl) stop

theorem item_written (item : NamedNumber) (stop : StopsBefore Piece.goesOnNumeral after) :
    RowBefore item.row after := by
  obtain ⟨c, name, spelled, opens, inName, -⟩ := item.exists_name
  have some : item.digits.toList ≠ [] := item.toList_digits ▸ Nat.toDigits_ne_nil
  have decimal : ∀ d ∈ item.digits.toList, d.isDigit = true := by
    rw [item.toList_digits]
    exact fun d => Nat.isDigit_of_mem_toDigits (by decide) (by decide)
  have number : numberIn 10 item.digits.toList = item.value := by
    rw [item.toList_digits, numberIn_toDigits (by decide) (by decide)]
  refine ⟨?_, ?_, ?_, ?_, ?_, trivial⟩
  · rw [spelled]
    exact Piece.readBefore_word opens inName fun d first => Option.some.inj first ▸ rfl
  · exact space_written fun d first => Option.some.inj first ▸ rfl
  · exact Piece.readBefore_delimiter (by decide) (by decide +kernel) (by decide)
      fun d first => .inl (Option.some.inj first).symm
  · obtain ⟨d, digits, cut⟩ := List.exists_cons_of_ne_nil some
    refine space_written fun e first => ?_
    simp only [rowText, List.flatMap_cons, cut, List.cons_append] at first
    obtain rfl := Option.some.inj first
    exact not_isBlank_of_isDigit (decimal d (cut ▸ List.mem_cons_self))
  · have read := Piece.readBefore_number some decimal stop
    rw [number] at read
    exact read

theorem itemBreak_written (opens : ∀ c ∈ after.head?, startsName c = true) :
    RowBefore itemBreak after := by
  refine ⟨?_, Piece.readBefore_lineFeed _, ?_, trivial⟩
  · exact Piece.readBefore_delimiter (by decide) (by decide +kernel) (by decide)
      fun c first => .inr (Option.some.inj first).symm
  · exact Piece.readBefore_blanks (List.cons_ne_nil _ _) (List.all_eq_true.1 rfl)
      fun c first => (ne_of_startsName (opens c first)).1

theorem itemsRow_written (item : NamedNumber) (others : List NamedNumber) :
    RowBefore (itemsRow item others) [] := by
  induction others generalizing item with
  | nil =>
      have semicolon : RowBefore [⟨.sign (.delimiter .semicolon), [';']⟩] [] := by
        refine ⟨?_, trivial⟩
        exact Piece.readBefore_delimiter (by decide) (by decide +kernel) (by decide)
          fun c first => nomatch first
      refine (item_written item fun c first => ?_).append semicolon
      exact Option.some.inj first ▸ rfl
  | cons next others ih =>
      have opens := head?_rowText next others
      refine (item_written item fun c first => ?_).append ((itemBreak_written ?_).append (ih next))
      · exact Option.some.inj first ▸ rfl
      · rwa [List.append_nil]

theorem literalRow_written (item : NamedNumber) (others : List NamedNumber) :
    RowBefore (literalRow item others) [] := by
  refine RowBefore.append ⟨?_, ?_, trivial⟩ (itemsRow_written item others)
  · refine Piece.readBefore_word rfl (List.all_eq_true.1 rfl) fun c first => ?_
    exact Option.some.inj first ▸ rfl
  · refine space_written fun c first => ?_
    rw [List.append_nil] at first
    exact (ne_of_startsName (head?_rowText item others c first)).1

def NamedNumber.part (before : List Char) (lead : Gap) (item : NamedNumber) : LiteralPart :=
  let named := before ++ item.name.toList
  let equal := named ++ [' '] ++ ['='] ++ [' ']
  let number := Token.writtenAfter equal (.number item.value) item.digits.toList
  have noBracket (d : Delimiter) : ∀ t ∈ [number], t.isDelimiter d = false := by
    rintro t (_ | ⟨_, ⟨⟩⟩)
    rfl
  { lead
    name := ⟨.writtenAfter before (.name item.name) item.name.toList, rfl⟩
    gap := .none
    equal := ⟨.writtenAfter (named ++ [' ']) (.delimiter .equal) ['='], rfl⟩
    value :=
      { tokens := [number]
        round := balanced_flat fun t member => ⟨noBracket _ t member, noBracket _ t member⟩
        square := balanced_flat fun t member => ⟨noBracket _ t member, noBracket _ t member⟩
        inBrackets := by
          intro n inside sep
          have member := List.getElem_mem inside
          rw [separates, noBracket _ _ member, noBracket _ _ member] at sep
          cases sep } }

def commaAfter (before : List Char) : TokenOf (.delimiter .comma) :=
  ⟨.writtenAfter before (.delimiter .comma) [','], rfl⟩

def lineFeedAfter (before : List Char) : Gap where
  tokens := [.writtenAfter before .newLine ['\n']]
  layout := by
    rintro t (_ | ⟨_, ⟨⟩⟩)
    rfl

def literalParts (before : List Char) (lead : Gap) :
    NamedNumber → List NamedNumber → Separated LiteralPart
  | item, [] => .one (item.part before lead)
  | item, next :: others =>
    let stop := before ++ rowText item.row
    .more (item.part before lead) (commaAfter stop)
      (literalParts (stop ++ rowText itemBreak) (lineFeedAfter (stop ++ [','])) next others)

theorem rowTokens_item (before : List Char) (lead : Gap) (item : NamedNumber) :
    lead.tokens ++ rowTokens before item.row = (item.part before lead).tokens := by
  obtain ⟨-, -, -, -, -, isName⟩ := item.exists_name
  have name : (⟨.word, item.name.toList⟩ : Piece).kind? = some (.name item.name) := by
    rw [Piece.kind?, String.ofList_toList, isName]
  have number : (⟨.number item.value, item.digits.toList⟩ : Piece).kind? =
      some (.number item.value) := by
    change some (TokenKind.number (min item.value maxInteger : Nat)) = _
    rw [Nat.min_eq_left item.fits]
  rw [NamedNumber.row, rowTokens_token name rfl, rowTokens_silent rfl, rowTokens_token rfl rfl,
    rowTokens_silent rfl, rowTokens_token number rfl]
  rfl

theorem rowTokens_itemBreak (before : List Char) : rowTokens before itemBreak =
    (commaAfter before).token :: (lineFeedAfter (before ++ [','])).tokens := by
  rw [itemBreak, rowTokens_token rfl rfl, rowTokens_token rfl rfl, rowTokens_silent rfl]
  rfl

theorem tokens_itemsRow (before : List Char) (lead : Gap) (item : NamedNumber)
    (others : List NamedNumber) : ∃ stop : TokenOf (.delimiter .semicolon),
      lead.tokens ++ rowTokens before (itemsRow item others) =
        (literalParts before lead item others).tokens LiteralPart.tokens ++ [stop.token] := by
  induction others generalizing before lead item with
  | nil =>
      refine ⟨⟨.writtenAfter (before ++ rowText item.row) (.delimiter .semicolon) [';'], rfl⟩, ?_⟩
      rw [itemsRow, rowTokens_append, ← List.append_assoc, rowTokens_item,
        rowTokens_token rfl rfl]
      rfl
  | cons next others ih =>
      let stop := before ++ rowText item.row
      obtain ⟨semicolon, later⟩ :=
        ih (stop ++ rowText itemBreak) (lineFeedAfter (stop ++ [','])) next
      refine ⟨semicolon, ?_⟩
      rw [itemsRow, rowTokens_append, rowTokens_append, ← List.append_assoc, rowTokens_item,
        rowTokens_itemBreak, List.cons_append, later, literalParts, Separated.tokens,
        List.append_assoc (item.part before lead).tokens]
      rfl

theorem literalFront_concat (before : List NamedNumber) (item : NamedNumber) :
    (literalFront (before ++ [item])).toList =
      (literalFront before).toList ++ rowText item.row ++ rowText itemBreak := by
  rw [rowText_item]
  simp [literalFront, rowText, itemBreak]

theorem lineEnds_lineFeed {text : List Char} (noReturn : text.getLast? ≠ some '\r') :
    lineEnds (text ++ ['\n']) = lineEnds text + 1 := by
  induction text with
  | nil => rfl
  | cons c text ih =>
      have later : text.getLast? ≠ some '\r' := Reader.getLast?_drop_ne noReturn 1
      rw [List.cons_append, lineEnds_cons, lineEnds_cons, ih later,
        Reader.breaksLine_append_lineFeed noReturn, Nat.add_right_comm]

theorem lastLine_lineFeed (text : List Char) : lastLine (text ++ ['\n']) = [] := by
  simp [lastLine, isLineBreak]

theorem onLine_item (item : NamedNumber) : ∀ c ∈ rowText item.row, isLineBreak c = false := by
  obtain ⟨d, name, spelled, opens, inName, -⟩ := item.exists_name
  have breaks {c : Char} (h : isLineBreak c = true) : c = '\n' ∨ c = '\r' := by
    simpa [isLineBreak] using h
  rw [rowText_item, NamedNumber.text]
  simp only [String.toList_append, spelled, List.cons_append, List.mem_cons, List.mem_append]
  intro c member
  refine Bool.eq_false_iff.2 fun break_ => ?_
  rcases member with rfl | (inside | sign) | digit
  · rcases breaks break_ with rfl | rfl <;> exact absurd opens (by decide)
  · rcases breaks break_ with rfl | rfl <;> exact absurd (inName _ inside) (by decide)
  · rcases breaks break_ with rfl | rfl <;> exact absurd sign (by decide)
  · rw [item.toList_digits] at digit
    have isDigit := Nat.isDigit_of_mem_toDigits (by decide) (by decide) digit
    rcases breaks break_ with rfl | rfl <;> exact absurd isDigit (by decide)

theorem place_literalFront (before : List NamedNumber) :
    lineEnds (literalFront before).toList = before.length ∧
      (lastLine (literalFront before).toList).length = if before.isEmpty then 8 else 2 := by
  induction before using List.reverseRecOn with
  | nil => exact ⟨by decide +kernel, by decide +kernel⟩
  | append_singleton before item ih =>
      have comma : ∀ c ∈ [','], isLineBreak c = false := by simp [isLineBreak]
      have blanks : ∀ c ∈ [' ', ' '], isLineBreak c = false := by simp [isLineBreak]
      let line := (literalFront before).toList ++ rowText item.row ++ [',']
      have cut : (literalFront (before ++ [item])).toList = (line ++ ['\n']) ++ [' ', ' '] := by
        rw [literalFront_concat]
        simp [line, rowText, itemBreak]
      have noReturn : line.getLast? ≠ some '\r' := by simp [line]
      constructor
      · rw [cut, lineEnds_append_onLine _ blanks, lineEnds_lineFeed noReturn,
          lineEnds_append_onLine _ comma, lineEnds_append_onLine _ (onLine_item item), ih.1,
          List.length_append, List.length_singleton]
      · rw [cut, lastLine_append_onLine _ blanks, lastLine_lineFeed]
        simp

theorem firstLineWidth_name (item : NamedNumber) :
    Token.firstLineWidth item.name.toList = item.name.length := by
  have onLine : ∀ c ∈ item.name.toList, isLineBreak c = false := by
    intro c member
    apply onLine_item item c
    rw [rowText_item, NamedNumber.text]
    simp [member]
  rw [Editor.firstLineWidth_onLine onLine, String.length_toList]

theorem symbol_part (before : List NamedNumber) (lead : Gap) (item : NamedNumber) :
    (item.part (literalFront before).toList lead).symbol globalContext =
      item.symbolAfter before := by
  obtain ⟨lines, width⟩ := place_literalFront before
  have digits : Token.joinText (item.part (literalFront before).toList lead).value.tokens =
      item.digits := (joinText_singleton rfl).trans String.ofList_toList
  rw [LiteralPart.symbol, digits]
  simp only [NamedNumber.part, Symbol.declaredAt, Token.writtenAfter, Token.write, lines, width,
    String.ofList_toList, firstLineWidth_name]
  rfl

def literalSymbols (before : List NamedNumber) : List NamedNumber → List Symbol
  | [] => []
  | item :: others => item.symbolAfter before :: literalSymbols (before ++ [item]) others

theorem symbols_literalParts (before : List NamedNumber) (lead : Gap) (item : NamedNumber)
    (others : List NamedNumber) :
    (literalParts (literalFront before).toList lead item others).items.map
        (LiteralPart.symbol globalContext) = literalSymbols before (item :: others) := by
  induction others generalizing before lead item with
  | nil => rw [literalParts, Separated.items, List.map_singleton, symbol_part]; rfl
  | cons next others ih =>
      rw [literalParts, Separated.items, List.map_cons, symbol_part, ← literalFront_concat, ih]
      rfl

theorem literalSymbols_eq_append {done items : List NamedNumber} {before after : List Symbol}
    {s : Symbol} (cut : literalSymbols done items = before ++ s :: after) :
    ∃ earlier item later, items = earlier ++ item :: later ∧
      s = item.symbolAfter (done ++ earlier) ∧
      after = literalSymbols (done ++ earlier ++ [item]) later := by
  induction before generalizing done items with
  | nil =>
      cases items with
      | nil => cases cut
      | cons item later =>
          obtain ⟨rfl, rfl⟩ := List.cons.inj cut
          exact ⟨[], item, later, rfl, by rw [List.append_nil], by rw [List.append_nil]⟩
  | cons t before ih =>
      cases items with
      | nil => cases cut
      | cons first items =>
          obtain ⟨earlier, item, later, rfl, rfl, rfl⟩ := ih (List.cons.inj cut).2
          exact ⟨first :: earlier, item, later, rfl, by simp, by simp⟩

theorem keys_literalSymbols (before items : List NamedNumber) :
    (literalSymbols before items).map Symbol.key =
      items.map fun item => ⟨globalContext, item.name, .none⟩ := by
  induction items generalizing before with
  | nil => rfl
  | cons item items ih => rw [literalSymbols, List.map_cons, List.map_cons, ih]; rfl

theorem silent_item (item : NamedNumber) : ∀ p ∈ item.row, p.Silent := by
  have number : Piece.Silent ⟨.number item.value, item.digits.toList⟩ := fun _ =>
    if_neg (Nat.not_lt.2 item.fits)
  simp only [NamedNumber.row, List.forall_mem_cons]
  exact ⟨fun _ => rfl, fun _ => rfl, fun _ => rfl, fun _ => rfl, number, nofun⟩

theorem silent_itemBreak : ∀ p ∈ itemBreak, p.Silent := by
  simp only [itemBreak, List.forall_mem_cons]
  exact ⟨fun _ => rfl, fun _ => rfl, fun _ => rfl, nofun⟩

theorem silent_itemsRow (item : NamedNumber) (others : List NamedNumber) :
    ∀ p ∈ itemsRow item others, p.Silent := by
  induction others generalizing item with
  | nil =>
      refine List.forall_mem_append.2 ⟨silent_item item, ?_⟩
      exact List.forall_mem_singleton.2 fun _ => rfl
  | cons next others ih =>
      exact List.forall_mem_append.2 ⟨silent_item item,
        List.forall_mem_append.2 ⟨silent_itemBreak, ih next⟩⟩

theorem lex_literalText (item : NamedNumber) (others : List NamedNumber) :
    ∃ keyword stop, lex (literalText (item :: others)) {} =
      { tokens := (DeclarationList.literal keyword
          (literalParts (literalFront []).toList .none item others) stop).tokens
        diagnostics := [] } := by
  have read : pieces false (literalText (item :: others)) = placed [] (literalRow item others) := by
    rw [← rowText_literalRow]
    exact pieces_row (literalRow_written item others)
  have front : (literalFront []).toList = ['L', 'I', 'T', 'E', 'R', 'A', 'L'] ++ [' '] := by
    decide +kernel
  have reserved : (⟨.word, ['L', 'I', 'T', 'E', 'R', 'A', 'L']⟩ : Piece).kind? =
      some (.keyword .literal) := by
    decide +kernel
  have silent : ∀ p ∈ literalRow item others, p.Silent := by
    refine List.forall_mem_append.2 ⟨?_, silent_itemsRow item others⟩
    simp only [List.forall_mem_cons]
    exact ⟨fun _ => rfl, fun _ => rfl, nofun⟩
  obtain ⟨stop, items⟩ := tokens_itemsRow (literalFront []).toList .none item others
  let keyword : TokenOf (.keyword .literal) :=
    ⟨.writtenAfter [] (.keyword .literal) ['L', 'I', 'T', 'E', 'R', 'A', 'L'], rfl⟩
  have tokens : rowTokens [] (literalRow item others) = (DeclarationList.literal keyword
      (literalParts (literalFront []).toList .none item others) stop).tokens := by
    rw [literalRow, List.cons_append, rowTokens_token reserved rfl, List.cons_append,
      rowTokens_silent rfl, DeclarationList.tokens, ← items, front]
    rfl
  refine ⟨keyword, stop, ?_⟩
  rw [← tokens, ← silent_placed silent [], rowTokens, ← read]
  rfl

theorem front_literalText (before : List NamedNumber) (item : NamedNumber)
    (after : List NamedNumber) :
    (literalFront before ++ item.text).toList <+:
      (literalText (before ++ item :: after)).toList := by
  have inner : ((before.map fun item => item.text ++ ",\n  ").flatMap String.toList ++
      item.text.toList) <+:
        (",\n  ".intercalate ((before ++ item :: after).map NamedNumber.text)).toList := by
    induction before with
    | nil => cases after <;> simp
    | cons first before ih =>
        rw [String.toList_intercalate] at ih ⊢
        rw [List.cons_append, List.map_cons, List.map_cons, List.map_cons,
          List.intercalate_cons_of_ne_nil (by simp)]
        simpa using ih
  rw [literalFront, literalText]
  simp only [String.toList_append, String.toList_join, List.append_assoc]
  exact (List.prefix_append_right_inj _).2 (inner.trans (List.prefix_append _ _))

/-- A list is analysed without a diagnostic. Each of its names stands for the last item that has it,
in the order of the first items. -/
theorem analyze_literalText {items : List NamedNumber} (some : items ≠ []) :
    let analysis := analyze (literalText items)
    analysis.diagnostics = [] ∧
      analysis.symbols.keys =
        (items.map fun item => ⟨globalContext, item.name, .none⟩).eraseDups ∧
      ∀ s ∈ analysis.symbols.symbols, ∃ before item after, items = before ++ item :: after ∧
        (∀ later ∈ after, later.name ≠ item.name) ∧ s = item.symbolAfter before ∧
        (literalFront before ++ item.text).toList <+: (literalText items).toList := by
  intro analysis
  obtain ⟨first, others, rfl⟩ := List.exists_cons_of_ne_nil some
  obtain ⟨keyword, stop, lexed⟩ := lex_literalText first others
  have symbols : (DeclarationList.literal keyword
      (literalParts (literalFront []).toList .none first others) stop).symbols globalContext =
        literalSymbols [] (first :: others) := symbols_literalParts [] .none first others
  have extracted : extract (lex (literalText (first :: others)) {}).tokens =
      ⟨.ofList (literalSymbols [] (first :: others)), []⟩ := by
    rw [lexed, extract_declarationList, symbols]
  have table : analysis.symbols = .ofList (literalSymbols [] (first :: others)) :=
    congrArg Extracted.symbols extracted
  refine ⟨?_, ?_, fun s member => ?_⟩
  · exact congrArg₂ (· ++ ·) (congrArg Lexed.diagnostics lexed)
      (congrArg Extracted.diagnostics extracted)
  · rw [table, SymbolTable.keys_ofList, keys_literalSymbols]
  · have found : analysis.symbols.get? s.key = .some s :=
      SymbolTable.get?_key (table ▸ SymbolTable.nodup_keys_ofList _) member
    rw [table, SymbolTable.get?_ofList, List.find?_eq_some_iff_append] at found
    obtain ⟨-, after, before, cut, apart⟩ := found
    rw [List.reverse_eq_iff, List.reverse_append, List.reverse_cons, List.append_assoc,
      List.singleton_append] at cut
    obtain ⟨earlier, item, later, split, rfl, rest⟩ := literalSymbols_eq_append cut
    refine ⟨earlier, item, later, split, fun other listed same => ?_, rfl, ?_⟩
    · have key : ⟨globalContext, other.name, .none⟩ ∈ after.reverse.map Symbol.key := by
        rw [rest, keys_literalSymbols]
        exact List.mem_map_of_mem listed
      obtain ⟨t, last, keyed⟩ := List.mem_map.1 key
      have other := apart t (List.mem_reverse.1 last)
      rw [keyed, same] at other
      simp [NamedNumber.symbolAfter] at other
    · rw [split]
      exact front_literalText earlier item later

/-- The items `x = 1`, `$y^2 = 20` and `x = 9223372036854775807`. -/
def repeatedItems : List NamedNumber :=
  [⟨"x", 1, by decide +kernel, by decide⟩, ⟨"$y^2", 20, by decide +kernel, by decide⟩,
    ⟨"x", maxInteger, by decide +kernel, Nat.le_refl _⟩]

theorem analyze_repeatedItems :
    literalText repeatedItems = "LITERAL x = 1,\n  $y^2 = 20,\n  x = 9223372036854775807;" ∧
      (analyze (literalText repeatedItems)).diagnostics = [] ∧
      (analyze (literalText repeatedItems)).symbols.keys =
        [⟨globalContext, "x", .none⟩, ⟨globalContext, "$y^2", .none⟩] := by
  have some : repeatedItems ≠ [] := List.cons_ne_nil _ _
  obtain ⟨silent, keys, -⟩ := analyze_literalText some
  exact ⟨by decide +kernel, silent, keys.trans (by decide +kernel)⟩

end TalAnalysis.Declaration
