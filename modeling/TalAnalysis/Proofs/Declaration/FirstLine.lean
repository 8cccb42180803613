import TalAnalysis.Analysis
import TalAnalysis.Proofs.Declaration.Copy.Run
import TalAnalysis.Proofs.Declaration.Lookback
import TalAnalysis.Proofs.Symbol.Table

namespace TalAnalysis.Declaration
open Text

variable {e : Token}

theorem argument_append (ends : e.kind.endsLine = true) (wholeLine : Bool) (depth : Nat)
    (line after : List Token) :
    argument wholeLine depth (line ++ e :: after) =
      ⟨(argument wholeLine depth line).inside,
        (argument wholeLine depth line).rest ++ e :: after⟩ := by
  fun_induction argument wholeLine depth line with
  | case1 => rw [List.nil_append, argument, if_pos ends]
  | case2 depth t line stops => rw [List.cons_append, argument, if_pos stops]
  | case3 depth t line inLine comma =>
      rw [List.cons_append, argument, if_neg inLine, if_pos comma]
  | case4 depth t line inLine other deeper ih =>
      rw [List.cons_append, argument, if_neg inLine, if_neg other]
      exact congrArg (Window.cons t) ih

theorem argumentItem_append (ends : e.kind.endsLine = true) (t : Token) (name : String)
    (wholeLine : Bool) (line after : List Token) :
    argumentItem t name wholeLine (line ++ e :: after) =
      ((argumentItem t name wholeLine line).1,
        (argumentItem t name wholeLine line).2 ++ e :: after) := by
  simp only [argumentItem, argument_append ends]

theorem targetItem_append (ends : e.kind.endsLine = true) (t : Token) (line after : List Token) :
    targetItem t (line ++ e :: after) =
      ((targetItem t line).1, (targetItem t line).2 ++ e :: after) := by
  cases line with
  | nil => simp [targetItem, ends]
  | cons next line =>
      rw [List.cons_append, targetItem, targetItem]
      split <;> rfl

theorem not_isDelimiter_of_endsLine (ends : e.kind.endsLine = true) (d : Delimiter) :
    e.isDelimiter d = false := not_isDelimiter_of_isLayout (isLayout_of_endsLine ends) d

theorem opensWith_of_closed {line : List Token}
    (closed : ∀ u ∈ line, u.isDelimiter .lParen = false) : opensWith line .lParen = false := by
  cases line with
  | nil => rfl
  | cons u line => simpa [opensWith] using closed u List.mem_cons_self

theorem sourceItem_append (ends : e.kind.endsLine = true) (t : Token) {line : List Token}
    (closed : ∀ u ∈ line, u.isDelimiter .lParen = false) (after : List Token) :
    sourceItem t (line ++ e :: after) =
      ((sourceItem t line).1, (sourceItem t line).2 ++ e :: after) := by
  let inFile (u : Token) : Bool := !endsFile u
  have stops : inFile e = false := by simp [inFile, endsFile, ends]
  have noList : ∀ u ∈ line.dropWhile inFile, u.isDelimiter .lParen = false :=
    fun u member => closed u ((List.dropWhile_suffix _).subset member)
  have noMore : opensWith (line.dropWhile inFile ++ e :: after) .lParen = false := by
    cases found : line.dropWhile inFile with
    | nil => simp [opensWith, not_isDelimiter_of_endsLine ends]
    | cons u rest =>
        have isClosed := noList u (found ▸ List.mem_cons_self)
        simpa [opensWith] using isClosed
  have file : (line ++ e :: after).takeWhile inFile = line.takeWhile inFile :=
    takeWhile_append_stop stops line after
  have left : (line ++ e :: after).dropWhile inFile = line.dropWhile inFile ++ e :: after :=
    dropWhile_append_stop stops line after
  rw [sourceItem, sourceItem, file, left, opensWith_of_closed noList, noMore]
  rfl

theorem directiveItem_append (ends : e.kind.endsLine = true) (t : Token) {line : List Token}
    (closed : ∀ u ∈ line, u.isDelimiter .lParen = false) (after : List Token) :
    directiveItem t (line ++ e :: after) =
      ((directiveItem t line).1, (directiveItem t line).2 ++ e :: after) := by
  simp only [directiveItem]
  split
  · exact sourceItem_append ends t closed after
  · exact targetItem_append ends t line after
  · split
    · rfl
    · exact argumentItem_append ends t _ _ line after
  · exact argumentItem_append ends t _ _ line after

theorem directiveLine_append (ends : e.kind.endsLine = true) {line : List Token}
    (inLine : ∀ u ∈ line, u.kind.endsLine = false)
    (closed : ∀ u ∈ line, u.isDelimiter .lParen = false) (after : List Token) :
    directiveLine (line ++ e :: after) = ((directiveLine line).1, after) := by
  fun_induction directiveLine line with
  | case1 => rw [List.nil_append, directiveLine, if_pos ends]
  | case2 t line stops => rw [inLine t List.mem_cons_self] at stops; cases stops
  | case3 t line here word _ others ih =>
      have tail := (directiveItem_suffix t line).trans (List.suffix_cons t line)
      rw [List.cons_append, directiveLine, if_neg here, if_pos word,
        directiveItem_append ends t (fun u member => closed u (List.mem_cons_of_mem t member)),
        ih (fun u member => inLine u (tail.subset member))
          (fun u member => closed u (tail.subset member))]
  | case4 t line here other ih =>
      rw [List.cons_append, directiveLine, if_neg here, if_neg other]
      exact ih (fun u member => inLine u (List.mem_cons_of_mem t member))
        (fun u member => closed u (List.mem_cons_of_mem t member))

theorem directiveLine_rest {line : List Token} (inLine : ∀ u ∈ line, u.kind.endsLine = false) :
    (directiveLine line).2 = [] := by
  fun_induction directiveLine line with
  | case1 => rfl
  | case2 t line stops => rw [inLine t List.mem_cons_self] at stops; cases stops
  | case3 t line _ _ _ _ ih =>
      have tail := (directiveItem_suffix t line).trans (List.suffix_cons t line)
      exact ih fun u member => inLine u (tail.subset member)
  | case4 t line _ _ ih => exact ih fun u member => inLine u (List.mem_cons_of_mem t member)

def shifted (bytes lines : Nat) : TokenCopy where
  leavesOut _ := false
  copy := Token.shift bytes lines
  layout _ := Bool.noConfusion
  kind _ := .inl rfl
  text _ := rfl
  gap _ _ := Nat.add_lt_add_iff_right

theorem tokens_shifted (bytes lines : Nat) (tokens : List Token) :
    (shifted bytes lines).tokens tokens = tokens.map (Token.shift bytes lines) := by
  simp [TokenCopy.tokens, shifted]

theorem endKept_shifted (bytes lines : Nat) (tokens : List Token) :
    (shifted bytes lines).EndKept tokens := by
  induction tokens with
  | nil => trivial
  | cons t tokens ih =>
      rw [TokenCopy.EndKept]
      split
      · exact Bool.noConfusion
      · exact ih

theorem listKept_shifted (bytes lines depth : Nat) (tokens : List Token) :
    (shifted bytes lines).listKept depth tokens = true := by
  fun_induction (shifted bytes lines).listKept depth tokens with
  | case4 depth t ends marker rest other =>
      rw [tokens_shifted]
      simpa [Token.shift] using other
  | case3 _ _ _ _ rest _ ih =>
      rw [ih, Bool.and_true, decide_eq_true_eq]
      exact endKept_shifted bytes lines rest
  | case5 _ _ _ _ _ ih | case7 _ _ _ _ _ _ ih | case8 _ _ _ _ _ _ ih =>
      exact ih
  | _ => rfl

theorem lineKept_shifted (bytes lines : Nat) (tokens : List Token) :
    (shifted bytes lines).LineKept tokens := by
  refine ⟨endKept_shifted bytes lines tokens, ?_⟩
  fun_induction TokenCopy.ItemsKept (shifted bytes lines) tokens with
  | case1 | case2 => trivial
  | case3 _ _ _ _ _ ih =>
      exact ⟨⟨fun _ _ _ => Bool.noConfusion, fun _ _ => listKept_shifted _ _ _ _⟩, ih⟩
  | case4 _ _ _ _ ih => exact ih

theorem undisturbed_shifted (bytes lines : Nat) (s : State) (tokens : List Token) :
    (shifted bytes lines).Undisturbed s tokens := by
  fun_induction TokenCopy.Undisturbed (shifted bytes lines) s tokens with
  | case1 => trivial
  | case2 s t tokens _ ih =>
      exact ⟨⟨fun _ => lineKept_shifted bytes lines tokens, fun _ _ _ _ => rfl⟩, ih⟩

end TalAnalysis.Declaration

namespace TalAnalysis
open Text Declaration

def SymbolValue.shift (bytes lines : Nat) : SymbolValue → SymbolValue
  | .none => .none
  | .text t => .text t
  | .tokens ts => .tokens (ts.map (Token.shift bytes lines))

def Symbol.shift (bytes lines : Nat) (s : Symbol) : Symbol :=
  { s with
    value := s.value.shift bytes lines
    line := s.line + lines
    span := s.span.shift bytes }

variable {bytes lines : Nat}

theorem value_shifted (value : SymbolValue) :
    (shifted bytes lines).value value = value.shift bytes lines := by
  cases value with
  | none => rfl
  | text => rfl
  | tokens ts => exact congrArg SymbolValue.tokens (tokens_shifted bytes lines ts)

theorem eq_shift_of_copies {s s' : Symbol} (h : (shifted bytes lines).SymbolCopies s s') :
    s.shift bytes lines = s' := by
  obtain ⟨key, kind, type, name, context, ⟨t, stands, stands'⟩, value⟩ := h
  have line : s'.line = s.line + lines := by rw [stands'.line, stands.line]; rfl
  have startColumn : s'.startColumn = s.startColumn := by
    rw [stands'.startColumn, stands.startColumn]
    rfl
  have endColumn : s'.endColumn = s.endColumn := by rw [stands'.endColumn, stands.endColumn]; rfl
  have span : s'.span = s.span.shift bytes := by rw [stands'.span, stands.span]; rfl
  have same := value.resolve_right (by rintro ⟨-, ⟨u, left⟩, -⟩; cases left)
  rw [value_shifted] at same
  cases s'
  simp_all [Symbol.shift]

theorem eq_map_shift {symbols symbols' : List Symbol}
    (h : List.Forall₂ (shifted bytes lines).SymbolCopies symbols symbols') :
    symbols.map (Symbol.shift bytes lines) = symbols' := by
  induction h with
  | nil => rfl
  | cons first _ ih => rw [List.map_cons, eq_shift_of_copies first, ih]

theorem extract_shifted (bytes lines : Nat) (tokens : List Token) :
    (extract (tokens.map (Token.shift bytes lines))).symbols.symbols =
      (extract tokens).symbols.symbols.map (Symbol.shift bytes lines) := by
  rw [eq_map_shift (TokenCopy.extract_tokens (undisturbed_shifted bytes lines {} tokens)),
    tokens_shifted]

theorem read_mark (groupNames : Bool) (lookback : Lookback) (lineRead rest : List Char) :
    Piece.read groupNames lookback lineRead '?' rest =
      ⟨.directive (lineRead.all isWhiteSpace), ['?']⟩ := by
  simp [Piece.read, isBlank]

theorem piecesFrom_mark (groupNames : Bool) (lookback : Lookback) {blanks line : List Char}
    (blank : ∀ c ∈ blanks, isBlank c = true) {r : Reader}
    (unread : r.rest = blanks ++ '?' :: line) :
    ∃ before mark others opensLine,
      piecesFrom groupNames lookback r = before ++ mark :: others ∧
        (∀ p ∈ before, p.piece.kind? = none) ∧ mark.piece = ⟨.directive opensLine, ['?']⟩ := by
  cases blanks with
  | nil =>
      rw [piecesFrom_cons unread, read_mark]
      exact ⟨[], _, _, _, rfl, List.forall_mem_nil _, rfl⟩
  | cons b blanks =>
      obtain ⟨first, others⟩ := List.forall_mem_cons.1 blank
      have run : Piece.read groupNames lookback r.lineRead b (blanks ++ '?' :: line) =
          ⟨.blanks, b :: blanks⟩ := by
        rw [Piece.read_of_isBlank first, takeWhile_append_stop (by decide),
          List.takeWhile_eq_self_iff.2 others]
      have left : (r.skip (b :: blanks).length).rest = '?' :: line := by
        rw [Reader.rest_skip, unread, List.drop_left]
      rw [List.cons_append] at unread
      rw [piecesFrom_cons unread, run, piecesFrom_cons left, read_mark]
      exact ⟨[⟨⟨.blanks, b :: blanks⟩, r.place⟩], _, _, _, rfl, by simp [Piece.kind?], rfl⟩

theorem exists_mark {p : PlacedPiece} {opensLine : Bool}
    (reads : p.piece = ⟨.directive opensLine, ['?']⟩) (keepComments : Bool) :
    ∃ t, p.token? keepComments = some t ∧ t.kind.marksDirective = true := by
  have kind : p.piece.kind? = some (if opensLine then .directiveLine else .directive) := by
    rw [reads]
    rfl
  refine ⟨_, (token?_of_kind?_some kind).trans (if_pos ?_), ?_⟩
  · cases opensLine <;> exact Bool.or_true keepComments
  · cases opensLine <;> cases keepComments <;> rfl

theorem lex_mark {blanks : List Char} (blank : ∀ c ∈ blanks, isBlank c = true) (line : List Char)
    (options : LexOptions) :
    ∃ mark others,
      (lex (String.ofList (blanks ++ '?' :: line)) options).tokens = mark :: others ∧
        mark.kind.marksDirective = true := by
  let start := Reader.ofText (blanks ++ '?' :: line)
  obtain ⟨before, piece, others, opensLine, cut, silent, reads⟩ :=
    piecesFrom_mark options.groupNames .plain blank (r := start) rfl
  have none : before.filterMap (PlacedPiece.token? options.keepComments) = [] :=
    List.filterMap_eq_nil_iff.2 fun p member => token?_of_kind?_none (silent p member)
  obtain ⟨mark, shown, marks⟩ := exists_mark reads options.keepComments
  refine ⟨mark, others.filterMap (PlacedPiece.token? options.keepComments), ?_, marks⟩
  rw [lex, pieces, String.toList_ofList, cut, List.filterMap_append, none, List.nil_append,
    List.filterMap_cons_some shown]

theorem opens_front {mark : Token} (marks : mark.kind.marksDirective = true)
    {front others : List Token}
    (h : mark :: others = front ∨
      ∃ c, mark :: others = front ++ [c] ∧ c.kind.endsLine = true) :
    ∃ line, front = mark :: line := by
  rcases h with rfl | ⟨c, same, ends⟩
  · exact ⟨others, rfl⟩
  · cases front with
    | cons t front => exact ⟨front, by rw [(List.cons.inj same).1]⟩
    | nil =>
        obtain ⟨rfl, -⟩ := List.cons.inj same
        rcases kind_of_marksDirective marks with kind | kind <;> rw [kind] at ends <;>
          cases ends

theorem findings_directive {mark : Token} (marks : mark.kind.marksDirective = true)
    (tokens : List Token) :
    findings {} (mark :: tokens) =
      (directiveStep {} tokens).findings ++ findings {} (directiveLine tokens).2 := by
  rw [findings_cons, step_of_marksDirective marks]
  rfl

theorem findings_directiveLine {mark e : Token} {line : List Token}
    (marks : mark.kind.marksDirective = true) (ends : e.kind.endsLine = true)
    (inLine : ∀ u ∈ line, u.kind.endsLine = false)
    (closed : ∀ u ∈ line, u.isDelimiter .lParen = false) (after : List Token) :
    findings {} (mark :: line ++ e :: after) = findings {} (mark :: line) ++ findings {} after := by
  have whole := directiveLine_append ends inLine closed after
  rw [List.cons_append, findings_directive marks, findings_directive marks, directiveStep,
    directiveStep, whole, directiveLine_rest inLine]
  simp [findings]

theorem symbols_of_findings_append {tokens first later : List Token}
    (h : findings {} tokens = findings {} first ++ findings {} later) :
    (extract tokens).symbols =
      (extract later).symbols.symbols.foldl SymbolTable.insert (extract first).symbols := by
  simp only [extract, h, List.filterMap_append, SymbolTable.foldl_insert_ofList]
  rw [SymbolTable.ofList, List.foldl_append]
  rfl

theorem not_mem_mark {blanks line : List Char} (blank : ∀ c ∈ blanks, isBlank c = true) {c : Char}
    (other : isBlank c = false ∧ c ≠ '?') (absent : c ∉ line) : c ∉ blanks ++ '?' :: line := by
  simp only [List.mem_append, List.mem_cons, not_or]
  refine ⟨fun before => ?_, other.2, absent⟩
  rw [blank c before] at other
  cases other.1

theorem oneLine_mark {blanks line : List Char} (blank : ∀ c ∈ blanks, isBlank c = true)
    (h : OneLine line) : OneLine (blanks ++ '?' :: line) := by
  refine ⟨fun c member => Bool.eq_false_iff.2 fun breaks => ?_,
    not_mem_mark blank (by decide) h.noQuote⟩
  have absent : c ∉ line := fun inLine => Bool.eq_false_iff.1 (h.onLine c inLine) breaks
  simp only [isLineBreak, Bool.or_eq_true, beq_iff_eq] at breaks
  rcases breaks with rfl | rfl <;> exact not_mem_mark blank (by decide) absent member

theorem lexeme_ne_lineComment {source : String} {options : LexOptions}
    (h : ∀ t ∈ (lex source { options with keepComments := true }).tokens, t.kind ≠ .lineComment) :
    ∀ p ∈ pieces options.groupNames source, p.piece.lexeme ≠ .lineComment := by
  intro p member comment
  have kind : p.piece.kind? = some .lineComment := by rw [Piece.kind?, comment]
  obtain ⟨t, shown, same⟩ : ∃ t, p.token? true = some t ∧ t.kind = .lineComment :=
    exists_token? kind rfl rfl
  exact h t (List.mem_filterMap.2 ⟨p, member, shown⟩) same

theorem analyze_directiveLine {first : String} {blanks line : List Char}
    (written : first.toList = blanks ++ '?' :: line) (blank : ∀ c ∈ blanks, isBlank c = true)
    (oneLine : OneLine line) (noParen : '(' ∉ line) {options : LexOptions}
    (comments : options.keepComments = false →
      ∀ t ∈ (lex first { options with keepComments := true }).tokens, t.kind ≠ .lineComment)
    (rest : String) :
    (analyze (first ++ "\n" ++ rest) options).symbols =
      ((analyze rest options).symbols.symbols.map
        (Symbol.shift (byteLength first.toList + 1) 1)).foldl SymbolTable.insert
          (analyze first options).symbols := by
  have only := oneLine_mark blank oneLine
  have closed := not_mem_mark blank (c := '(') (by decide) noParen
  obtain ⟨mark, others, opens, marks⟩ := lex_mark blank line options
  rw [← written] at only closed
  rw [← written, String.ofList_toList] at opens
  obtain ⟨front, e, lookback, whole, ends, inLine, alone⟩ := lex_firstLine only options
    (fun dropped => by simpa using lexeme_ne_lineComment (comments dropped)) rest.toList
  rw [String.ofList_toList] at alone
  have text : String.ofList (first.toList ++ '\n' :: rest.toList) = first ++ "\n" ++ rest := by
    simp [← String.toList_inj]
  rw [text] at whole
  -- The tokens of the line are the mark and others in line, and one more may end it.
  obtain ⟨front, rfl⟩ := opens_front marks (opens ▸ alone)
  obtain ⟨-, inLine⟩ := List.forall_mem_cons.1 inLine
  have inLine' : ∀ u ∈ front, u.kind.endsLine = false := fun u member => (inLine u member).1
  have closed' : ∀ u ∈ front, u.isDelimiter .lParen = false :=
    fun u member => Bool.eq_false_iff.2 fun opens => closed ((inLine u member).2 opens)
  have apart {e : Token} (ends : e.kind.endsLine = true) (after : List Token) :=
    findings_directiveLine marks ends inLine' closed' after
  -- What ends the line declares nothing, nor does it matter whether more comes after it.
  have found : findings {} (lex first options).tokens = findings {} (mark :: front) := by
    rcases alone with same | ⟨c, same, ends⟩
    · rw [same]
    · rw [same, apart ends, findings, List.append_nil]
  have split := apart ends ((lexAfter lookback rest.toList options).map
    (Token.shift (byteLength first.toList + 1) 1))
  rw [← whole, ← found] at split
  -- The rest is read after the line, but declares what it declares alone.
  have later : (extract (lexAfter lookback rest.toList options)).symbols =
      (analyze rest options).symbols := by
    simp only [analyze, extract, findings_lexAfter, String.ofList_toList]
  rw [analyze, analyze, symbols_of_findings_append split, extract_shifted, later]

theorem analyze_directiveLine_commented :
    let first := " ?SOURCE lib ! all !, LIST ! on"
    let rest := "?NOLIST\nINT list := 1;\nDEFINE d = list #;"
    (∀ t ∈ (lex first { keepComments := true }).tokens, t.kind ≠ .lineComment) ∧
      (analyze (first ++ "\n" ++ rest)).symbols =
        ((analyze rest).symbols.symbols.map
          (Symbol.shift (byteLength first.toList + 1) 1)).foldl SymbolTable.insert
            (analyze first).symbols := by
  intro first rest
  have comments : ∀ t ∈ (lex first { keepComments := true }).tokens, t.kind ≠ .lineComment := by
    decide +kernel
  let line := "SOURCE lib ! all !, LIST ! on".toList
  have written : first.toList = [' '] ++ '?' :: line := by decide
  have blank : ∀ c ∈ [' '], isBlank c = true := by simp [isBlank]
  have onLine : line.all (fun c => !isLineBreak c) = true := by decide
  have oneLine : OneLine line := ⟨by simpa using onLine, by decide⟩
  exact ⟨comments,
    analyze_directiveLine written blank oneLine (by decide) (fun _ => comments) rest⟩

/-- A comment that is dropped with the end of the line leaves what comes next on the line. -/
example : (analyze "?LIST -- on\nINT x;").symbols.symbols.map (fun s => (s.name, s.kind)) =
    [("LIST", .directive), ("INT", .directive)] := by
  decide +kernel

end TalAnalysis
