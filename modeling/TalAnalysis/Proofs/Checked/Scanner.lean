import TalAnalysis.Proofs.Checked.Match
import TalAnalysis.Proofs.Lexer.Name

namespace TalAnalysis.Checked
open Text

structure Scanner extends Lexed where
  cursor : Cursor
deriving DecidableEq, Repr, Inhabited

def firstLineWidth? (text : List Char) : Option Nat := do
  let line := text.takeWhile fun c => !isLineBreak c
  if line.length < text.length then
    let breaks ← tail? text (byteLength line)
    let terminator := if breaks.take 2 = ['\r', '\n'] then 2 else 1
    return (← front? text (byteLength line)).length + terminator
  else return text.length

theorem take_two_eq_pair {c : Char} {text : List Char} :
    (c :: text).take 2 = ['\r', '\n'] ↔ c = '\r' ∧ text.head? = some '\n' := by
  cases text <;> simp

theorem firstLineWidth?_eq (text : List Char) :
    firstLineWidth? text = some (Token.firstLineWidth text) := by
  simp only [firstLineWidth?, front?_takeWhile, tail?_takeWhile, Option.bind_eq_bind,
    Option.bind_some, Option.pure_def, ← apply_ite some, Option.some_inj]
  induction text with
  | nil => rfl
  | cons c text ih =>
      rw [Token.firstLineWidth_cons]
      cases breaks : isLineBreak c with
      | true =>
          have here : c = '\n' ∨ c = '\r' := by simpa [isLineBreak] using breaks
          simp only [List.takeWhile_cons, List.dropWhile_cons, breaks, Bool.not_true, if_pos here,
            Bool.false_eq_true, if_false, List.length_nil, List.length_cons, Nat.zero_add,
            Nat.zero_lt_succ, if_true, take_two_eq_pair]
      | false =>
          obtain ⟨noFeed, noReturn⟩ : c ≠ '\n' ∧ c ≠ '\r' := by simpa [isLineBreak] using breaks
          simp only [List.takeWhile_cons, List.dropWhile_cons, breaks, Bool.not_false, if_true,
            List.length_cons, Nat.add_lt_add_iff_right, noFeed, noReturn, false_and, or_false,
            if_false, ← ih]
          split <;> omega

def add (keepComments : Bool) (found : Lexed) (p : PlacedPiece) : Lexed :=
  ⟨found.tokens ++ (p.token? keepComments).toList, found.diagnostics ++ p.diagnostic?.toList⟩

namespace Scanner

def addToken? (s : Scanner) (kind : TokenKind) (start : Place) : Option Scanner := do
  let stop := s.cursor.place.offset
  let text ← s.cursor.slice? start.offset stop
  let width ← firstLineWidth? text
  let t : Token :=
    { kind, text := String.ofList text, span := ⟨start.offset, stop⟩, line := start.line
      startColumn := start.column, endColumn := start.column + width }
  return { s with tokens := s.tokens ++ [t] }

def diagnose (s : Scanner) (cause : Cause) (start : Place) : Scanner :=
  let span := ⟨start.offset, s.cursor.place.offset⟩
  { s with diagnostics := s.diagnostics ++ [.ofCause cause span] }

def addComment? (options : LexOptions) (s : Scanner) (kind : TokenKind) (start : Place) :
    Option Scanner :=
  if options.keepComments then s.addToken? kind start else some s

def report (s : Scanner) (cause? : Option Cause) (start : Place) : Scanner :=
  match cause? with
  | none => s
  | some cause => s.diagnose cause start

def of (source : List Char) (r : Reader) (found : Lexed) : Scanner := ⟨found, .of source r⟩

def after (source : List Char) (r : Reader) (keepComments : Bool) (found : Lexed) (p : Piece) :
    Scanner :=
  .of source (r.skip p.text.length) (add keepComments found ⟨p, r.place⟩)

variable {source : List Char} {r : Reader} {found : Lexed} {options : LexOptions} {p : Piece}
  {keepComments : Bool} {kind : TokenKind} {cause? : Option Cause} {c : Char}
  {rest text : List Char}

theorem addToken?_of (h : r.Reads source) (front : text <+: r.rest) (found : Lexed)
    (kind : TokenKind) :
    (of source (r.skip text.length) found).addToken? kind r.place =
      some (of source (r.skip text.length) { found with
        tokens := found.tokens ++ [.write kind (String.ofList text)
          ⟨r.place.offset, r.place.offset + byteLength text⟩ r.place.line r.place.column] }) := by
  simp only [addToken?, of, Cursor.slice?, Cursor.source_of, Cursor.place_of,
    Reader.offset_skip_front front, h.in.slice? front, firstLineWidth?_eq, Option.bind_eq_bind,
    Option.bind_some, Option.pure_def, Token.write, String.toList_ofList]

theorem report_of (front : text <+: r.rest) (found : Lexed) (cause? : Option Cause) :
    (of source (r.skip text.length) found).report cause? r.place =
      of source (r.skip text.length) { found with
        diagnostics := found.diagnostics ++ (cause?.map (Diagnostic.ofCause ·
          ⟨r.place.offset, r.place.offset + byteLength text⟩)).toList } := by
  cases cause? with
  | none => simp [report, of]
  | some cause => simp [report, diagnose, of, Reader.offset_skip_front front]

theorem report_piece (front : p.text <+: r.rest)
    (silent : (⟨p, r.place⟩ : PlacedPiece).token? keepComments = none) :
    (of source (r.skip p.text.length) found).report (⟨p, r.place⟩ : PlacedPiece).cause? r.place =
      after source r keepComments found p := by
  rw [report_of front, after, add, silent, Option.toList_none, List.append_nil]
  rfl

theorem addToken?_piece (h : r.Reads source) (front : p.text <+: r.rest)
    (shown : (⟨p, r.place⟩ : PlacedPiece).token? keepComments = some (.write kind
      (String.ofList p.text) (⟨p, r.place⟩ : PlacedPiece).span r.place.line r.place.column)) :
    ((of source (r.skip p.text.length) found).report (⟨p, r.place⟩ : PlacedPiece).cause?
        r.place).addToken? kind r.place = some (after source r keepComments found p) := by
  rw [report_of front, addToken?_of h front, after, add, shown]
  rfl

theorem token?_of_stands (place : Place) (keepComments : Bool) (stands : p.kind? = some kind)
    (noLine : kind ≠ .directiveLine) :
    (⟨p, place⟩ : PlacedPiece).token? keepComments =
      if keepComments || !kind.isComment then some (.write kind (String.ofList p.text)
        (⟨p, place⟩ : PlacedPiece).span place.line place.column) else none := by
  have stands' : (⟨p, place⟩ : PlacedPiece).piece.kind? = some kind := stands
  have other : ¬(kind = .directiveLine ∧ keepComments = false) := fun line => noLine line.1
  rw [token?_of_kind?_some stands', if_neg other]

theorem addComment?_piece (h : r.Reads source) (front : p.text <+: r.rest)
    (stands : p.kind? = some kind) (comment : kind.isComment = true) :
    addComment? options ((of source (r.skip p.text.length) found).report
        (⟨p, r.place⟩ : PlacedPiece).cause? r.place) kind r.place =
      some (after source r options.keepComments found p) := by
  have noLine : kind ≠ .directiveLine := by
    rintro rfl
    cases comment
  rw [addComment?]
  cases kept : options.keepComments with
  | true => exact addToken?_piece h front (token?_of_stands r.place true stands noLine)
  | false =>
      have dropped := token?_of_stands r.place false stands noLine
      rw [comment] at dropped
      exact congrArg some (report_piece front dropped)

theorem token?_plain (stands : p.kind? = some kind) (noComment : kind.isComment = false)
    (noMark : kind.marksDirective = false) (place : Place) :
    (⟨p, place⟩ : PlacedPiece).token? keepComments = some (.write kind (String.ofList p.text)
      (⟨p, place⟩ : PlacedPiece).span place.line place.column) := by
  have noLine : kind ≠ .directiveLine := by
    rintro rfl
    cases noMark
  rw [token?_of_stands place _ stands noLine, noComment, Bool.not_false, Bool.or_true, if_pos rfl]

def scanBlanks? (s : Scanner) : Option Scanner := do
  let (_, cursor) ← s.cursor.skipWhile? isBlank
  return { s with cursor }

theorem scanBlanks?_of (h : r.Reads source) :
    scanBlanks? (of source r found) =
      some (after source r keepComments found (.blanks r.rest)) := by
  rw [scanBlanks?, of, Cursor.skipWhile?_of h]
  exact congrArg some (report_piece (Piece.blanks_front r.rest) rfl)

def pastLineBreak? (s : Cursor) : Option Cursor := do
  if (← s.peekN? 2) = ['\r', '\n'] then return (← s.consumeN? 2).2
  else if ((← s.peek?).map isLineBreak).getD false then return (← s.consume?).2
  else return s

theorem pastLineBreak?_of (h : r.Reads source) :
    pastLineBreak? (.of source r) =
      some (.of source (r.skip (Piece.lineEnd r.rest).length)) := by
  rw [pastLineBreak?, Cursor.peekN?_of h, Cursor.consumeN?_of h, Cursor.peek?_of h,
    Cursor.consume?_of h, Reader.peek]
  generalize r.rest = rest
  fun_cases Piece.lineEnd rest with
  | case1 => rfl
  | case2 c rest alone breaks | case3 c rest alone breaks =>
      have noPair : (c :: rest).take 2 ≠ ['\r', '\n'] := by
        rw [Ne, take_two_eq_pair]
        rintro ⟨return_, feed⟩
        obtain ⟨after, rfl⟩ := List.head?_eq_some_iff.1 feed
        exact alone after return_ rfl
      simp only [Option.bind_eq_bind, Option.bind_some, if_neg noPair]
      simp [breaks, Reader.skip]
  | case4 => rfl

def scanLineComment? (options : LexOptions) (s : Scanner) : Option Scanner := do
  let (_, cursor) ← s.cursor.consumeN? 2
  let (_, cursor) ← cursor.skipWhile? fun c => !isLineBreak c
  let cursor ← pastLineBreak? cursor
  addComment? options { s with cursor } .lineComment s.cursor.place

theorem scanLineComment?_of (h : r.Reads source) (unread : r.rest = '-' :: '-' :: rest) :
    scanLineComment? options (of source r found) =
      some (after source r options.keepComments found (.lineComment r.rest)) := by
  rw [scanLineComment?, of]
  simp only [Cursor.consumeN?_of h, Cursor.skipWhile?_of (h.skip 2),
    pastLineBreak?_of ((h.skip 2).skip _), Option.bind_eq_bind, Option.bind_some]
  have moved : ((r.skip 2).skip ((r.skip 2).run fun c => !isLineBreak c).length).skip
      (Piece.lineEnd ((r.skip 2).skip ((r.skip 2).run fun c => !isLineBreak c).length).rest).length
      = r.skip (Piece.lineComment r.rest).text.length := by
    have noBreak : isLineBreak '-' = false := rfl
    rw [← Reader.skip_add, ← Reader.skip_add]
    simp only [Piece.lineComment, Reader.run, Reader.rest_skip, unread, List.drop_succ_cons,
      List.drop_zero, List.takeWhile_cons, noBreak, Bool.not_false, if_true, List.length_append,
      List.length_cons]
    congr 1
    omega
  rw [moved]
  exact addComment?_piece h (Piece.lineComment_front r.rest) rfl rfl

def scanComment? (options : LexOptions) (s : Scanner) : Option Scanner := do
  let start := s.cursor.place
  let (_, cursor) ← s.cursor.consume?
  let (_, cursor) ← cursor.skipWhile? fun c => c != '!' && !isLineBreak c
  if (← cursor.peek?) = some '!' then
    let (_, cursor) ← cursor.consume?
    addComment? options { s with cursor } .comment start
  else addComment? options (diagnose { s with cursor } .unterminatedComment start) .comment start

theorem skip_enclosed (r : Reader) (opening closing : Char) (text : List Char) :
    (r.next.skip text.length).next = r.skip (opening :: text ++ [closing]).length := by
  rw [List.cons_append, List.length_cons, List.length_append, List.length_singleton, Reader.skip,
    Reader.skip_add]
  rfl

theorem scanComment?_of (h : r.Reads source) (unread : r.rest = '!' :: rest) :
    scanComment? options (of source r found) =
      some (after source r options.keepComments found (.comment rest)) := by
  have left : r.next.rest = rest := by rw [Reader.rest_next, unread, List.tail_cons]
  have front := Piece.comment_front rest
  rw [← unread] at front
  rw [scanComment?, of]
  simp only [Cursor.consume?_of h, Cursor.skipWhile?_of h.next, Cursor.peek?_of (h.next.skip _),
    Cursor.consume?_of (h.next.skip _), Option.bind_eq_bind, Option.bind_some, Reader.run,
    Reader.rest_skip, left]
  rw [Piece.comment] at front ⊢
  split
  · rename_i closed
    rw [if_pos closed] at front
    rw [skip_enclosed r '!' '!']
    exact addComment?_piece h front rfl rfl
  · rename_i unclosed
    rw [if_neg unclosed] at front
    exact addComment?_piece h front rfl rfl

def scanDirective? (options : LexOptions) (s : Scanner) : Option Scanner := do
  let opensLine := (← s.cursor.linePrefix?).all isWhiteSpace
  let (_, cursor) ← s.cursor.consume?
  let kind := if options.keepComments && opensLine then .directiveLine else .directive
  addToken? { s with cursor } kind s.cursor.place

theorem scanDirective?_of (h : r.Reads source) (unread : r.rest = '?' :: rest) :
    scanDirective? options (of source r found) =
      some (after source r options.keepComments found
        ⟨.directive (r.lineRead.all isWhiteSpace), ['?']⟩) := by
  have front : ['?'] <+: r.rest := ⟨rest, unread.symm⟩
  rw [scanDirective?, of]
  simp only [Cursor.linePrefix?_of h, Cursor.consume?_of h, Option.bind_eq_bind, Option.bind_some,
    Reader.linePrior, List.all_reverse]
  have shown : (⟨⟨.directive (r.lineRead.all isWhiteSpace), ['?']⟩, r.place⟩ : PlacedPiece).token?
      options.keepComments = some (.write
        (if options.keepComments && r.lineRead.all isWhiteSpace then .directiveLine
          else .directive) (String.ofList ['?'])
        ⟨r.place.offset, r.place.offset + byteLength ['?']⟩ r.place.line r.place.column) := by
    cases options.keepComments <;> cases r.lineRead.all isWhiteSpace <;> rfl
  exact addToken?_piece (p := ⟨.directive _, ['?']⟩) h front shown

def scanString? (s : Scanner) : Option Scanner := do
  let start := s.cursor.place
  let (_, cursor) ← s.cursor.consume?
  let (contents, cursor) ← cursor.skipWhile? (· != '"')
  let (closing, cursor) ← cursor.consume?
  let kind := .string (String.ofList contents)
  if closing.isNone then (diagnose { s with cursor } .unterminatedString start).addToken? kind start
  else addToken? { s with cursor } kind start

theorem scanString?_of (h : r.Reads source) (unread : r.rest = '"' :: rest) :
    scanString? (of source r found) = some (after source r keepComments found (.string rest)) := by
  have left : r.next.rest = rest := by rw [Reader.rest_next, unread, List.tail_cons]
  have front := Piece.string_front rest
  rw [← unread] at front
  rw [scanString?, of]
  simp only [Cursor.consume?_of h, Cursor.skipWhile?_of h.next, Cursor.consume?_of (h.next.skip _),
    Option.bind_eq_bind, Option.bind_some, Reader.run, Reader.rest_skip, left, List.head?_drop]
  rw [Piece.string] at front ⊢
  by_cases closed : (rest.takeWhile (· != '"')).length < rest.length
  · rw [if_pos closed] at front ⊢
    rw [List.getElem?_eq_getElem closed, skip_enclosed r '"' '"']
    exact addToken?_piece h front (token?_plain rfl rfl rfl _)
  · rw [if_neg closed] at front ⊢
    have atEnd : (r.next.skip (rest.takeWhile (· != '"')).length).rest = [] := by
      rw [Reader.rest_skip, left]
      exact List.drop_eq_nil_of_le (Nat.le_of_not_lt closed)
    rw [List.getElem?_eq_none (Nat.le_of_not_lt closed), Reader.next_of_nil atEnd]
    exact addToken?_piece h front (token?_plain rfl rfl rfl _)

end Scanner
end TalAnalysis.Checked
