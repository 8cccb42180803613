import Mathlib.Data.List.Forall2
import TalAnalysis.Proofs.Lexer.Segmentation
import TalAnalysis.Proofs.Text.Case

/-!
# Letters in either case

The scanner reads a text with small letters as it reads the text itself: the same pieces at the same
places, with the letters in them made small (`piecesFrom_foldCase`). So two texts that differ in the
case of letters alone have the same tokens, but for that difference in what they hold of the text
(`lex_sameWord`).
-/

namespace TalAnalysis
open Text

def foldWord (word : String) : String := String.ofList (foldCase word.toList)

theorem sameWord_foldWord (word : String) : sameWord (foldWord word) word = true := by
  rw [sameWord, foldWord, String.toList_ofList, sameSpelling_foldCase, sameSpelling_refl]

theorem sameWord_of_foldWord_eq {a b : String} (same : foldWord a = foldWord b) :
    sameWord a b = true := by
  rw [foldWord, foldWord, String.ofList_inj] at same
  exact sameWord_iff.2 same

theorem NumeralBase.marked?_foldCase (text : List Char) :
    marked? (foldCase text) = marked? text := by
  simp only [marked?, opensWith_foldCase, foldCase_drop,
    (isDigit_base_ignoresCase _).head?]

theorem NumeralSize.marked?_foldCase (base : NumeralBase) (text : List Char) :
    marked? base (foldCase text) = marked? base text := by
  simp only [marked?, opensWith_foldCase, foldCase_drop, continuesName_ignoresCase.head?]

theorem Sign.longest?_foldCase (text : List Char) : longest? (foldCase text) = longest? text := by
  simp only [longest?, matchesAt, opensWith_foldCase, foldCase_drop,
    continuesName_ignoresCase.head?]

namespace TokenKind

def foldCase : TokenKind → TokenKind
  | .name n => .name (foldWord n)
  | .string contents => .string (foldWord contents)
  | kind => kind

theorem ofWord_foldWord (word : String) : ofWord (foldWord word) = (ofWord word).foldCase := by
  have same := sameWord_foldWord word
  have type : DataType.ofSpelling? (foldWord word) = DataType.ofSpelling? word :=
    findWord?_congr same
  have operator : Operator.ofWord? (foldWord word) = Operator.ofWord? word :=
    findWord?_congr same
  have keyword : Keyword.ofSpelling? (foldWord word) = Keyword.ofSpelling? word :=
    findWord?_congr same
  simp only [ofWord, type, operator, keyword]
  split
  · rfl
  · split
    · rfl
    · split <;> rfl

theorem isName_foldCase (kind : TokenKind) : kind.foldCase.isName = kind.isName := by
  cases kind <;> rfl

theorem isComment_foldCase (kind : TokenKind) : kind.foldCase.isComment = kind.isComment := by
  cases kind <;> rfl

theorem lookback_foldCase (kind : TokenKind) :
    Lookback.ofKind kind.foldCase = Lookback.ofKind kind := by
  cases kind <;> rfl

end TokenKind

theorem isName_ofWord_foldCase (word : List Char) :
    (TokenKind.ofWord (String.ofList (foldCase word))).isName =
      (TokenKind.ofWord (String.ofList word)).isName := by
  have folded := TokenKind.ofWord_foldWord (String.ofList word)
  rw [foldWord, String.toList_ofList] at folded
  rw [folded, TokenKind.isName_foldCase]

def Lexeme.foldCase : Lexeme → Lexeme
  | .string contents closed => .string (Text.foldCase contents) closed
  | .unknown c => .unknown c.toLower
  | lexeme => lexeme

namespace Piece

def foldCase (p : Piece) : Piece := ⟨p.lexeme.foldCase, Text.foldCase p.text⟩

theorem blanks_foldCase (text : List Char) :
    blanks (Text.foldCase text) = (blanks text).foldCase := by
  rw [blanks, isBlank_ignoresCase.takeWhile]
  rfl

theorem lineEnd_cons (c : Char) (rest : List Char) :
    lineEnd (c :: rest) =
      if c = '\r' ∧ rest.head? = some '\n' then ['\r', '\n']
      else if isLineBreak c then [c] else [] := by
  by_cases pair : c = '\r' ∧ rest.head? = some '\n'
  · obtain ⟨rfl, feed⟩ := pair
    obtain ⟨rest, rfl⟩ := List.head?_eq_some_iff.1 feed
    rfl
  · rw [if_neg pair, lineEnd]
    rintro tail rfl rfl
    exact pair ⟨rfl, rfl⟩

theorem lineEnd_foldCase (text : List Char) :
    lineEnd (Text.foldCase text) = Text.foldCase (lineEnd text) := by
  cases text with
  | nil => rfl
  | cons c rest =>
      simp only [foldCase_cons, lineEnd_cons, isLineBreak_ignoresCase c,
        toLower_eq_iff (show '\r'.isLower = false from rfl) rfl,
        head?_foldCase_eq_iff (show '\n'.isLower = false from rfl) rfl]
      split_ifs <;> rfl

theorem lineComment_foldCase (text : List Char) :
    lineComment (Text.foldCase text) = (lineComment text).foldCase := by
  have inLine : IgnoresCase fun c => !isLineBreak c := ignoresCase_of_capitals (by decide)
  simp only [lineComment, foldCase, Lexeme.foldCase, inLine.takeWhile, length_foldCase,
    foldCase_drop, lineEnd_foldCase, foldCase_append]

theorem comment_foldCase (rest : List Char) :
    comment (Text.foldCase rest) = (comment rest).foldCase := by
  have inComment : IgnoresCase fun c => c != '!' && !isLineBreak c :=
    ignoresCase_of_capitals (by decide)
  simp only [comment, inComment.takeWhile, length_foldCase, foldCase_drop,
    head?_foldCase_eq_iff (show '!'.isLower = false from rfl) rfl]
  split
  · simp only [foldCase, Lexeme.foldCase, foldCase_append, foldCase_cons]
    rfl
  · rfl

theorem string_foldCase (rest : List Char) :
    string (Text.foldCase rest) = (string rest).foldCase := by
  have inString : IgnoresCase (· != '"') := ignoresCase_of_capitals (by decide)
  simp only [string, inString.takeWhile, length_foldCase]
  split
  · simp only [foldCase, Lexeme.foldCase, foldCase_append, foldCase_cons]
    rfl
  · rfl

theorem numeral_foldCase (text : List Char) :
    numeral (Text.foldCase text) = (numeral text).foldCase := by
  simp only [numeral, NumeralBase.marked?_foldCase, foldCase_drop,
    (isDigit_base_ignoresCase _).takeWhile, length_foldCase, NumeralSize.marked?_foldCase,
    numberIn_foldCase, foldCase_take]
  rfl

theorem nameAhead?_foldCase (text : List Char) :
    nameAhead? (Text.foldCase text) = (nameAhead? text).map Text.foldCase := by
  simp only [nameAhead?, continuesName_ignoresCase.takeWhile, startsName_ignoresCase.head?,
    isName_ofWord_foldCase]
  split <;> rfl

theorem furtherNames_foldCase (text : List Char) :
    furtherNames (Text.foldCase text) = Text.foldCase (furtherNames text) := by
  fun_induction furtherNames text with
  | case1 rest name ahead ih =>
      have ahead' : nameAhead? (Text.foldCase rest) = some (Text.foldCase name) := by
        rw [nameAhead?_foldCase, ahead, Option.map_some]
      have left : (Text.foldCase rest).drop (Text.foldCase name).length =
          Text.foldCase (rest.drop name.length) := by
        rw [length_foldCase, foldCase_drop]
      change furtherNames (' ' :: Text.foldCase rest) = _
      rw [furtherNames, ahead']
      simp only
      rw [left, ih, foldCase_append, foldCase_cons]
      rfl
  | case2 rest ahead =>
      have ahead' : nameAhead? (Text.foldCase rest) = none := by
        rw [nameAhead?_foldCase, ahead, Option.map_none]
      change furtherNames (' ' :: Text.foldCase rest) = _
      rw [furtherNames, ahead']
      rfl
  | case3 text other =>
      rw [furtherNames]
      · rfl
      · intro rest space
        have first : text.head? = some ' ' :=
          (head?_foldCase_eq_iff rfl rfl).1 (by rw [space, List.head?_cons])
        obtain ⟨tail, rfl⟩ := List.head?_eq_some_iff.1 first
        exact other tail rfl

theorem word_foldCase (grouped : Bool) (c : Char) (rest : List Char) :
    word grouped c.toLower (Text.foldCase rest) = (word grouped c rest).foldCase := by
  simp only [word, continuesName_ignoresCase.takeWhile, continuesName_ignoresCase.dropWhile,
    furtherNames_foldCase, ← foldCase_cons, ← foldCase_append, isName_ofWord_foldCase]
  split <;> rfl

theorem sign?_foldCase (lookback : Lookback) (text : List Char) :
    sign? lookback (Text.foldCase text) = (sign? lookback text).map foldCase := by
  rw [sign?, sign?, Sign.longest?_foldCase, Option.map_map]
  refine congrArg (Option.map · (Sign.longest? text)) (funext ?_)
  rintro ⟨spelling, sign⟩
  simp only [foldCase_take]
  rfl

theorem read_foldCase (groupNames : Bool) (lookback : Lookback) (lineRead : List Char) (c : Char)
    (rest : List Char) :
    read groupNames lookback (Text.foldCase lineRead) c.toLower (Text.foldCase rest) =
      (read groupNames lookback lineRead c rest).foldCase := by
  have own (d : Char) (noLetter : d.isLower = false) (small : d.toLower = d) :
      c.toLower = d ↔ c = d := toLower_eq_iff noLetter small
  have next : (Text.foldCase rest).head? = some '-' ↔ rest.head? = some '-' :=
    head?_foldCase_eq_iff rfl rfl
  simp only [read, isBlank_ignoresCase c, own '-' rfl rfl, own '!' rfl rfl, own '?' rfl rfl,
    own '%' rfl rfl, own '"' rfl rfl, next, isDigit_ignoresCase c, startsName_ignoresCase c,
    ← foldCase_cons, NumeralBase.marked?_foldCase, isWhiteSpace_ignoresCase.all]
  split_ifs
  · exact blanks_foldCase (c :: rest)
  · exact lineComment_foldCase (c :: rest)
  · exact comment_foldCase rest
  · rfl
  · exact numeral_foldCase (c :: rest)
  · exact word_foldCase _ c rest
  · exact string_foldCase rest
  · rw [sign?_foldCase]
    cases sign? lookback (c :: rest) <;> rfl

theorem kind?_foldCase (p : Piece) : p.foldCase.kind? = p.kind?.map TokenKind.foldCase := by
  obtain ⟨lexeme, text⟩ := p
  cases lexeme with
  | word =>
      have folded := TokenKind.ofWord_foldWord (String.ofList text)
      rw [foldWord, String.toList_ofList] at folded
      exact congrArg some folded
  | string contents closed =>
      simp [foldCase, Lexeme.foldCase, kind?, TokenKind.foldCase, foldWord]
  | directive opensLine => cases opensLine <;> rfl
  | sign sign => cases sign <;> rfl
  | _ => rfl

theorem lookback_foldCase (p : Piece) (before : Lookback) :
    p.foldCase.lookback before = p.lookback before := by
  rw [lookback, lookback, kind?_foldCase]
  cases p.kind? with
  | none => rfl
  | some kind =>
      simp only [Option.map_some, TokenKind.isComment_foldCase, TokenKind.lookback_foldCase]

end Piece

def PlacedPiece.foldCase (p : PlacedPiece) : PlacedPiece := ⟨p.piece.foldCase, p.place⟩

theorem piecesFrom_foldCase (groupNames : Bool) (lookback : Lookback) (r : Reader) :
    piecesFrom groupNames lookback r.foldCase =
      (piecesFrom groupNames lookback r).map PlacedPiece.foldCase := by
  fun_induction piecesFrom groupNames lookback r with
  | case1 lookback r unread =>
      rw [piecesFrom_nil]
      · rfl
      · rw [Reader.foldCase, unread]
        rfl
  | case2 lookback r c rest unread piece ih =>
      have unread' : r.foldCase.rest = c.toLower :: foldCase rest := by
        rw [Reader.foldCase, unread, foldCase_cons]
      have read : Piece.read groupNames lookback r.foldCase.lineRead c.toLower (foldCase rest) =
          piece.foldCase := Piece.read_foldCase groupNames lookback r.lineRead c rest
      rw [piecesFrom_cons unread', read, Piece.lookback_foldCase, List.map_cons, ← ih,
        ← Reader.skip_foldCase]
      rw [Piece.foldCase, length_foldCase]
      rfl

theorem pieces_foldCase {a b : String} (same : sameWord a b = true) (groupNames : Bool) :
    (pieces groupNames a).map PlacedPiece.foldCase =
      (pieces groupNames b).map PlacedPiece.foldCase := by
  rw [pieces, pieces, ← piecesFrom_foldCase, ← piecesFrom_foldCase, Reader.foldCase_ofText,
    Reader.foldCase_ofText, sameWord_iff.1 same]

theorem Token.firstLineWidth_foldCase (text : List Char) :
    firstLineWidth (Text.foldCase text) = firstLineWidth text := by
  induction text with
  | nil => rfl
  | cons c text ih =>
      simp only [foldCase_cons, firstLineWidth_cons, ih,
        toLower_eq_iff (show '\r'.isLower = false from rfl) rfl,
        toLower_eq_iff (show '\n'.isLower = false from rfl) rfl,
        head?_foldCase_eq_iff (show '\n'.isLower = false from rfl) rfl]

def Token.foldCase (t : Token) : Token :=
  { t with kind := t.kind.foldCase, text := foldWord t.text }

theorem Token.write_foldWord (kind : TokenKind) (text : String) (span : Span)
    (line startColumn : Nat) :
    write kind.foldCase (foldWord text) span line startColumn =
      (write kind text span line startColumn).foldCase := by
  rw [write, write, foldCase, foldWord, String.toList_ofList, firstLineWidth_foldCase]

namespace PlacedPiece

theorem span_foldCase (p : PlacedPiece) : p.foldCase.span = p.span := by
  simp only [span, foldCase, Piece.foldCase, byteLength_foldCase]

theorem token?_foldCase (keepComments : Bool) (p : PlacedPiece) :
    p.foldCase.token? keepComments = (p.token? keepComments).map Token.foldCase := by
  have kinds := Piece.kind?_foldCase p.piece
  cases found : p.piece.kind? with
  | none =>
      rw [found] at kinds
      rw [token?_of_kind?_none found, token?_of_kind?_none (p := p.foldCase) kinds]
      rfl
  | some kind =>
      rw [found, Option.map_some] at kinds
      have shown : (if kind.foldCase = .directiveLine ∧ keepComments = false then .directive
          else kind.foldCase : TokenKind) =
            (if kind = .directiveLine ∧ keepComments = false then .directive
              else kind : TokenKind).foldCase := by
        cases kind <;> cases keepComments <;> rfl
      have word : String.ofList p.foldCase.piece.text = foldWord (String.ofList p.piece.text) := by
        rw [foldWord, String.toList_ofList]
        rfl
      rw [token?_of_kind?_some found, token?_of_kind?_some (p := p.foldCase) kinds,
        TokenKind.isComment_foldCase, shown, span_foldCase, word]
      cases keepComments || !kind.isComment with
      | false => rfl
      | true => exact congrArg some (Token.write_foldWord ..)

theorem diagnostic?_foldCase (p : PlacedPiece) :
    p.foldCase.diagnostic?.map (fun d => (d.code, d.span)) =
      p.diagnostic?.map fun d => (d.code, d.span) := by
  have same := span_foldCase p
  obtain ⟨⟨lexeme, text⟩, place⟩ := p
  rw [diagnostic?, diagnostic?, same, Option.map_map, Option.map_map]
  cases lexeme with
  | comment closed => cases closed <;> rfl
  | string contents closed => cases closed <;> rfl
  | number value =>
      simp only [cause?, foldCase, Piece.foldCase, Lexeme.foldCase]
      split <;> rfl
  | _ => rfl

end PlacedPiece

inductive TokenKind.SameButCase : TokenKind → TokenKind → Prop
  | same (kind : TokenKind) : SameButCase kind kind
  | name {a b : String} (same : sameWord a b = true) : SameButCase (.name a) (.name b)
  | string {a b : String} (same : sameWord a b = true) : SameButCase (.string a) (.string b)

/-- The tokens stand at the same place and differ at most in the case of letters. -/
structure Token.SameButCase (t u : Token) : Prop where
  kind : t.kind.SameButCase u.kind
  text : sameWord t.text u.text = true
  span : t.span = u.span
  line : t.line = u.line
  columns : t.startColumn = u.startColumn ∧ t.endColumn = u.endColumn

theorem TokenKind.sameButCase_of_foldCase {kind other : TokenKind}
    (folded : kind.foldCase = other.foldCase) : kind.SameButCase other := by
  cases kind with
  | name a =>
      cases other with
      | name b => exact .name (sameWord_of_foldWord_eq (name.inj folded))
      | _ => cases folded
  | string a =>
      cases other with
      | string b => exact .string (sameWord_of_foldWord_eq (string.inj folded))
      | _ => cases folded
  | _ =>
      cases other <;> cases folded
      exact .same _

theorem Token.sameButCase_of_foldCase {t u : Token} (folded : t.foldCase = u.foldCase) :
    t.SameButCase u := by
  obtain ⟨kind, text, span, line, start, stop⟩ := Token.mk.injEq .. ▸ folded
  exact ⟨TokenKind.sameButCase_of_foldCase kind, sameWord_of_foldWord_eq text, span, line,
    start, stop⟩

theorem forall₂_of_map_eq {α β : Type} {f : α → β} {xs ys : List α} (same : xs.map f = ys.map f) :
    List.Forall₂ (fun x y => f x = f y) xs ys := by
  have both : List.Forall₂ (· = ·) (xs.map f) (ys.map f) := by
    rw [same]
    exact List.forall₂_same.2 fun _ _ => rfl
  rwa [List.forall₂_map_left_iff, List.forall₂_map_right_iff] at both

section
variable {a b : String} (same : sameWord a b = true) (options : LexOptions)
include same

theorem tokens_foldCase :
    (lex a options).tokens.map Token.foldCase = (lex b options).tokens.map Token.foldCase := by
  have read (source : String) : (lex source options).tokens.map Token.foldCase =
      ((pieces options.groupNames source).map PlacedPiece.foldCase).filterMap
        (PlacedPiece.token? options.keepComments) := by
    rw [lex, List.map_filterMap, List.filterMap_map]
    exact List.filterMap_congr fun p _ => (PlacedPiece.token?_foldCase _ p).symm
  rw [read, read, pieces_foldCase same]

theorem diagnostics_foldCase :
    (lex a options).diagnostics.map (fun d => (d.code, d.span)) =
      (lex b options).diagnostics.map fun d => (d.code, d.span) := by
  have read (source : String) : (lex source options).diagnostics.map (fun d => (d.code, d.span)) =
      ((pieces options.groupNames source).map PlacedPiece.foldCase).filterMap
        fun p => p.diagnostic?.map fun d => (d.code, d.span) := by
    rw [lex, List.map_filterMap, List.filterMap_map]
    exact List.filterMap_congr fun p _ => (PlacedPiece.diagnostic?_foldCase p).symm
  rw [read, read, pieces_foldCase same]

theorem lex_sameWord :
    List.Forall₂ Token.SameButCase (lex a options).tokens (lex b options).tokens ∧
      List.Forall₂ (fun d e => d.code = e.code ∧ d.span = e.span) (lex a options).diagnostics
        (lex b options).diagnostics := by
  constructor
  · exact (forall₂_of_map_eq (tokens_foldCase same options)).imp
      fun _ _ => Token.sameButCase_of_foldCase
  · exact (forall₂_of_map_eq (diagnostics_foldCase same options)).imp
      fun _ _ => Prod.mk.inj

end

theorem lex_sameWord_openString :
    let upper := "INT .EXT P = 'SG' + %HFFD; ! END !\nCALL \"Ab"
    let lower := "int .ext p = 'sg' + %hffd; ! end !\ncall \"aB"
    sameWord upper lower = true ∧
      List.Forall₂ Token.SameButCase (lex upper {}).tokens (lex lower {}).tokens ∧
        List.Forall₂ (fun d e => d.code = e.code ∧ d.span = e.span) (lex upper {}).diagnostics
          (lex lower {}).diagnostics := by
  intro upper lower
  have same : sameWord upper lower = true := by decide +kernel
  exact ⟨same, lex_sameWord same {}⟩

end TalAnalysis
