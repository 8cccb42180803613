import TalAnalysis.Text.Front
import TalAnalysis.Text.WhiteSpace
import TalAnalysis.Token.Basic
import TalAnalysis.Vocabulary.Numeral
import TalAnalysis.Vocabulary.Sign

/-!
# The pieces of a source text

A source text falls into pieces: runs of blanks, comments, tokens, and single characters that open
none of these. `Piece.read` takes the first piece off a text that is not empty. It looks ahead as
far as the piece needs it, and back only at the nearest token that is no comment (`Lookback`) and
at the beginning of the line.

* `read_text_front`: a piece is the front of the text it was taken from.
* `read_text_ne_nil`: a piece has at least one character.
-/

namespace TalAnalysis
open Text

/-- What the nearest token before a place, comments aside, says about that place. -/
inductive Lookback
  | plain
  | afterType
  | afterMarker
deriving DecidableEq, Repr, Inhabited

def Lookback.ofKind : TokenKind → Lookback
  | .dataType _ => .afterType
  | .directive | .directiveLine => .afterMarker
  | _ => .plain

def maxInteger : Nat := 9223372036854775807

inductive Lexeme
  | blanks
  | lineComment
  | comment (closed : Bool)
  /-- The question mark before a directive; `opensLine` if the line has only white space before it.
  -/
  | directive (opensLine : Bool)
  | number (value : Nat)
  | word
  | string (contents : List Char) (closed : Bool)
  | sign (sign : Sign)
  | unknown (c : Char)
deriving DecidableEq, Repr, Inhabited

structure Piece where
  lexeme : Lexeme
  text : List Char
deriving DecidableEq, Repr, Inhabited

namespace Piece

def blanks (text : List Char) : Piece := ⟨.blanks, text.takeWhile isBlank⟩

def lineEnd : List Char → List Char
  | '\r' :: '\n' :: _ => ['\r', '\n']
  | c :: _ => if isLineBreak c then [c] else []
  | [] => []

def lineComment (text : List Char) : Piece :=
  let body := text.takeWhile fun c => !isLineBreak c
  ⟨.lineComment, body ++ lineEnd (text.drop body.length)⟩

def comment (rest : List Char) : Piece :=
  let body := rest.takeWhile fun c => c != '!' && !isLineBreak c
  if (rest.drop body.length).head? = some '!' then ⟨.comment true, '!' :: body ++ ['!']⟩
  else ⟨.comment false, '!' :: body⟩

def string (rest : List Char) : Piece :=
  let contents := rest.takeWhile (· != '"')
  if contents.length < rest.length then ⟨.string contents true, '"' :: contents ++ ['"']⟩
  else ⟨.string contents false, '"' :: contents⟩

def numeral (text : List Char) : Piece :=
  let (mark, base) := (NumeralBase.marked? text).getD ("", .decimal)
  let digits := (text.drop mark.length).takeWhile base.isDigit
  let length := mark.length + digits.length
  let size := ((NumeralSize.marked? base (text.drop length)).map (·.1.length)).getD 0
  ⟨.number (numberIn base.radix digits), text.take (length + size)⟩

/-- The name that `text` opens with. A word that opens with `$` is no such name; in its place stands
the empty one. -/
def nameAhead? (text : List Char) : Option (List Char) :=
  let name := text.takeWhile continuesName
  if (text.head?.map startsName).getD false && (TokenKind.ofWord (String.ofList name)).isName then
    some name
  else none

def furtherNames : List Char → List Char
  | ' ' :: rest =>
    match nameAhead? rest with
    | some name => ' ' :: name ++ furtherNames (rest.drop name.length)
    | none => []
  | _ => []
termination_by text => text.length
decreasing_by simp only [List.length_drop, List.length_cons]; omega

/-- The word that opens with `c` and goes on with `rest`. A name takes in the names that follow it,
if names are `grouped`. -/
def word (grouped : Bool) (c : Char) (rest : List Char) : Piece :=
  let single := c :: rest.takeWhile continuesName
  if grouped && (TokenKind.ofWord (String.ofList single)).isName then
    ⟨.word, single ++ furtherNames (rest.dropWhile continuesName)⟩
  else ⟨.word, single⟩

def sign? (lookback : Lookback) (text : List Char) : Option Piece :=
  (Sign.longest? text).map fun (spelling, sign) =>
    let sign :=
      if sign = .delimiter .dot ∧ lookback = .afterType then .indirection .standard else sign
    ⟨.sign sign, text.take spelling.length⟩

/-- The first piece of the text `c :: rest`. `lineRead` is what comes before it on its line, in any
order. The first form that applies is taken. -/
def read (groupNames : Bool) (lookback : Lookback) (lineRead : List Char) (c : Char)
    (rest : List Char) : Piece :=
  if isBlank c then blanks (c :: rest)
  else if c = '-' ∧ rest.head? = some '-' then lineComment (c :: rest)
  else if c = '!' then comment rest
  else if c = '?' then ⟨.directive (lineRead.all isWhiteSpace), [c]⟩
  else if c.isDigit ∨ (c = '%' ∧ (NumeralBase.marked? (c :: rest)).isSome) then numeral (c :: rest)
  else if startsName c then word (groupNames && lookback != .afterMarker) c rest
  else if c = '"' then string rest
  else (sign? lookback (c :: rest)).getD ⟨.unknown c, [c]⟩

theorem blanks_front (text : List Char) : (blanks text).text <+: text := takeWhile_front _ _

theorem lineEnd_front (text : List Char) : lineEnd text <+: text := by
  fun_cases lineEnd text <;> simp

theorem lineComment_front (text : List Char) : (lineComment text).text <+: text := by
  rw [lineComment, drop_length_takeWhile]
  exact takeWhile_append_front (lineEnd_front _)

theorem comment_front (rest : List Char) : (comment rest).text <+: '!' :: rest := by
  rw [comment, drop_length_takeWhile]
  split
  · rename_i closing
    refine (List.prefix_cons_inj _).2 (takeWhile_append_front ?_)
    cases h : List.dropWhile (fun c => c != '!' && !isLineBreak c) rest with
    | nil => simp [h] at closing
    | cons c t => simp [h] at closing; simp [closing]
  · exact (List.prefix_cons_inj _).2 (takeWhile_front _ _)

theorem string_front (rest : List Char) : (string rest).text <+: '"' :: rest := by
  rw [string]
  split
  · rename_i shorter
    refine (List.prefix_cons_inj _).2 (takeWhile_append_front ?_)
    have whole := congrArg List.length
      (List.takeWhile_append_dropWhile (p := (· != '"')) (l := rest))
    cases h : List.dropWhile (· != '"') rest with
    | nil => simp [h] at whole; omega
    | cons c t => simp [eq_of_dropWhile_ne h]
  · exact (List.prefix_cons_inj _).2 (takeWhile_front _ _)

theorem numeral_front (text : List Char) : (numeral text).text <+: text := take_front _ _

theorem nameAhead?_front {text name : List Char} (h : nameAhead? text = some name) :
    name <+: text := by
  simp only [nameAhead?, Option.ite_none_right_eq_some, Option.some.injEq] at h
  exact h.2 ▸ takeWhile_front _ _

theorem furtherNames_front (text : List Char) : furtherNames text <+: text := by
  fun_induction furtherNames text with
  | case1 rest name ahead ih =>
    obtain ⟨tail, rfl⟩ := nameAhead?_front ahead
    rw [List.drop_left] at ih
    rw [List.drop_left, List.cons_append]
    exact (List.prefix_cons_inj _).2 ((List.prefix_append_right_inj _).2 ih)
  | case2 => exact ⟨_, rfl⟩
  | case3 => exact ⟨_, rfl⟩

theorem word_front (grouped : Bool) (c : Char) (rest : List Char) :
    (word grouped c rest).text <+: c :: rest := by
  rw [word]
  split
  · exact (List.prefix_cons_inj _).2 (takeWhile_append_front (furtherNames_front _))
  · exact (List.prefix_cons_inj _).2 (takeWhile_front _ _)

theorem sign?_front {lookback : Lookback} {text : List Char} {p : Piece}
    (h : sign? lookback text = some p) : p.text <+: text := by
  obtain ⟨_, _, rfl⟩ := Option.map_eq_some_iff.1 h
  exact take_front _ _

theorem read_text_front (groupNames : Bool) (lookback : Lookback) (lineRead : List Char) (c : Char)
    (rest : List Char) : (read groupNames lookback lineRead c rest).text <+: c :: rest := by
  fun_cases read groupNames lookback lineRead c rest with
  | case1 => exact blanks_front _
  | case2 => exact lineComment_front _
  | case3 _ _ h => exact h ▸ comment_front rest
  | case4 => simp
  | case5 => exact numeral_front _
  | case6 => exact word_front _ _ _
  | case7 _ _ _ _ _ _ h => exact h ▸ string_front rest
  | case8 =>
    cases h : sign? lookback (c :: rest) with
    | none => simp
    | some p => exact sign?_front h

theorem numeral_text_ne_nil {c : Char} {rest : List Char}
    (h : c.isDigit = true ∨ (NumeralBase.marked? (c :: rest)).isSome = true) :
    (numeral (c :: rest)).text ≠ [] := by
  have marks : ∀ entry ∈ NumeralBase.marks, 0 < entry.1.length := by decide
  simp only [numeral]
  cases found : NumeralBase.marked? (c :: rest) with
  | some entry =>
    have := marks entry (List.mem_of_find?_eq_some found)
    simp only [Option.getD_some, ne_eq, List.take_eq_nil_iff]
    rintro (none | empty)
    · omega
    · cases empty
  | none =>
    have digit : c.isDigit = true := by simpa [found] using h
    simp [NumeralBase.isDigit, NumeralBase.radix, isDigitIn_ten, digit]

theorem sign?_text_ne_nil {lookback : Lookback} {c : Char} {rest : List Char} {p : Piece}
    (h : sign? lookback (c :: rest) = some p) : p.text ≠ [] := by
  obtain ⟨found, longest, rfl⟩ := Option.map_eq_some_iff.1 h
  have := Sign.length_pos_of_mem_spellings (Sign.mem_of_longest? longest).1
  rw [ne_eq, List.take_eq_nil_iff]
  rintro (none | empty)
  · omega
  · cases empty

theorem read_text_ne_nil (groupNames : Bool) (lookback : Lookback) (lineRead : List Char) (c : Char)
    (rest : List Char) : (read groupNames lookback lineRead c rest).text ≠ [] := by
  fun_cases read groupNames lookback lineRead c rest with
  | case1 h => simp [blanks, h]
  | case2 _ h => simp [lineComment, h.1, isLineBreak]
  | case3 => simp only [comment]; split <;> simp
  | case4 => simp
  | case5 _ _ _ _ h => exact numeral_text_ne_nil (h.imp_right And.right)
  | case6 => simp only [word]; split <;> simp
  | case7 => simp only [string]; split <;> simp
  | case8 =>
    cases h : sign? lookback (c :: rest) with
    | none => simp
    | some p => exact sign?_text_ne_nil h

def ofSign : Sign → TokenKind
  | .indirection i => .indirection i
  | .delimiter d => .delimiter d
  | .operator o => .operator o
  | .lineEnd => .newLine

def kind? (p : Piece) : Option TokenKind :=
  match p.lexeme with
  | .blanks | .unknown _ => none
  | .lineComment => some .lineComment
  | .comment _ => some .comment
  | .directive opensLine => some (if opensLine then .directiveLine else .directive)
  | .number value => some (.number (min value maxInteger : Nat))
  | .word => some (.ofWord (String.ofList p.text))
  | .string contents _ => some (.string (String.ofList contents))
  | .sign sign => some (ofSign sign)

def lookback (p : Piece) (before : Lookback) : Lookback :=
  match p.kind? with
  | none => before
  | some kind => if kind.isComment then before else .ofKind kind

end Piece
end TalAnalysis
