import TalAnalysis.Text.Span
import TalAnalysis.Vocabulary.DataType
import TalAnalysis.Vocabulary.Delimiter
import TalAnalysis.Vocabulary.Indirection
import TalAnalysis.Vocabulary.Operator

namespace TalAnalysis

inductive TokenKind
  | keyword (id : Keyword)
  | dataType (id : DataType)
  | operator (id : Operator)
  | indirection (id : Indirection)
  | delimiter (id : Delimiter)
  | name (spelling : String)
  | number (value : Int)
  | string (contents : String)
  | directive
  | directiveLine
  | newLine
  | comment
  | lineComment
deriving DecidableEq, Repr, Inhabited

namespace TokenKind

def keyword? : TokenKind → Option Keyword
  | .keyword k => some k
  | _ => none

def dataType? : TokenKind → Option DataType
  | .dataType t => some t
  | _ => none

def delimiter? : TokenKind → Option Delimiter
  | .delimiter d => some d
  | _ => none

def name? : TokenKind → Option String
  | .name n => some n
  | _ => none

def isName (k : TokenKind) : Bool := k.name?.isSome

/-- A name or a reserved word, the operators that are words included. -/
def isWord : TokenKind → Bool
  | .name _ | .keyword _ | .dataType _ => true
  | .operator o => o.isWord
  | _ => false

def marksPointer : TokenKind → Bool
  | .indirection i => i.category == .pointer
  | .delimiter .dot => true
  | _ => false

def marksDirective : TokenKind → Bool
  | .directive | .directiveLine => true
  | _ => false

def isComment : TokenKind → Bool
  | .comment | .lineComment => true
  | _ => false

/-- The line ends with the token. A comment that runs to the end of its line includes the line
break. -/
def endsLine : TokenKind → Bool
  | .newLine | .lineComment => true
  | _ => false

def isLayout (k : TokenKind) : Bool := k == .newLine || k.isComment

/-- What a word stands for: a data type, an operator, another reserved word, or a name. -/
def ofWord (word : String) : TokenKind :=
  match DataType.ofSpelling? word with
  | some t => .dataType t
  | none =>
    match Operator.ofWord? word with
    | some o => .operator o
    | none =>
      match Keyword.ofSpelling? word with
      | some k => .keyword k
      | none => .name word

end TokenKind

structure Token where
  kind : TokenKind
  text : String
  span : Span
  line : Nat
  startColumn : Nat
  endColumn : Nat
deriving DecidableEq, Repr, Inhabited

namespace Token

/-- How many characters a text has up to its first line break, which is counted too. -/
def firstLineWidth : List Char → Nat
  | [] => 0
  | '\r' :: '\n' :: _ => 2
  | c :: text => if c = '\n' ∨ c = '\r' then 1 else firstLineWidth text + 1

theorem firstLineWidth_cons (c : Char) (text : List Char) :
    firstLineWidth (c :: text) =
      if c = '\r' ∧ text.head? = some '\n' then 2
      else if c = '\n' ∨ c = '\r' then 1 else firstLineWidth text + 1 := by
  by_cases pair : c = '\r' ∧ text.head? = some '\n'
  · obtain ⟨rfl, feed⟩ := pair
    obtain ⟨rest, rfl⟩ := List.head?_eq_some_iff.1 feed
    rfl
  · rw [if_neg pair, firstLineWidth]
    rintro rest rfl rfl
    exact pair ⟨rfl, rfl⟩

def write (kind : TokenKind) (text : String) (span : Span) (line startColumn : Nat) : Token :=
  { kind, text, span, line, startColumn
    endColumn := startColumn + firstLineWidth text.toList }

def isDelimiter (t : Token) (d : Delimiter) : Bool := t.kind == .delimiter d

def isKeyword (t : Token) (k : Keyword) : Bool := t.kind == .keyword k

/-- The texts of a run of tokens without layout, with a space where the source has a gap. The run
follows a token that stops at `lastStop`, if it follows any. -/
def pieces (lastStop : Option Nat) : List Token → List String
  | [] => []
  | t :: rest =>
      (if lastStop.any (· < t.span.start) then " " else "") ::
        t.text :: pieces (some t.span.stop) rest

/-- The text of a run of tokens, as it reads in the source without its layout: tokens that touch are
written together, and any gap becomes one space. -/
def joinText (tokens : List Token) : String :=
  String.join (pieces none (tokens.filter fun t => !t.kind.isLayout))

end Token
end TalAnalysis
