namespace TalAnalysis

inductive DelimiterCategory
  | bracket | separator | terminator | structural
deriving DecidableEq, Repr, Inhabited

inductive Delimiter
  | lParen | rParen | lBracket | rBracket | comma | colon | equal | semicolon | hash | dot
  | templateStar | bitFieldOpen
deriving DecidableEq, Repr, Inhabited

namespace Delimiter

def spelling : Delimiter → String
  | .lParen => "("
  | .rParen => ")"
  | .lBracket => "["
  | .rBracket => "]"
  | .comma => ","
  | .colon => ":"
  | .equal => "="
  | .semicolon => ";"
  | .hash => "#"
  | .dot => "."
  | .templateStar => "(*)"
  | .bitFieldOpen => ".<"

def category : Delimiter → DelimiterCategory
  | .lParen | .rParen | .lBracket | .rBracket => .bracket
  | .comma | .colon | .equal => .separator
  | .semicolon | .hash => .terminator
  | .dot | .templateStar | .bitFieldOpen => .structural

def all : List Delimiter :=
  [.lParen, .rParen, .lBracket, .rBracket, .comma, .colon, .equal, .semicolon, .hash, .dot,
    .templateStar, .bitFieldOpen]

theorem mem_all (d : Delimiter) : d ∈ all := by cases d <;> decide

def ofSpelling? (text : String) : Option Delimiter := all.find? fun d => d.spelling == text

end Delimiter

def lineTerminators : List String := ["\r\n", "\n", "\r"]

def isLineTerminator (text : String) : Bool := lineTerminators.contains text

end TalAnalysis
