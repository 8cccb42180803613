import TalAnalysis.Vocabulary.Dialect
import TalAnalysis.Vocabulary.Lookup

namespace TalAnalysis

inductive Keyword
  | define | literal | proc | subproc | struct | label | entry | block | name | begin | end_
  | forward | external | main | interrupt | resident | callable | priv | variable_ | extensible
  | if_ | then_ | else_ | case | of | otherwise | while | do_ | until | for_ | to | downto | by_
  | goto | return_ | call | scan | rscan | assert | code | drop | stack | store | use | string
  | int | unsigned | fixed | real | extAddr | sgAddr | sgbAddr | sgwAddr | bAddr | wAddr | cbAddr
  | cwAddr | procAddr | and | or | not | land | lor | xor
deriving DecidableEq, Repr, Inhabited

inductive KeywordCategory
  | declaration | block | attribute | controlFlow | statement | dataType | operator
deriving DecidableEq, Repr, Inhabited

def KeywordCategory.label : KeywordCategory → String
  | .declaration => "declaration"
  | .block => "block"
  | .attribute => "attribute"
  | .controlFlow => "controlflow"
  | .statement => "statement"
  | .dataType => "datatype"
  | .operator => "operator"

namespace Keyword

structure Details where
  spelling : String
  category : KeywordCategory
  dialect : Dialect

def details : Keyword → Details
  | .define => ⟨"DEFINE", .declaration, .tal⟩
  | .literal => ⟨"LITERAL", .declaration, .tal⟩
  | .proc => ⟨"PROC", .declaration, .tal⟩
  | .subproc => ⟨"SUBPROC", .declaration, .tal⟩
  | .struct => ⟨"STRUCT", .declaration, .tal⟩
  | .label => ⟨"LABEL", .declaration, .tal⟩
  | .entry => ⟨"ENTRY", .declaration, .tal⟩
  | .block => ⟨"BLOCK", .declaration, .tal⟩
  | .name => ⟨"NAME", .declaration, .tal⟩
  | .begin => ⟨"BEGIN", .block, .tal⟩
  | .end_ => ⟨"END", .block, .tal⟩
  | .forward => ⟨"FORWARD", .attribute, .tal⟩
  | .external => ⟨"EXTERNAL", .attribute, .tal⟩
  | .main => ⟨"MAIN", .attribute, .tal⟩
  | .interrupt => ⟨"INTERRUPT", .attribute, .tal⟩
  | .resident => ⟨"RESIDENT", .attribute, .tal⟩
  | .callable => ⟨"CALLABLE", .attribute, .tal⟩
  | .priv => ⟨"PRIV", .attribute, .tal⟩
  | .variable_ => ⟨"VARIABLE", .attribute, .tal⟩
  | .extensible => ⟨"EXTENSIBLE", .attribute, .tal⟩
  | .if_ => ⟨"IF", .controlFlow, .tal⟩
  | .then_ => ⟨"THEN", .controlFlow, .tal⟩
  | .else_ => ⟨"ELSE", .controlFlow, .tal⟩
  | .case => ⟨"CASE", .controlFlow, .tal⟩
  | .of => ⟨"OF", .controlFlow, .tal⟩
  | .otherwise => ⟨"OTHERWISE", .controlFlow, .tal⟩
  | .while => ⟨"WHILE", .controlFlow, .tal⟩
  | .do_ => ⟨"DO", .controlFlow, .tal⟩
  | .until => ⟨"UNTIL", .controlFlow, .tal⟩
  | .for_ => ⟨"FOR", .controlFlow, .tal⟩
  | .to => ⟨"TO", .controlFlow, .tal⟩
  | .downto => ⟨"DOWNTO", .controlFlow, .tal⟩
  | .by_ => ⟨"BY", .controlFlow, .tal⟩
  | .goto => ⟨"GOTO", .controlFlow, .tal⟩
  | .return_ => ⟨"RETURN", .controlFlow, .tal⟩
  | .call => ⟨"CALL", .controlFlow, .tal⟩
  | .scan => ⟨"SCAN", .statement, .tal⟩
  | .rscan => ⟨"RSCAN", .statement, .tal⟩
  | .assert => ⟨"ASSERT", .statement, .tal⟩
  | .code => ⟨"CODE", .statement, .tal⟩
  | .drop => ⟨"DROP", .statement, .tal⟩
  | .stack => ⟨"STACK", .statement, .tal⟩
  | .store => ⟨"STORE", .statement, .tal⟩
  | .use => ⟨"USE", .statement, .tal⟩
  | .string => ⟨"STRING", .dataType, .tal⟩
  | .int => ⟨"INT", .dataType, .tal⟩
  | .unsigned => ⟨"UNSIGNED", .dataType, .tal⟩
  | .fixed => ⟨"FIXED", .dataType, .tal⟩
  | .real => ⟨"REAL", .dataType, .tal⟩
  | .extAddr => ⟨"EXTADDR", .dataType, .pTal⟩
  | .sgAddr => ⟨"SGADDR", .dataType, .pTal⟩
  | .sgbAddr => ⟨"SGBADDR", .dataType, .pTal⟩
  | .sgwAddr => ⟨"SGWADDR", .dataType, .pTal⟩
  | .bAddr => ⟨"BADDR", .dataType, .pTal⟩
  | .wAddr => ⟨"WADDR", .dataType, .pTal⟩
  | .cbAddr => ⟨"CBADDR", .dataType, .pTal⟩
  | .cwAddr => ⟨"CWADDR", .dataType, .pTal⟩
  | .procAddr => ⟨"PROCADDR", .dataType, .pTal⟩
  | .and => ⟨"AND", .operator, .tal⟩
  | .or => ⟨"OR", .operator, .tal⟩
  | .not => ⟨"NOT", .operator, .tal⟩
  | .land => ⟨"LAND", .operator, .tal⟩
  | .lor => ⟨"LOR", .operator, .tal⟩
  | .xor => ⟨"XOR", .operator, .tal⟩

def spelling (k : Keyword) : String := k.details.spelling

def category (k : Keyword) : KeywordCategory := k.details.category

def dialect (k : Keyword) : Dialect := k.details.dialect

def stability (_ : Keyword) : Stability := .stable

def all : List Keyword :=
  [.define, .literal, .proc, .subproc, .struct, .label, .entry, .block, .name, .begin, .end_,
    .forward, .external, .main, .interrupt, .resident, .callable, .priv, .variable_, .extensible,
    .if_, .then_, .else_, .case, .of, .otherwise, .while, .do_, .until, .for_, .to, .downto,
    .by_, .goto, .return_, .call, .scan, .rscan, .assert, .code, .drop, .stack, .store, .use,
    .string, .int, .unsigned, .fixed, .real, .extAddr, .sgAddr, .sgbAddr, .sgwAddr, .bAddr,
    .wAddr, .cbAddr, .cwAddr, .procAddr, .and, .or, .not, .land, .lor, .xor]

theorem mem_all (k : Keyword) : k ∈ all := by cases k <;> decide

def ofSpelling? (word : String) : Option Keyword := findWord? all spelling word

theorem distinct : DistinctWords all spelling := by decide +kernel

theorem ofSpelling?_eq_some_iff {word : String} {k : Keyword} :
    ofSpelling? word = some k ↔ sameWord word k.spelling = true := by
  simp [ofSpelling?, findWord?_eq_some_iff distinct, mem_all]

end Keyword
end TalAnalysis
