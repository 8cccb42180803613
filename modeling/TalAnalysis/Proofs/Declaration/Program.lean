import TalAnalysis.Declaration.Scope
import TalAnalysis.Proofs.Declaration.Word

namespace TalAnalysis.Declaration

def staysInStatement (t : Token) : Bool :=
  match t.kind with
  | .keyword .literal | .keyword .define | .keyword .proc | .keyword .subproc | .keyword .struct
  | .keyword .begin | .keyword .end_ | .keyword .forward | .keyword .external
  | .delimiter .semicolon => false
  | kind => !(kind.isLayout || kind.marksDirective)

structure StatementWords where
  tokens : List Token
  stays : ∀ t ∈ tokens, staysInStatement t = true
  noType : ∀ t ∈ tokens.head?, t.kind.dataType? = none

structure VariableLine where
  type : TypeToken
  name : NameToken
  stop : TokenOf (.delimiter .semicolon)

def VariableLine.tokens (line : VariableLine) : List Token :=
  [line.type.token, line.name.token, line.stop.token]

def VariableLine.symbol (context : String) (line : VariableLine) : Symbol :=
  Symbol.declaredAt line.name.token .variable_ (.typed line.type.dataType) context

structure ProcedureLine where
  result? : Option TypeToken
  keyword : { t : Token // opensProcedure t = true }
  name : NameToken
  stop : TokenOf (.delimiter .semicolon)

def ProcedureLine.tokens (line : ProcedureLine) : List Token :=
  line.result?.toList.map TypeToken.token ++ [line.keyword.val, line.name.token, line.stop.token]

def ProcedureLine.symbol (context : String) (line : ProcedureLine) : Symbol :=
  let type := if line.keyword.val.isKeyword .subproc then .subprocedure else .procedure
  { Symbol.declaredAt line.name.token .function type context with
    value :=
      match line.result? with
      | some result => .text result.dataType.spelling
      | none => .none }

structure StructureLine where
  keyword : TokenOf (.keyword .struct)
  name : NameToken
  stop : TokenOf (.delimiter .semicolon)

def StructureLine.tokens (line : StructureLine) : List Token :=
  [line.keyword.token, line.name.token, line.stop.token]

def StructureLine.symbol (context : String) (line : StructureLine) : Symbol :=
  Symbol.declaredAt line.name.token .variable_ .struct context

structure Brackets where
  opening : TokenOf (.keyword .begin)
  closing : TokenOf (.keyword .end_)
  stop : TokenOf (.delimiter .semicolon)

def Brackets.around (brackets : Brackets) (tokens : List Token) : List Token :=
  brackets.opening.token :: (tokens ++ [brackets.closing.token, brackets.stop.token])

inductive Part
  | header | body

inductive Items : Part → Type
  | none {part} : Items part
  | variable_ {part} (line : VariableLine) (others : Items part) : Items part
  | structure_ {part} (line : StructureLine) (brackets : Brackets) (items : Items .body)
      (others : Items part) : Items part
  | statement (words : StatementWords) (stop : TokenOf (.delimiter .semicolon))
      (others : Items .body) : Items .body
  | block (words : StatementWords) (brackets : Brackets) (items others : Items .body) : Items .body
  | procedure (line : ProcedureLine) (header : Items .header) (brackets : Brackets)
      (items others : Items .body) : Items .body
  /-- The procedure has its body elsewhere, as a FORWARD or EXTERNAL says. -/
  | elsewhere (line : ProcedureLine)
      (word : { t : Token // t.kind = .keyword .forward ∨ t.kind = .keyword .external })
      (stop : TokenOf (.delimiter .semicolon)) (others : Items .body) : Items .body

namespace Items

def tokens {part : Part} : Items part → List Token
  | .none => []
  | .variable_ line others => line.tokens ++ others.tokens
  | .structure_ line brackets items others =>
      line.tokens ++ brackets.around items.tokens ++ others.tokens
  | .statement words stop others => words.tokens ++ stop.token :: others.tokens
  | .block words brackets items others =>
      words.tokens ++ brackets.around items.tokens ++ others.tokens
  | .procedure line header brackets items others =>
      line.tokens ++ header.tokens ++ brackets.around items.tokens ++ others.tokens
  | .elsewhere line word stop others => line.tokens ++ word.val :: stop.token :: others.tokens

def symbols {part : Part} (context : String) : Items part → List Symbol
  | .none => []
  | .variable_ line others => line.symbol context :: others.symbols context
  | .structure_ line _ items others =>
      line.symbol context :: (items.symbols line.name.token.text ++ others.symbols context)
  | .statement _ _ others => others.symbols context
  | .block _ _ items others => items.symbols context ++ others.symbols context
  | .procedure line header _ items others =>
      line.symbol context :: (header.symbols line.name.token.text ++
        items.symbols line.name.token.text ++ others.symbols context)
  | .elsewhere line _ _ others => line.symbol context :: others.symbols context

end Items

def plainBrackets : Brackets := ⟨plainToken _ "BEGIN", plainToken _ "END", plainStop⟩

def plainVariable (name : String) : VariableLine :=
  ⟨⟨(plainToken (.dataType .int) "INT").token, .int, rfl⟩, plainName name, plainStop⟩

/-- A procedure with a structure and a variable before its BEGIN, and a block in a subprocedure in
it; then a procedure without its body. -/
def nestedProgram : Items .body :=
  let proc : { t : Token // opensProcedure t = true } :=
    ⟨(plainToken (.keyword .proc) "PROC").token, rfl⟩
  let subproc : { t : Token // opensProcedure t = true } :=
    ⟨(plainToken (.keyword .subproc) "SUBPROC").token, rfl⟩
  let call : StatementWords := ⟨[(plainName "call").token], by decide, by decide⟩
  .procedure ⟨none, proc, plainName "p", plainStop⟩
    (.structure_ ⟨plainToken _ "STRUCT", plainName "s", plainStop⟩ plainBrackets
      (.variable_ (plainVariable "field") .none) (.variable_ (plainVariable "x") .none))
    plainBrackets
    (.procedure ⟨some (plainVariable "x").type, subproc, plainName "q", plainStop⟩ .none
      plainBrackets
      (.block call plainBrackets (.variable_ (plainVariable "y") .none)
        (.statement call plainStop .none))
      (.variable_ (plainVariable "z") .none))
    (.elsewhere ⟨none, proc, plainName "r", plainStop⟩
      ⟨(plainToken (.keyword .forward) "FORWARD").token, .inl rfl⟩ plainStop
      (.variable_ (plainVariable "x") .none))

end TalAnalysis.Declaration
