import TalAnalysis.Token.Basic

namespace TalAnalysis

def globalContext : String := "Global"

inductive SymbolKind
  | directive | function | variable_ | constant | keyword | identifier | literal | define
deriving DecidableEq, Repr, Inhabited

def SymbolKind.label : SymbolKind → String
  | .directive => "Directive"
  | .function => "Function"
  | .variable_ => "Variable"
  | .constant => "Constant"
  | .keyword => "Keyword"
  | .identifier => "Identifier"
  | .literal => "Literal"
  | .define => "Define"

inductive SymbolType
  | identifier
  | parameter
  | body
  | value
  | directive
  | external
  | procedure
  | subprocedure
  | struct
  | typed (dataType : DataType)
deriving DecidableEq, Repr, Inhabited

def SymbolType.label : SymbolType → String
  | .identifier => "Identifier"
  | .parameter => "Parameter"
  | .body => "Body"
  | .value => "Value"
  | .directive => "Directive"
  | .external => "External"
  | .procedure => "Procedure"
  | .subprocedure => "Subprocedure"
  | .struct => "Struct"
  | .typed t => t.spelling

inductive SymbolValue
  | none
  | text (text : String)
  | tokens (tokens : List Token)
deriving DecidableEq, Repr, Inhabited

namespace SymbolValue

def text? : SymbolValue → Option String
  | .text t => some t
  | _ => Option.none

def render : SymbolValue → String
  | .none => ""
  | .text t => t
  | .tokens ts => Token.joinText ts

end SymbolValue

inductive KeySuffix
  | none
  | parameter (name : String)
  | body
deriving DecidableEq, Repr, Inhabited

def KeySuffix.isParameter : KeySuffix → Bool
  | .parameter _ => true
  | _ => false

structure SymbolKey where
  context : String
  name : String
  suffix : KeySuffix := .none
deriving DecidableEq, Repr, Inhabited

namespace SymbolKey

def render (k : SymbolKey) : String :=
  k.context ++ "." ++ k.name ++
    match k.suffix with
    | .none => ""
    | .parameter p => "." ++ p
    | .body => ".Body"

end SymbolKey

structure Symbol where
  key : SymbolKey
  kind : SymbolKind
  type : SymbolType
  name : String
  value : SymbolValue := .none
  context : String
  line : Nat
  startColumn : Nat
  endColumn : Nat
  span : Span
deriving DecidableEq, Repr, Inhabited

namespace Symbol

def declaredAt (t : Token) (kind : SymbolKind) (type : SymbolType) (context : String) : Symbol where
  key := ⟨context, t.text, .none⟩
  kind := kind
  type := type
  name := t.text
  context := context
  line := t.line
  startColumn := t.startColumn
  endColumn := t.endColumn
  span := t.span

end Symbol
end TalAnalysis
