import TalAnalysis.Analysis
import TalAnalysis.Text.Lowercase
import TalAnalysis.Vocabulary.StandardFunction

namespace TalAnalysis

namespace SymbolTable

def procedureParameters (table : SymbolTable) (name : String) : List String :=
  (table.symbols.filter fun p =>
    p.context = name ∧ p.type = .parameter ∧ p.kind = .variable_).map Symbol.name

def defineParameters (table : SymbolTable) (s : Symbol) : List String :=
  (table.symbols.filter fun p =>
    p.context = s.context ∧ p.key.name = s.name ∧ p.key.suffix.isParameter).map Symbol.name

def defineBody (table : SymbolTable) (s : Symbol) : String :=
  ((table.symbols.find? fun b =>
    b.context = s.context ∧ b.key.name = s.name ∧ b.key.suffix = .body).map fun b =>
      b.value.render).getD ""

def parenthesizedNames (names : List String) : String :=
  if names.isEmpty then "" else "(" ++ String.intercalate ", " names ++ ")"

def detail (table : SymbolTable) (s : Symbol) : String :=
  match s.kind, s.type with
  | .function, .external => "PROC " ++ s.name ++ "  ! from ?SOURCE " ++ s.context
  | .function, type =>
    let result :=
      match s.value with
      | .text t => t ++ " "
      | _ => ""
    let keyword := if type = .subprocedure then "SUBPROC " else "PROC "
    result ++ keyword ++ s.name ++ parenthesizedNames (table.procedureParameters s.name)
  | .literal, _ => "LITERAL " ++ s.name ++ " = " ++ s.value.render
  | .define, .identifier =>
    "DEFINE " ++ s.name ++ parenthesizedNames (table.defineParameters s) ++ " = " ++
      table.defineBody s ++ " #"
  | .define, .parameter => s.name ++ "  ! parameter of DEFINE " ++ s.key.name
  | .variable_, .parameter => s.name ++ "  ! parameter of " ++ s.context
  | .variable_, .struct => "STRUCT " ++ s.name
  | .variable_, type =>
    type.label ++ " " ++ s.name ++
      match s.value with
      | .none => ""
      | value => " := " ++ value.render
  | .directive, _ =>
    "?" ++ s.name ++
      match s.value with
      | .none => ""
      | value => " " ++ value.render
  | _, _ => s.name

def later (best : Option Symbol) (s : Symbol) : Option Symbol :=
  match best with
  | some b => if s.span.start < b.span.start then some b else some s
  | none => some s

def earlier (best : Option Symbol) (s : Symbol) : Option Symbol :=
  match best with
  | some b => if s.span.start < b.span.start then some s else some b
  | none => some s

def candidates (table : SymbolTable) (name : String) : List Symbol :=
  (table.named name).filter fun s => s.key.suffix != .body

/-- The symbol that a name at an offset stands for: the last one declared no later than there, or
else the first one declared at all. -/
def definition? (table : SymbolTable) (name : String) (offset : Nat) : Option Symbol :=
  let candidates := table.candidates name
  ((candidates.filter fun s => s.span.start ≤ offset).foldl later none).or
    (candidates.foldl earlier none)

end SymbolTable

namespace Editor

structure Hover where
  detail : String
  kind : String
deriving DecidableEq, Repr, Inhabited

def kindLabel (s : Symbol) : String :=
  let place := if s.context = globalContext then "global" else "in " ++ s.context
  Text.lowercase (s.kind.label ++ " (" ++ place ++ ")")

def vocabularyHover? (t : Token) : Option Hover :=
  match StandardFunction.ofName? t.text with
  | some f => some ⟨f.name, "standard function: " ++ f.summary⟩
  | none =>
    match t.kind with
    | .dataType d => some ⟨d.spelling, "data type: " ++ d.description⟩
    | .keyword k => some ⟨k.spelling, "keyword (" ++ k.category.label ++ ")"⟩
    | .name name =>
      (Directive.ofSpelling? name).map fun d => ⟨"?" ++ d.spelling, "directive: " ++ d.description⟩
    | _ => none

def hover? (symbols : SymbolTable) (t : Token) : Option Hover :=
  match symbols.definition? t.text t.span.start with
  | some s => some ⟨symbols.detail s, kindLabel s⟩
  | none => vocabularyHover? t

end Editor
end TalAnalysis
