import TalAnalysis.Editor.Detail
import TalAnalysis.Editor.Position

namespace TalAnalysis.Editor

inductive CompletionKind
  | directive | keyword | function | struct | constant | variable_
deriving DecidableEq, Repr, Inhabited

structure Completion where
  label : String
  kind : CompletionKind
  detail? : Option String := none
deriving DecidableEq, Repr, Inhabited

def completionKind? (s : Symbol) : Option CompletionKind :=
  match s.kind, s.type with
  | .directive, _ | _, .body | .define, .parameter => none
  | .function, _ => some .function
  | _, .struct => some .struct
  | .literal, _ | .constant, _ | .define, _ => some .constant
  | _, _ => some .variable_

/-- The symbols that are completions, each under the first spelling of its name. `seen` are names
that have had their turn, in lower case. -/
def completionSymbols (seen : List (List Char)) : List Symbol → List (Symbol × CompletionKind)
  | [] => []
  | s :: symbols =>
    match completionKind? s with
    | none => completionSymbols seen symbols
    | some kind =>
      let name := Text.foldCase s.name.toList
      if seen.contains name then completionSymbols seen symbols
      else (s, kind) :: completionSymbols (name :: seen) symbols

def directiveCompletions : List Completion :=
  Directive.all.map fun d => ⟨d.spelling, .directive, some d.description⟩

def vocabularyCompletions : List Completion :=
  Keyword.all.map (fun k => ⟨k.spelling, .keyword, none⟩) ++
    StandardFunction.all.map (fun f => ⟨f.name, .function, some f.summary⟩)

def symbolCompletions (table : SymbolTable) : List Completion :=
  (completionSymbols [] table.symbols).map fun (s, kind) => ⟨s.name, kind, some (table.detail s)⟩

def completions (source : String) (symbols : SymbolTable) (position : Position) : List Completion :=
  let offset := (offsetAt? source position).getD (Text.byteLength source.toList)
  if (onDirectiveLine? source offset).getD false then directiveCompletions
  else vocabularyCompletions ++ symbolCompletions symbols

/-- The word at a position: the first one that touches it. -/
def wordAt? (source : String) (tokens : List Token) (position : Position) : Option Token := do
  let offset ← offsetAt? source position
  (tokens.filter fun t => t.kind.isWord).find? fun t => t.span.touches offset

end TalAnalysis.Editor
