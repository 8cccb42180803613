import TalAnalysis.Symbol.Basic

namespace TalAnalysis.Editor

inductive OutlineKind
  | function | struct | typeParameter | constant | key | variable_
deriving DecidableEq, Repr, Inhabited

def OutlineKind.ofSymbol (s : Symbol) : OutlineKind :=
  match s.kind, s.type with
  | .function, _ => .function
  | _, .struct => .struct
  | _, .parameter => .typeParameter
  | .literal, _ | .constant, _ | .define, _ | .identifier, _ => .constant
  | .directive, _ | .keyword, _ => .key
  | .variable_, _ => .variable_

end TalAnalysis.Editor
