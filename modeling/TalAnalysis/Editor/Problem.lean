import TalAnalysis.Diagnostic
import TalAnalysis.Editor.Position

namespace TalAnalysis.Editor

structure Problem where
  range : TextRange
  severity : Severity
  code : String
  message : String
  related : List String
deriving DecidableEq, Repr, Inhabited

def hintLine (hint : String) : String := "hint: " ++ hint

def Problem.ofDiagnostic (source : String) (d : Diagnostic) : Problem where
  range := rangeOf source d.span
  severity := d.severity
  code := d.code
  message := String.join (d.message :: d.hints.map fun hint => "\n\n" ++ hintLine hint)
  related := d.hints.map hintLine

end TalAnalysis.Editor
