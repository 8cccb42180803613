import TalAnalysis.Declaration.Extraction
import TalAnalysis.Lexer.Scan

namespace TalAnalysis

structure Analysis where
  tokens : List Token
  symbols : SymbolTable
  diagnostics : List Diagnostic
deriving DecidableEq, Repr, Inhabited

def analyze (source : String) (options : LexOptions := {}) : Analysis :=
  let lexed := lex source options
  let extracted := Declaration.extract lexed.tokens
  { tokens := lexed.tokens
    symbols := extracted.symbols
    diagnostics := lexed.diagnostics ++ extracted.diagnostics }

end TalAnalysis
