import TalAnalysis.Text.Quoted
import TalAnalysis.Text.Span

namespace TalAnalysis

inductive Cause
  | unknownCharacter (c : Char)
  | unterminatedString
  | unterminatedComment
  | integerOutOfRange (numeral : String)
  | unterminatedDefine (name : String)
  | missingName (opening : String)
  | unbalancedEnd
deriving DecidableEq, Repr, Inhabited

inductive Severity
  | warning | hint
deriving DecidableEq, Repr, Inhabited

namespace Cause

def code : Cause → String
  | .unknownCharacter _ => "tal::lex::unknown-character"
  | .unterminatedString => "tal::lex::unterminated-string"
  | .unterminatedComment => "tal::lex::unterminated-comment"
  | .integerOutOfRange _ => "tal::lex::integer-out-of-range"
  | .unterminatedDefine _ => "tal::symbols::unterminated-define"
  | .missingName _ => "tal::symbols::missing-name"
  | .unbalancedEnd => "tal::symbols::unbalanced-end"

def severity : Cause → Severity
  | .unterminatedComment => .hint
  | _ => .warning

def message : Cause → String
  | .unknownCharacter c => "Unexpected character '" ++ Text.escaped c ++ "'"
  | .unterminatedString => "Unterminated string literal"
  | .unterminatedComment => "Comment is not closed with '!'"
  | .integerOutOfRange numeral => "Integer literal '" ++ numeral ++ "' does not fit in 64 bits"
  | .unterminatedDefine name => "DEFINE '" ++ name ++ "' has no terminating '#'"
  | .missingName opening => "Expected a name after " ++ opening
  | .unbalancedEnd => "END without a matching BEGIN"

def label? : Cause → Option String
  | .unknownCharacter _ => some "skipped"
  | .unterminatedString => some "string starts here"
  | .unterminatedComment => some "comment ends at the end of the line"
  | .integerOutOfRange _ => some "value saturated"
  | .unterminatedDefine _ => some "body runs to the end of the file"
  | .missingName _ | .unbalancedEnd => none

def hints : Cause → List String
  | .unterminatedString => ["Close the string with '\"'"]
  | .unterminatedDefine _ => ["End the DEFINE body with '#'"]
  | _ => []

end Cause

structure Diagnostic where
  cause : Cause
  span : Span
  label? : Option String := cause.label?
  hints : List String := cause.hints
deriving DecidableEq, Repr, Inhabited

namespace Diagnostic

def ofCause (cause : Cause) (span : Span) : Diagnostic := { cause, span }

def code (d : Diagnostic) : String := d.cause.code

def severity (d : Diagnostic) : Severity := d.cause.severity

def message (d : Diagnostic) : String := d.cause.message

def isWarning (d : Diagnostic) : Bool := d.severity == .warning

def withLabel (d : Diagnostic) (label : String) : Diagnostic := { d with label? := some label }

def withHint (d : Diagnostic) (hint : String) : Diagnostic := { d with hints := d.hints ++ [hint] }

def help? (d : Diagnostic) : Option String :=
  if d.hints.isEmpty then none else some (String.intercalate "\n" d.hints)

end Diagnostic
end TalAnalysis
