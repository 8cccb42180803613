import TalAnalysis.Text.Quoted
import TalAnalysis.Token.Basic

namespace TalAnalysis.TokenKind

def describe : TokenKind → String
  | .keyword k => "keyword " ++ k.spelling
  | .dataType t => "type " ++ t.spelling
  | .operator o => "operator " ++ o.spelling
  | .indirection i => "indirection " ++ i.spelling
  | .delimiter d => "delimiter " ++ d.spelling
  | .name n => "name " ++ n
  | .number value => "number " ++ toString value
  | .string contents => "string " ++ Text.quoted contents
  | .directive => "directive"
  | .directiveLine => "directive line"
  | .newLine => "newline"
  | .comment => "comment"
  | .lineComment => "line comment"

end TalAnalysis.TokenKind
