import TalAnalysis.Symbol.Table
import TalAnalysis.Token.Description

namespace TalAnalysis

def placeText (line start stop : Nat) : String :=
  toString line ++ ":" ++ toString start ++ "-" ++ toString stop

def tokenLine (t : Token) : String :=
  placeText t.line t.startColumn t.endColumn ++ "\t" ++ t.kind.describe ++ "\t" ++
    Text.quoted t.text ++ "\n"

def symbolLine (s : Symbol) : String :=
  let value :=
    match s.value with
    | .none => ""
    | value => "\t= " ++ value.render
  s.key.render ++ "\t" ++ s.kind.label ++ "\t" ++ s.type.label ++ "\t" ++
    placeText s.line s.startColumn s.endColumn ++ value ++ "\n"

def tokenListing (tokens : List Token) : String := String.join (tokens.map tokenLine)

def symbolListing (symbols : List Symbol) : String := String.join (symbols.map symbolLine)

end TalAnalysis
