import TalAnalysis.Version

namespace TalAnalysis.CommandLine

structure Check where
  file : String
  strict : Bool
deriving DecidableEq, Repr, Inhabited

structure Arguments where
  tokensOf? : Option String := none
  symbolsOf? : Option String := none
  file? : Option String := none
  keepComments : Bool := false
  check? : Option Check := none
deriving DecidableEq, Repr, Inhabited

inductive Reading
  | rejected
  | answered (text : String)
  | accepted (arguments : Arguments)
deriving DecidableEq, Repr, Inhabited

def commands : List String := ["check", "help"]

def usage : String := "Usage: tal [FILE] | tal check <FILE> | tal --lex <FILE> | tal --symbols <FILE>"

def askedForHelp : Reading := .answered (usage ++ "\n")

def askedForVersion : Reading := .answered ("tal " ++ version ++ "\n")

def isOption (argument : String) : Bool := argument.startsWith "-" && argument != "-"

def asksForHelp (argument : String) : Bool := argument == "--help" || argument.startsWith "-h"

def valueAfter? (name argument : String) : Option String :=
  let front := (name ++ "=").toList
  if front.isPrefixOf argument.toList then some (String.ofList (argument.toList.drop front.length))
  else none

def fill (place : Option String) (file : String) : Option (Option String) :=
  if place.isSome || file.isEmpty then none else some (some file)

def Arguments.withFile (a : Arguments) (file : String) : Option Arguments :=
  (fill a.file? file).map fun file? => { a with file? }

def Arguments.withTokensOf (a : Arguments) (file : String) : Option Arguments :=
  (fill a.tokensOf? file).map fun tokensOf? => { a with tokensOf? }

def Arguments.withSymbolsOf (a : Arguments) (file : String) : Option Arguments :=
  (fill a.symbolsOf? file).map fun symbolsOf? => { a with symbolsOf? }

def Arguments.withComments (a : Arguments) : Option Arguments :=
  if a.keepComments then none else some { a with keepComments := true }

def Arguments.agree (a : Arguments) : Bool :=
  ([a.tokensOf?, a.symbolsOf?, a.file?].filter Option.isSome).length ≤ 1

def finish (a : Arguments) : Reading := if a.agree then .accepted a else .rejected

def readCheck (a : Arguments) (file? : Option String) (strict : Bool) : List String → Reading
  | [] =>
    match file? with
    | some file => finish { a with check? := some ⟨file, strict⟩ }
    | none => .rejected
  | "--" :: rest =>
    match file?, rest with
    | none, [file] =>
      if file.isEmpty then .rejected else finish { a with check? := some ⟨file, strict⟩ }
    | some file, [] => finish { a with check? := some ⟨file, strict⟩ }
    | _, _ => .rejected
  | "--strict" :: rest => if strict then .rejected else readCheck a file? true rest
  | argument :: rest =>
    if isOption argument then if asksForHelp argument then askedForHelp else .rejected
    else
      match fill file? argument with
      | some file? => readCheck a file? strict rest
      | none => .rejected

/-- One way to read the arguments, from left to right. A run may read them in any other way. -/
def readArguments (a : Arguments) : List String → Reading
  | [] => finish a
  | ["--"] => finish a
  | ["--", file] =>
    match a.withFile file with
    | some a => finish a
    | none => .rejected
  | "--" :: _ => .rejected
  | "--version" :: _ => askedForVersion
  | "check" :: rest => readCheck a none false rest
  | "help" :: rest => if rest ∈ [] :: commands.map ([·]) then askedForHelp else .rejected
  | "--keep-comments" :: rest =>
    match a.withComments with
    | some a => readArguments a rest
    | none => .rejected
  | "--lex" :: rest => readValue a Arguments.withTokensOf rest
  | "--symbols" :: rest => readValue a Arguments.withSymbolsOf rest
  | argument :: rest =>
    let read? :=
      match valueAfter? "--lex" argument, valueAfter? "--symbols" argument with
      | some file, _ => a.withTokensOf file
      | none, some file => a.withSymbolsOf file
      | none, none => if isOption argument then none else a.withFile argument
    match read? with
    | some a => readArguments a rest
    | none =>
      if asksForHelp argument then askedForHelp
      else if argument.startsWith "-V" then askedForVersion
      else .rejected
where
  readValue (a : Arguments) (set : Arguments → String → Option Arguments) : List String → Reading
    | [] => .rejected
    | file :: rest =>
      if isOption file then .rejected
      else
        match set a file with
        | some a => readArguments a rest
        | none => .rejected

end TalAnalysis.CommandLine
