import TalAnalysis.Analysis
import TalAnalysis.CommandLine.Arguments
import TalAnalysis.CommandLine.Disk
import TalAnalysis.CommandLine.Listing

namespace TalAnalysis.CommandLine

inductive Task
  | listTokens (file : String) (keepComments : Bool)
  | listSymbols (file : String)
  | check (file : String) (strict : Bool)
deriving DecidableEq, Repr, Inhabited

def Task.file : Task → String
  | .listTokens file _ | .listSymbols file | .check file _ => file

inductive Misuse
  | commentsWithoutTokens
  | nothingToDo
deriving DecidableEq, Repr, Inhabited

def Misuse.message : Misuse → String
  | .commentsWithoutTokens => "--keep-comments only applies to --lex <FILE>"
  | .nothingToDo => usage

def Arguments.task (a : Arguments) : Except Misuse Task :=
  match a.tokensOf?, a.symbolsOf?, a.check?, a.file? with
  | some file, _, _, _ => .ok (.listTokens file a.keepComments)
  | none, symbolsOf?, check?, file? =>
    if a.keepComments then .error .commentsWithoutTokens
    else
      match symbolsOf?, check?, file? with
      | some file, _, _ => .ok (.listSymbols file)
      | none, some check, _ => .ok (.check check.file check.strict)
      | none, none, some file => .ok (.check file false)
      | none, none, none => .error .nothingToDo

def maxSourceSize : Nat := 100 * 1024 * 1024

inductive SourceError
  | inaccessible (reason : AccessError)
  | tooLarge (size : Nat)
  | unreadable (reason : AccessError)
deriving DecidableEq, Repr, Inhabited

def SourceError.message (file : String) : SourceError → String
  | .inaccessible reason => "Cannot access file '" ++ file ++ "': " ++ reason.message
  | .tooLarge size =>
    "Source file '" ++ file ++ "' is too large (" ++ toString size ++ " bytes, max " ++
      toString maxSourceSize ++ " bytes)"
  | .unreadable reason => "Error reading file '" ++ file ++ "': " ++ reason.message

def sourceOfBytes (size : Nat) (bytes : Thunk ByteArray) : Except SourceError String :=
  if maxSourceSize < size then .error (.tooLarge size)
  else
    match String.fromUTF8? bytes.get with
    | some text => .ok text
    | none => .error (.unreadable .notText)

def Disk.source (disk : Disk) (path : String) : Except SourceError String :=
  match disk.find path with
  | .error reason => .error (.inaccessible reason)
  | .ok .directory => .error (.unreadable .isDirectory)
  | .ok (.file size bytes) => sourceOfBytes size bytes

structure Outcome where
  exitCode : Nat := 0
  output : String := ""
  reports : List Diagnostic := []
  failure? : Option String := none
deriving DecidableEq, Repr, Inhabited

def Outcome.failed (message : String) (reports : List Diagnostic := []) : Outcome :=
  { exitCode := 1, reports, failure? := some message }

def checkOutcome (file : String) (strict : Bool) (analysis : Analysis) : Outcome :=
  let reports := analysis.diagnostics.filter fun d => strict || d.isWarning
  if reports.isEmpty then
    { output := "✓ " ++ file ++ ": " ++ toString analysis.symbols.size ++ " symbols, no issues\n" }
  else .failed (toString reports.length ++ " issue(s) in " ++ file) reports

def Task.outcome (source : String) : Task → Outcome
  | .listTokens _ keepComments =>
    let lexed := lex source { keepComments }
    { output := tokenListing lexed.tokens, reports := lexed.diagnostics }
  | .listSymbols _ =>
    let analysis := analyze source
    { output := symbolListing analysis.symbols.symbols, reports := analysis.diagnostics }
  | .check file strict => checkOutcome file strict (analyze source)

def Task.run (task : Task) (source : Except SourceError String) : Outcome :=
  match source with
  | .ok text => task.outcome text
  | .error e => .failed (e.message task.file)

def plan (arguments : List String) (read : List String → Reading := readArguments {}) :
    Except Outcome Task :=
  match read arguments with
  | .rejected => .error { exitCode := 2 }
  | .answered text => .error { output := text }
  | .accepted a =>
    match a.task with
    | .ok task => .ok task
    | .error misuse => .error (.failed misuse.message)

def run (disk : Disk) (arguments : List String) (read : List String → Reading := readArguments {}) :
    Outcome :=
  match plan arguments read with
  | .error outcome => outcome
  | .ok task => task.run (disk.source task.file)

end TalAnalysis.CommandLine
