import TalAnalysis.CommandLine.Run

namespace TalAnalysis.CommandLine

def accessError : IO.Error → AccessError
  | .noFileOrDirectory .. => .notFound
  | .inappropriateType .. => .isDirectory
  | e => .other (toString e)

def readSource (path : String) : IO (Except SourceError String) := do
  try
    let bytes ← IO.FS.readBinFile path
    return sourceOfBytes bytes.size bytes
  catch e =>
    match accessError e with
    | .isDirectory => return .error (.unreadable .isDirectory)
    | reason => return .error (.inaccessible reason)

def reportText (d : Diagnostic) : String :=
  d.code ++ "\n  " ++ d.message ++ " (bytes " ++ toString d.span.start ++ " to " ++
    toString d.span.stop ++ ")\n"

def present (outcome : Outcome) : IO UInt32 := do
  IO.print outcome.output
  for d in outcome.reports do
    IO.eprint (reportText d)
  for message in outcome.failure? do
    IO.eprintln message
  if outcome.exitCode = 2 then
    IO.eprintln Misuse.nothingToDo.message
  return outcome.exitCode.toUInt32

end TalAnalysis.CommandLine

open TalAnalysis.CommandLine in
def main (arguments : List String) : IO UInt32 := do
  match plan arguments with
  | .error outcome => present outcome
  | .ok task => present (task.run (← readSource task.file))
