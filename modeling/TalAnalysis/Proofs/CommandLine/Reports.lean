import Mathlib
import TalAnalysis.CommandLine.Run
import TalAnalysis.Proofs.Server.Run

/-!
# What the command line and the editor report

One analysis is checked and listed on the command line and published in an editor, and each of them
counts, filters and shows its diagnostics in its own way. How the arguments are read is a parameter.
-/

namespace TalAnalysis

def Editor.Problem.isWarning (p : Problem) : Bool := p.severity == .warning

namespace CommandLine
open Editor Server

variable {file : String} {arguments : List String} {task : Task} {read : List String → Reading}

namespace IsFileName

end IsFileName

variable {disk : Disk} {size : Nat} {bytes : Thunk ByteArray} {text uri : String}
  {server : Server} {m : Message} {version : Int}

end CommandLine
end TalAnalysis
