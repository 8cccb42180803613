import TalAnalysis.Editor.Completion
import TalAnalysis.Editor.Outline
import TalAnalysis.Editor.Problem
import TalAnalysis.Server.Json

/-!
# The language server

The server holds the documents that a client has open. It analyses a document when it is opened or
changed, publishes the problems, and answers requests from the last analysis. `Server.receive` takes
one message and gives the server after it, with what is sent back.

Before its `initialise` the server refuses every request, after its `shutdown` likewise, and at both
times it takes no notice of notifications. The options given at the start hold for all documents.
-/

namespace TalAnalysis
open Editor

structure Document where
  source : String
  version : Int
  analysis : Analysis
deriving DecidableEq, Repr, Inhabited

/-- What a client sends: `initialise`, `shutdown` and the four questions about a document are
requests, the others are notifications. A change holds the full text, and of several the last one
counts. -/
inductive Message
  | initialise (options? : Option Json)
  | initialised
  | shutdown
  | didOpen (uri text : String) (version : Int)
  | didChange (uri : String) (texts : List String) (version : Int)
  | didClose (uri : String)
  | hover (uri : String) (position : Position)
  | definition (uri : String) (position : Position)
  | symbols (uri : String)
  | completion (uri : String) (position : Position)

inductive Refusal
  | notInitialised
  | invalidRequest
deriving DecidableEq, Repr, Inhabited

inductive Answer
  | capabilities
  | nothing
  | hover (hover : Hover) (range : TextRange)
  | definition (uri : String) (range : TextRange)
  | symbols (source : String) (outline : List Outline)
  | completion (items : List Completion)

inductive LogLevel
  | warning | info
deriving DecidableEq, Repr, Inhabited

inductive Notice
  | log (level : LogLevel) (text : String)
  | problems (uri : String) (version? : Option Int) (problems : List Problem)
deriving DecidableEq, Repr, Inhabited

structure Reaction where
  reply? : Option (Except Refusal Answer) := none
  notices : List Notice := []

inductive Phase
  | waiting
  | running (options : LexOptions)
  | stopped
deriving DecidableEq, Repr, Inhabited

/-- The options in the value that a client gives at the start. Whatever is not as expected counts as
not given. -/
def LexOptions.ofJson (value? : Option Json) : LexOptions :=
  let flag (name : String) : Bool := ((value?.bind (Json.member? name)).bind Json.bool?).getD false
  { keepComments := flag "keepComments", groupNames := flag "multiWordNames" }

structure Server where
  phase : Phase := .waiting
  documents : List (String × Document) := []
deriving Repr, Inhabited

namespace Server

def document? (s : Server) (uri : String) : Option Document := s.documents.lookup uri

def forget (s : Server) (uri : String) : Server :=
  { s with documents := s.documents.filter fun entry => entry.1 != uri }

def store (s : Server) (uri : String) (d : Document) : Server :=
  { s with documents := (uri, d) :: (s.forget uri).documents }

def problemsOf (d : Document) : List Problem :=
  d.analysis.diagnostics.map (Problem.ofDiagnostic d.source)

def announce (uri : String) (d : Document) : List Notice :=
  let warnings := (d.analysis.diagnostics.filter Diagnostic.isWarning).length
  let line := Notice.log .warning (uri ++ ": " ++ toString warnings ++ " recovery warning(s)")
  (if 0 < warnings then [line] else []) ++ [.problems uri (some d.version) (problemsOf d)]

def update (s : Server) (options : LexOptions) (uri text : String) (version : Int) :
    Server × Reaction :=
  let d : Document := ⟨text, version, analyze text options⟩
  (s.store uri d, { notices := announce uri d })

def hoverAnswer (d : Document) (position : Position) : Answer :=
  match wordAt? d.source d.analysis.tokens position with
  | none => .nothing
  | some t =>
    match hover? d.analysis.symbols t with
    | none => .nothing
    | some hover => .hover hover (rangeOf d.source t.span)

def definitionAnswer (uri : String) (d : Document) (position : Position) : Answer :=
  match wordAt? d.source d.analysis.tokens position with
  | none => .nothing
  | some t =>
    match d.analysis.symbols.definition? t.text t.span.start with
    | none => .nothing
    | some s => .definition uri (rangeOf d.source s.span)

def symbolsAnswer (d : Document) : Answer := .symbols d.source (Outline.ofTable d.analysis.symbols)

def completionAnswer (d : Document) (position : Position) : Answer :=
  .completion (completions d.source d.analysis.symbols position)

def ask (s : Server) (uri : String) (answer : Document → Answer) : Server × Reaction :=
  (s, { reply? := some (.ok (((s.document? uri).map answer).getD .nothing)) })

def receiveRunning (s : Server) (options : LexOptions) : Message → Server × Reaction
  | .initialise _ => (s, { reply? := some (.error .invalidRequest) })
  | .initialised => (s, { notices := [.log .info "TAL LSP initialized"] })
  | .shutdown => ({ s with phase := .stopped }, { reply? := some (.ok .nothing) })
  | .didOpen uri text version => s.update options uri text version
  | .didChange uri texts version =>
    match texts.getLast? with
    | some text => s.update options uri text version
    | none => (s, {})
  | .didClose uri => (s.forget uri, { notices := [.problems uri none []] })
  | .hover uri position => s.ask uri (hoverAnswer · position)
  | .definition uri position => s.ask uri (definitionAnswer uri · position)
  | .symbols uri => s.ask uri symbolsAnswer
  | .completion uri position => s.ask uri (completionAnswer · position)

def isRequest : Message → Bool
  | .initialise _ | .shutdown | .hover .. | .definition .. | .symbols _ | .completion .. => true
  | .initialised | .didOpen .. | .didChange .. | .didClose _ => false

def refuse (refusal : Refusal) (m : Message) : Reaction :=
  if isRequest m then { reply? := some (.error refusal) } else {}

def receive (s : Server) (m : Message) : Server × Reaction :=
  match s.phase, m with
  | .waiting, .initialise options? =>
    ({ s with phase := .running (.ofJson options?) }, { reply? := some (.ok .capabilities) })
  | .waiting, m => (s, refuse .notInitialised m)
  | .running options, m => s.receiveRunning options m
  | .stopped, m => (s, refuse .invalidRequest m)

end Server
end TalAnalysis
