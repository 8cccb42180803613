import TalAnalysis.Editor.OutlineKind
import TalAnalysis.Server.Basic
import TalAnalysis.Version

namespace TalAnalysis.Server
open Editor

def severityNumber : Severity → Nat
  | .warning => 2
  | .hint => 4

def logNumber : LogLevel → Nat
  | .warning => 2
  | .info => 3

def outlineNumber : OutlineKind → Nat
  | .function => 12
  | .variable_ => 13
  | .constant => 14
  | .key => 20
  | .struct => 23
  | .typeParameter => 26

def completionNumber : CompletionKind → Nat
  | .function => 3
  | .variable_ => 6
  | .directive => 10
  | .keyword => 14
  | .constant => 21
  | .struct => 22

def refusalError : Refusal → Int × String
  | .notInitialised => (-32002, "Server not initialized")
  | .invalidRequest => (-32600, "Invalid request")

def positionJson (p : Position) : Json :=
  .object [("line", .nat p.line), ("character", .nat p.character)]

def rangeJson (r : TextRange) : Json :=
  .object [("start", positionJson r.start), ("end", positionJson r.stop)]

def locationJson (uri : String) (r : TextRange) : Json :=
  .object [("uri", .string uri), ("range", rangeJson r)]

def problemJson (uri : String) (p : Problem) : Json :=
  let related := p.related.map fun text =>
    Json.object [("location", locationJson uri p.range), ("message", .string text)]
  .ofMembers
    [("range", some (rangeJson p.range)),
      ("severity", some (.nat (severityNumber p.severity))),
      ("code", some (.string p.code)),
      ("source", some (.string "tal")),
      ("message", some (.string p.message)),
      ("relatedInformation", if related.isEmpty then none else some (.array related))]

def outlineJson (source : String) : Outline → Json
  | .node s children =>
    let range := rangeJson (rangeOf source s.span)
    let below := children.map (outlineJson source)
    .ofMembers
      [("name", some (.string s.name)),
        ("detail", some (.string s.type.label)),
        ("kind", some (.nat (outlineNumber (.ofSymbol s)))),
        ("range", some range),
        ("selectionRange", some range),
        ("children", if below.isEmpty then none else some (.array below))]

def completionJson (c : Completion) : Json :=
  .ofMembers
    [("label", some (.string c.label)),
      ("kind", some (.nat (completionNumber c.kind))),
      ("detail", c.detail?.map .string)]

def hoverMarkdown (h : Hover) : String :=
  "\x60\x60\x60tal\n" ++ h.detail ++ "\n\x60\x60\x60\n\n*" ++ h.kind ++ "*"

def capabilitiesJson : Json :=
  .object
    [("capabilities", .object
        [("textDocumentSync", .nat 1),
          ("hoverProvider", .bool true),
          ("definitionProvider", .bool true),
          ("documentSymbolProvider", .bool true),
          ("completionProvider", .object
            [("triggerCharacters", .array [.string "?", .string "$"])])]),
      ("serverInfo", .object [("name", .string "tal-lsp"), ("version", .string version)])]

def answerJson : Answer → Json
  | .capabilities => capabilitiesJson
  | .nothing => .null
  | .hover h range =>
    .object
      [("contents", .object [("kind", .string "markdown"), ("value", .string (hoverMarkdown h))]),
        ("range", rangeJson range)]
  | .definition uri range => locationJson uri range
  | .symbols source outline => .array (outline.map (outlineJson source))
  | .completion items => .array (items.map completionJson)

def noticeJson : Notice → String × Json
  | .log level text =>
    ("window/logMessage",
      .object [("type", .nat (logNumber level)), ("message", .string text)])
  | .problems uri version? problems =>
    ("textDocument/publishDiagnostics",
      .ofMembers
        [("uri", some (.string uri)),
          ("diagnostics", some (.array (problems.map (problemJson uri)))),
          ("version", version?.map .int)])

end TalAnalysis.Server
