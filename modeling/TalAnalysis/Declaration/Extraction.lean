import TalAnalysis.Declaration.DirectiveLine
import TalAnalysis.Declaration.Header
import TalAnalysis.Declaration.Item
import TalAnalysis.Declaration.Scope
import TalAnalysis.Diagnostic
import TalAnalysis.Symbol.Table

/-!
# The declarations of a list of tokens

Any list of tokens declares something: what is no declaration is stepped over. `findings` goes
through the tokens one step after the other. A step reads one declaration, one directive line or one
token, finds symbols and diagnostics, and leaves fewer tokens. The symbol table holds the symbols
that were found, the later ones in the place of earlier ones with the same key.
-/

namespace TalAnalysis.Declaration

inductive Finding
  | symbol (s : Symbol)
  | diagnostic (d : Diagnostic)
deriving DecidableEq, Repr, Inhabited

namespace Finding

def symbol? : Finding → Option Symbol
  | .symbol s => some s
  | .diagnostic _ => none

def diagnostic? : Finding → Option Diagnostic
  | .symbol _ => none
  | .diagnostic d => some d

def missingName (opening : String) (span : Span) : Finding :=
  .diagnostic (.ofCause (.missingName opening) span)

end Finding

/-! ## The symbols of each declaration -/

def LiteralItem.symbol (context : String) (item : LiteralItem) : Symbol :=
  { Symbol.declaredAt item.name .literal .value context with
    value := .text (Token.joinText item.value) }

def DefineItem.findings (context : String) (item : DefineItem) : List Finding :=
  let name := item.name.text
  let own : Symbol :=
    { Symbol.declaredAt item.name .define .identifier context with value := .text name }
  let parameters := (item.parameters.filter fun t => t.kind.isName).map fun t =>
    { Symbol.declaredAt t .define .parameter context with
      key := ⟨context, name, .parameter t.text⟩ }
  let unterminated := Diagnostic.ofCause (.unterminatedDefine name) item.name.span
  let body := item.body?.toList.flatMap fun tokens =>
    (if item.terminated then [] else [.diagnostic unterminated]) ++
      [.symbol { Symbol.declaredAt item.name .define .body context with
        key := ⟨context, name, .body⟩, value := .tokens tokens }]
  .symbol own :: parameters.map .symbol ++ body

def VariableItem.symbol (context : String) (dataType : DataType) (item : VariableItem) : Symbol :=
  { Symbol.declaredAt item.name .variable_ (.typed dataType) context with
    value :=
      match item.initial? with
      | some tokens => .text (Token.joinText tokens)
      | none => .none }

def DirectiveItem.symbols (context : String) (item : DirectiveItem) : List Symbol :=
  let own : Symbol :=
    { Symbol.declaredAt item.token .directive .directive context with
      key := ⟨context, item.name, .none⟩
      name := item.name
      value :=
        match item.argument? with
        | some text => .text text
        | none => .none }
  own :: item.sections.map fun t => Symbol.declaredAt t .function .external item.file

/-! ## Steps -/

structure Step where
  findings : List Finding
  state : State
  rest : List Token

def directiveStep (s : State) (tokens : List Token) : Step :=
  let line := directiveLine tokens
  ⟨line.1.flatMap fun item => (item.symbols s.context).map .symbol, s.atStart, line.2⟩

def literalStep (s : State) (tokens : List Token) : Step :=
  let list := literals tokens
  ⟨list.items.map fun item => .symbol (item.symbol s.context), s.afterList list.closed, list.rest⟩

def defineStep (s : State) (tokens : List Token) : Step :=
  let list := defines tokens
  ⟨list.items.flatMap fun item => item.findings s.context, s.afterList list.closed, list.rest⟩

def variableStep (s : State) (dataType : DataType) (tokens : List Token) : Step :=
  let tokens := skipLayout tokens
  let tokens :=
    if opensWith tokens .templateStar then tokens.tail else (parenthesized tokens).rest
  let list := variableItems tokens
  let found := list.items.map fun item => Finding.symbol (item.symbol s.context dataType)
  let missing := list.missing?.toList.map fun t => Finding.missingName dataType.spelling t.span
  ⟨found ++ missing, s.afterList list.closed, list.rest⟩

/-- The step through the header of a procedure from its keyword on. A header closes the scopes of
earlier ones that never got a body. Where the name is missing no scope is opened. -/
def procedureStep (s : State) (result? : Option DataType) : List Token → Step
  | [] => ⟨[], s, []⟩
  | keyword :: tokens =>
    let header := procedureHeader tokens
    let (type, kind, bodiless) :=
      if keyword.isKeyword .subproc then
        (SymbolType.subprocedure, ScopeKind.subprocedure, [ScopeKind.subprocedure])
      else (.procedure, .procedure, [.procedure, .subprocedure])
    let s := { s with scopes := closeBodiless bodiless s.scopes }
    match header.name? with
    | none =>
      let opening := (keyword.kind.keyword?.getD .proc).spelling
      ⟨[.missingName opening keyword.span], s.atStart, header.rest⟩
    | some name =>
      let own : Symbol :=
        { Symbol.declaredAt name .function type s.context with
          value :=
            match result? with
            | some t => .text t.spelling
            | none => .none }
      let parameters := (parameterNames 0 header.parameters).map fun t =>
        Symbol.declaredAt t .variable_ .parameter name.text
      ⟨(own :: parameters).map .symbol, (s.enter name.text kind).atStart, header.rest⟩

def structureStep (s : State) (keyword : Token) (tokens : List Token) : Step :=
  let header := structureHeader tokens
  match header.name? with
  | none => ⟨[.missingName (Keyword.spelling .struct) keyword.span], s.atStart, header.rest⟩
  | some name =>
    let own := Symbol.declaredAt name .variable_ .struct s.context
    let after := if bodyFollows header.rest then s.enter name.text .struct else s
    ⟨[.symbol own], after.atStart, header.rest⟩

def endStep (s : State) (t : Token) (tokens : List Token) : Step :=
  if s.depth = 0 then ⟨[.diagnostic (.ofCause .unbalancedEnd t.span)], s.inStatement, tokens⟩
  else ⟨[], s.closeBlock, tokens⟩

/-- The step from the token `t`, with the tokens after it. A data type opens a declaration only at
the start of a statement. -/
def step (s : State) (t : Token) (tokens : List Token) : Step :=
  match t.kind with
  | .newLine | .comment | .lineComment => ⟨[], s, tokens⟩
  | .directive | .directiveLine => directiveStep s tokens
  | .keyword .literal => literalStep s tokens
  | .keyword .define => defineStep s tokens
  | .keyword .proc | .keyword .subproc => procedureStep s none (t :: tokens)
  | .keyword .struct => structureStep s t tokens
  | .keyword .begin => ⟨[], s.openBlock, tokens⟩
  | .keyword .end_ => endStep s t tokens
  | .keyword .forward | .keyword .external => ⟨[], s.bodyElsewhere, tokens⟩
  | .delimiter .semicolon => ⟨[], s.atStart, tokens⟩
  | .dataType d =>
    if s.statementStart then
      if procedureFollows tokens then procedureStep s (some d) (skipQualifier tokens)
      else variableStep s d tokens
    else ⟨[], s.inStatement, tokens⟩
  | _ => ⟨[], s.inStatement, tokens⟩

/-! ## Every step leaves fewer tokens -/

theorem variableStep_suffix (s : State) (d : DataType) (tokens : List Token) :
    (variableStep s d tokens).rest <:+ tokens := by
  refine (variableItems_suffix _).trans (List.IsSuffix.trans ?_ (skipLayout_suffix tokens))
  split
  · exact List.tail_suffix _
  · exact parenthesized_suffix _

theorem procedureStep_suffix (s : State) (result? : Option DataType) (tokens : List Token) :
    (procedureStep s result? tokens).rest <:+ tokens.tail := by
  cases tokens with
  | nil => exact List.suffix_refl _
  | cons keyword tokens =>
    simp only [procedureStep]
    split <;> exact procedureHeader_suffix _

theorem structureStep_suffix (s : State) (keyword : Token) (tokens : List Token) :
    (structureStep s keyword tokens).rest <:+ tokens := by
  simp only [structureStep]
  split <;> exact structureHeader_suffix _

theorem endStep_suffix (s : State) (t : Token) (tokens : List Token) :
    (endStep s t tokens).rest <:+ tokens := by
  simp only [endStep]
  split <;> exact List.suffix_refl _

theorem step_suffix (s : State) (t : Token) (tokens : List Token) :
    (step s t tokens).rest <:+ tokens := by
  unfold step
  split
  case h_12 => exact endStep_suffix _ _ _
  case h_16 =>
    split
    · split
      · exact (procedureStep_suffix _ _ _).trans
          ((List.tail_suffix _).trans (skipQualifier_suffix _))
      · exact variableStep_suffix _ _ _
    · exact List.suffix_refl _
  all_goals first
    | exact List.suffix_refl _
    | exact directiveLine_suffix _
    | exact namedItems_suffix _ _ _
    | exact procedureStep_suffix _ _ _
    | exact structureStep_suffix _ _ _

/-! ## All declarations -/

def findings (s : State) (tokens : List Token) : List Finding :=
  match tokens with
  | [] => []
  | t :: rest =>
    have _fewer := (step_suffix s t rest).length_le
    let next := step s t rest
    next.findings ++ findings next.state next.rest
termination_by tokens.length
decreasing_by simp only [List.length_cons]; omega

structure Extracted where
  symbols : SymbolTable
  diagnostics : List Diagnostic
deriving DecidableEq, Repr, Inhabited

def extract (tokens : List Token) : Extracted :=
  let found := findings {} tokens
  ⟨.ofList (found.filterMap Finding.symbol?), found.filterMap Finding.diagnostic?⟩

end TalAnalysis.Declaration
