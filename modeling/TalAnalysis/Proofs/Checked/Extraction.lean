import TalAnalysis.Proofs.Checked.Declaration
import TalAnalysis.Proofs.Declaration.Scoping
import TalAnalysis.Symbol.Index

namespace TalAnalysis.Checked
open Declaration

def from? (tokens : List Token) (start : Nat) : Option (List Token) :=
  if start ≤ tokens.length then some (tokens.drop start) else none

def indexOf (tokens rest : List Token) : Nat := tokens.length - rest.length

variable {tokens rest : List Token} {t : Token} {pos : Nat}

theorem drop_indexOf (tail : rest <:+ tokens) : tokens.drop (indexOf tokens rest) = rest :=
  (List.suffix_iff_eq_drop.1 tail).symm

theorem length_sub_indexOf (tail : rest <:+ tokens) :
    tokens.length - indexOf tokens rest = rest.length := by
  have within := tail.length_le
  rw [indexOf]
  omega

theorem from?_indexOf (tail : rest <:+ tokens) :
    from? tokens (indexOf tokens rest) = some rest := by
  have within : indexOf tokens rest ≤ tokens.length := Nat.sub_le _ _
  rw [from?, if_pos within, drop_indexOf tail]

theorem getElem?_indexOf (tail : t :: rest <:+ tokens) :
    tokens[indexOf tokens (t :: rest)]? = some t := by
  rw [← List.head?_drop, drop_indexOf tail, List.head?_cons]

theorem drop_succ_indexOf (tail : t :: rest <:+ tokens) :
    tokens.drop (indexOf tokens (t :: rest) + 1) = rest := by
  rw [← List.tail_drop, drop_indexOf tail, List.tail_cons]

theorem from?_succ (here : tokens[pos]? = some t) :
    from? tokens (pos + 1) = some (tokens.drop (pos + 1)) :=
  if_pos (List.getElem?_eq_some_iff.1 here).1

def directiveStep? (s : State) (tokens : List Token) : Option Step := do
  let line ← directiveLine? tokens
  return ⟨line.1.flatMap fun item => (item.symbols s.context).map .symbol, s.atStart, line.2⟩

def defineStep? (s : State) (tokens : List Token) : Option Step := do
  let list ← defines? tokens
  return ⟨list.items.flatMap fun item => item.findings s.context, s.afterList list.closed,
    list.rest⟩

def pastTemplate? (tokens : List Token) : Option (List Token) :=
  if opensWith tokens .templateStar then some tokens.tail
  else (parenthesized? tokens).map Window.rest

def variableStep? (s : State) (dataType : DataType) (tokens : List Token) : Option Step := do
  let list ← variableItems? (← pastTemplate? (skipLayout tokens))
  let found := list.items.map fun item => Finding.symbol (item.symbol s.context dataType)
  let missing := list.missing?.toList.map fun t => Finding.missingName dataType.spelling t.span
  return ⟨found ++ missing, s.afterList list.closed, list.rest⟩

def procedureStepAt (s : State) (result? : Option DataType) (keyword : Token)
    (header : ProcedureHeader) : Step :=
  let (type, kind, bodiless) :=
    if keyword.isKeyword .subproc then
      (SymbolType.subprocedure, ScopeKind.subprocedure, [ScopeKind.subprocedure])
    else (.procedure, .procedure, [.procedure, .subprocedure])
  let s := { s with scopes := closeBodiless bodiless s.scopes }
  match header.name? with
  | none =>
    let opening := (keyword.kind.keyword?.getD .proc).spelling
    ⟨[.missingName opening keyword.span], s.atStart, header.rest⟩
  | some name =>
    let own : Symbol :=
      { Symbol.declaredAt name .function type s.context with
        value :=
          match result? with
          | some t => .text t.spelling
          | none => .none }
    let parameters := (parameterNames 0 header.parameters).map fun t =>
      Symbol.declaredAt t .variable_ .parameter name.text
    ⟨(own :: parameters).map .symbol, (s.enter name.text kind).atStart, header.rest⟩

def procedureStep? (s : State) (result? : Option DataType) : List Token → Option Step
  | [] => some ⟨[], s, []⟩
  | keyword :: tokens => do return procedureStepAt s result? keyword (← procedureHeader? tokens)

def structureStep? (all : List Token) (s : State) (keyword : Token) (tokens : List Token) :
    Option Step := do
  let header := structureHeader tokens
  match header.name? with
  | none => return ⟨[.missingName (Keyword.spelling .struct) keyword.span], s.atStart, header.rest⟩
  | some name =>
    let own := Symbol.declaredAt name .variable_ .struct s.context
    let ahead ← from? all (min (indexOf all header.rest) all.length)
    let after := if bodyFollows ahead then s.enter name.text .struct else s
    return ⟨[.symbol own], after.atStart, header.rest⟩

def endStep? (s : State) (t : Token) (tokens : List Token) : Option Step := do
  if s.depth = 0 then return ⟨[.diagnostic (.ofCause .unbalancedEnd t.span)], s.inStatement, tokens⟩
  else
    let depth ← sub? s.depth 1
    return ⟨[], { s.closeBlock with depth }, tokens⟩

def dataTypeStep? (tokens : List Token) (pos : Nat) (s : State) (d : DataType) : Option Step := do
  let rest := tokens.drop (pos + 1)
  if s.statementStart then
    if procedureFollows (← from? tokens (pos + 1)) then
      procedureStep? s (some d) (← skipQualifier? rest)
    else variableStep? s d rest
  else return ⟨[], s.inStatement, rest⟩

def step? (tokens : List Token) (pos : Nat) (s : State) (t : Token) : Option Step :=
  let rest := tokens.drop (pos + 1)
  match t.kind with
  | .directive | .directiveLine => directiveStep? s rest
  | .keyword .define => defineStep? s rest
  | .keyword .proc | .keyword .subproc => procedureStep? s none (t :: rest)
  | .keyword .struct => structureStep? tokens s t rest
  | .keyword .end_ => endStep? s t rest
  | .dataType d => dataTypeStep? tokens pos s d
  | _ => some (step s t rest)

theorem directiveStep?_eq (s : State) (tokens : List Token) :
    directiveStep? s tokens = some (directiveStep s tokens) := by
  rw [directiveStep?, directiveLine?_eq]
  rfl

theorem defineStep?_eq (s : State) (tokens : List Token) :
    defineStep? s tokens = some (defineStep s tokens) := by
  rw [defineStep?, defines?_eq]
  rfl

theorem pastTemplate?_eq (tokens : List Token) :
    pastTemplate? tokens =
      some (if opensWith tokens .templateStar then tokens.tail
        else (parenthesized tokens).rest) := by
  rw [pastTemplate?, parenthesized?_eq]
  exact (apply_ite some _ _ _).symm

theorem variableStep?_eq (s : State) (d : DataType) (tokens : List Token) :
    variableStep? s d tokens = some (variableStep s d tokens) := by
  rw [variableStep?, pastTemplate?_eq, Option.bind_eq_bind, Option.bind_some, variableItems?_eq]
  rfl

theorem procedureStep?_eq (s : State) (result? : Option DataType) (tokens : List Token) :
    procedureStep? s result? tokens = some (procedureStep s result? tokens) := by
  cases tokens with
  | nil => rfl
  | cons keyword tokens =>
      rw [procedureStep?, procedureHeader?_eq]
      exact congrArg some (procedureStep.eq_def s result? (keyword :: tokens)).symm

theorem structureStep?_eq (s : State) (keyword : Token) (tail : rest <:+ tokens) :
    structureStep? tokens s keyword rest = some (structureStep s keyword rest) := by
  have within := (structureHeader_suffix rest).trans tail
  have ahead : min (indexOf tokens (structureHeader rest).rest) tokens.length =
      indexOf tokens (structureHeader rest).rest := Nat.min_eq_left (Nat.sub_le _ _)
  rw [structureStep?, structureStep, ahead, from?_indexOf within]
  cases (structureHeader rest).name? <;> rfl

theorem endStep?_eq (s : State) (t : Token) (tokens : List Token) :
    endStep? s t tokens = some (endStep s t tokens) := by
  rw [endStep?, endStep]
  split
  · rfl
  · rename_i deep
    rw [sub?_of_le (Nat.one_le_iff_ne_zero.2 deep)]
    rfl

theorem dataTypeStep?_eq (here : tokens[pos]? = some t) (s : State) (d : DataType) :
    dataTypeStep? tokens pos s d =
      let rest := tokens.drop (pos + 1)
      some <|
        if s.statementStart then
          if procedureFollows rest then procedureStep s (some d) (skipQualifier rest)
          else variableStep s d rest
        else ⟨[], s.inStatement, rest⟩ := by
  simp only [dataTypeStep?, from?_succ here, skipQualifier?_eq, procedureStep?_eq,
    variableStep?_eq, Option.bind_eq_bind, Option.bind_some, Option.pure_def, apply_ite some]

theorem step?_eq (here : tokens[pos]? = some t) (s : State) :
    step? tokens pos s t = some (step s t (tokens.drop (pos + 1))) := by
  unfold step?
  split
  case h_1 kind | h_2 kind => rw [directiveStep?_eq, step, kind]
  case h_3 kind => rw [defineStep?_eq, step, kind]
  case h_4 kind | h_5 kind => rw [procedureStep?_eq, step, kind]
  case h_6 kind => rw [structureStep?_eq s t (List.drop_suffix _ _), step, kind]
  case h_7 kind => rw [endStep?_eq, step, kind]
  case h_8 d kind => rw [dataTypeStep?_eq here, step, kind]
  case h_9 => rfl

/-- A table whose slots need not be those of its entries. -/
structure LooseTable where
  entries : Array Symbol := #[]
  slots : Std.HashMap SymbolKey Nat := ∅

namespace LooseTable

def of (table : IndexedTable) : LooseTable := ⟨table.entries, table.slots⟩

def insert? (table : LooseTable) (s : Symbol) : Option LooseTable :=
  match table.slots[s.key]? with
  | some slot =>
    if inside : slot < table.entries.size then
      some { table with entries := table.entries.set slot s inside }
    else none
  | none => some ⟨table.entries.push s, table.slots.insert s.key table.entries.size⟩

theorem of_empty : of .empty = {} := rfl

theorem insert?_of (table : IndexedTable) (s : Symbol) :
    (of table).insert? s = some (of (table.insert s).2) := by
  rw [insert?, of, IndexedTable.insert]
  split
  · rename_i slot found
    rw [dif_pos (IndexedTable.slot_lt found)]
    split
    · rename_i other again
      obtain rfl := Option.some.inj (found.symm.trans again)
      rfl
    · rename_i absent
      cases found.symm.trans absent
  · rename_i absent
    split
    · rename_i slot found
      cases absent.symm.trans found
    · rfl

end LooseTable

def insertAll (table : IndexedTable) (symbols : List Symbol) : IndexedTable :=
  symbols.foldl (fun table s => (table.insert s).2) table

theorem toTable_insertAll (table : IndexedTable) (symbols : List Symbol) :
    (insertAll table symbols).toTable = symbols.foldl SymbolTable.insert table.toTable :=
  (List.foldl_hom IndexedTable.toTable fun table s => (table.toTable_insert s).symm).symm

structure Parser where
  pos : Nat
  state : State
  table : LooseTable
  diagnostics : List Diagnostic

namespace Parser

def record? (s : Parser) : Finding → Option Parser
  | .symbol x => do return { s with table := ← s.table.insert? x }
  | .diagnostic d => some { s with diagnostics := s.diagnostics ++ [d] }

def run? (tokens : List Token) (s : Parser) : Option Parser := do
  match tokens[s.pos]? with
  | none => return s
  | some t =>
    let next ← step? tokens s.pos s.state t
    let after ← next.findings.foldlM record? s
    let pos := indexOf tokens next.rest
    if _nearer : tokens.length - pos < tokens.length - s.pos then
      run? tokens { after with pos, state := next.state }
    else none
termination_by tokens.length - s.pos

theorem foldlM_record? (pos : Nat) (s : State) (table : IndexedTable)
    (diagnostics : List Diagnostic) (found : List Finding) :
    found.foldlM record? ⟨pos, s, .of table, diagnostics⟩ =
      some ⟨pos, s, .of (insertAll table (found.filterMap Finding.symbol?)),
        diagnostics ++ found.filterMap Finding.diagnostic?⟩ := by
  induction found generalizing table diagnostics with
  | nil => simp [insertAll]
  | cons f found ih =>
      cases f with
      | symbol x =>
          have recorded : record? ⟨pos, s, .of table, diagnostics⟩ (.symbol x) =
              some ⟨pos, s, .of (table.insert x).2, diagnostics⟩ := by
            rw [record?, LooseTable.insert?_of]
            rfl
          rw [List.foldlM_cons, recorded]
          exact ih (table.insert x).2 diagnostics
      | diagnostic d =>
          rw [List.foldlM_cons]
          refine (ih table (diagnostics ++ [d])).trans ?_
          rw [List.append_assoc]
          rfl

theorem run?_of (tokens : List Token) (s : State) (rest : List Token) (tail : rest <:+ tokens)
    (grounded : Grounded s.scopes) (table : IndexedTable) (diagnostics : List Diagnostic) :
    ∃ last, Grounded last.scopes ∧
      run? tokens ⟨indexOf tokens rest, s, .of table, diagnostics⟩ =
        some ⟨tokens.length, last,
          .of (insertAll table ((findings s rest).filterMap Finding.symbol?)),
          diagnostics ++ (findings s rest).filterMap Finding.diagnostic?⟩ := by
  fun_induction findings s rest generalizing table diagnostics with
  | case1 s =>
      refine ⟨s, grounded, ?_⟩
      rw [run?]
      simp [indexOf, insertAll]
  | case2 s t rest fewer next ih =>
      -- The step leaves a tail of all the tokens, so the next one begins at an index again.
      have left : next.rest <:+ tokens :=
        (step_suffix s t rest).trans ((List.suffix_cons t rest).trans tail)
      have moves := step_moves s t rest
      obtain ⟨last, bottom, reaches⟩ := ih left (moves.grounded grounded)
        (insertAll table (next.findings.filterMap Finding.symbol?))
        (diagnostics ++ next.findings.filterMap Finding.diagnostic?)
      refine ⟨last, bottom, ?_⟩
      have here := getElem?_indexOf tail
      have nearer : tokens.length - indexOf tokens next.rest <
          tokens.length - indexOf tokens (t :: rest) := by
        rw [length_sub_indexOf left, length_sub_indexOf tail]
        exact Nat.lt_succ_of_le fewer
      rw [run?]
      simp only [here, step?_eq here, drop_succ_indexOf tail, Option.bind_eq_bind, Option.bind_some,
        foldlM_record?]
      refine (dif_pos nearer).trans (reaches.trans ?_)
      simp [insertAll, List.filterMap_append, List.append_assoc]

end Parser

/-- The symbols and diagnostics of a list of tokens. At the end it is counted how many scopes are
open inside the outermost one. -/
def extract? (tokens : List Token) : Option Extracted := do
  let s ← Parser.run? tokens ⟨0, {}, {}, []⟩
  let _openScopes ← sub? s.state.scopes.length 1
  return ⟨⟨s.table.entries.toList⟩, s.diagnostics⟩

theorem extract?_eq (tokens : List Token) : extract? tokens = some (extract tokens) := by
  obtain ⟨last, ⟨inner, bottom, -⟩, run⟩ :=
    Parser.run?_of tokens {} tokens (List.suffix_refl tokens) ⟨[], rfl, nofun⟩ .empty []
  rw [indexOf, Nat.sub_self, LooseTable.of_empty] at run
  -- The outermost scope is still open.
  have opened : 1 ≤ last.scopes.length := by
    rw [bottom, List.length_append]
    exact Nat.le_add_left _ _
  have table := toTable_insertAll .empty ((findings {} tokens).filterMap Finding.symbol?)
  rw [extract?, run, Option.bind_eq_bind, Option.bind_some, sub?_of_le opened]
  exact congrArg (fun symbols => some (Extracted.mk symbols _)) table

end TalAnalysis.Checked
