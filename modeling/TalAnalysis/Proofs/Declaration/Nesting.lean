import TalAnalysis.Proofs.Declaration.Layout
import TalAnalysis.Proofs.Declaration.Program

/-!
# The scopes of a well-nested program

* `Leads`: what some tokens find and where they lead, with any layout among them.
* `Fits`: what holds of the state between two items.
* `declares_items`: items find their own symbols and lead back to the state they start from.
* `extract_program`: a well-nested program declares its symbols and leaves no diagnostic.
-/

namespace TalAnalysis.Declaration

/-- From `s` on, the tokens `written`, with any layout among them, find what is `found` and lead to
`s'`, whatever comes next. -/
def Leads (s : State) (written : List Token) (found : List Finding) (s' : State) : Prop :=
  ∀ tokens more, significant tokens = written ++ more →
    ∃ rest, significant rest = more ∧ findings s tokens = found ++ findings s' rest

/-- Between two items a statement starts, and in a body the innermost scope has begun, at a depth no
greater than the present one. -/
structure Fits (part : Part) (s : State) : Prop where
  start : s.statementStart = true
  inScope : s.scopes ≠ []
  begun : part = .body → ∀ scope ∈ s.scopes.head?,
    scope.awaitsBody = false ∧ ∀ depth ∈ scope.bodyDepth?, depth ≤ s.depth

def Declares (part : Part) (written : List Token) (symbols : String → List Symbol) : Prop :=
  ∀ s, Fits part s → Leads s written ((symbols s.context).map .symbol) s

variable {s s' s'' : State} {part : Part} {t : Token} {tokens more written written' : List Token}
  {symbols symbols' : String → List Symbol}

/-! ## One token after the other -/

theorem findings_step (first : significant tokens = t :: more) (s : State) :
    ∃ rest, significant rest = more ∧ findings s tokens =
      (step s t rest).findings ++ findings (step s t rest).state (step s t rest).rest := by
  obtain ⟨rest, next, left⟩ := skipLayout_of_significant first
  refine ⟨rest, left, ?_⟩
  rw [← findings_skipLayout, next, findings_cons]

namespace Leads

theorem nil (s : State) : Leads s [] [] s := by
  intro tokens more first
  exact ⟨tokens, first, rfl⟩

theorem append {found found' : List Finding} (one : Leads s written found s')
    (two : Leads s' written' found' s'') : Leads s (written ++ written') (found ++ found') s'' := by
  intro tokens more first
  rw [List.append_assoc] at first
  obtain ⟨rest, left, front⟩ := one tokens _ first
  obtain ⟨rest, left, back⟩ := two rest more left
  exact ⟨rest, left, by rw [front, back, List.append_assoc]⟩

theorem one {found : List Finding} (read : ∀ rest, step s t rest = ⟨found, s', rest⟩) :
    Leads s [t] found s' := by
  intro tokens more first
  obtain ⟨rest, left, front⟩ := findings_step first s
  rw [read] at front
  exact ⟨rest, left, front⟩

end Leads

theorem State.atStart_eq (start : s.statementStart = true) : s.atStart = s := by
  rw [State.atStart, ← start]

theorem State.atStart_enter (start : s.statementStart = true) (name : String) (kind : ScopeKind) :
    (s.enter name kind).atStart = s.enter name kind := State.atStart_eq start

theorem leads_semicolon (stop : TokenOf (.delimiter .semicolon)) (s : State) :
    Leads s [stop.token] [] s.atStart := by
  apply Leads.one
  intro rest
  simp only [step, stop.ofKind]

theorem step_word (stays : staysInStatement t = true)
    (noType : s.statementStart = true → t.kind.dataType? = none) (rest : List Token) :
    step s t rest = ⟨[], s.inStatement, rest⟩ := by
  unfold step
  split <;> rename_i kind <;> simp_all [staysInStatement, TokenKind.isLayout,
    TokenKind.isComment, TokenKind.marksDirective, TokenKind.dataType?]

theorem leads_words {words : List Token} (stays : ∀ t ∈ words, staysInStatement t = true)
    (noType : s.statementStart = true → ∀ t ∈ words.head?, t.kind.dataType? = none) :
    Leads s words [] { s with statementStart := s.statementStart && words.isEmpty } := by
  induction words generalizing s with
  | nil =>
      have same : { s with statementStart := s.statementStart && true } = s := by
        rw [Bool.and_true]
      rw [List.isEmpty_nil, same]
      exact Leads.nil s
  | cons t words ih =>
      obtain ⟨staysFirst, staysLater⟩ := List.forall_mem_cons.1 stays
      have word := Leads.one (step_word staysFirst fun start => noType start t rfl)
      have inside : Leads s.inStatement words [] s.inStatement := ih staysLater nofun
      have same : { s with statementStart := s.statementStart && false } = s.inStatement := by
        rw [Bool.and_false]
        rfl
      rw [List.isEmpty_cons, same]
      exact word.append inside

/-! ## The lines of declarations -/

theorem variableItem_stop (name : Token) (stop : TokenOf (.delimiter .semicolon))
    {rest : List Token} (next : skipLayout tokens = stop.token :: rest) :
    variableItem name tokens = (⟨name, none⟩, stop.token :: rest) := by
  have noParen : stop.token.isDelimiter .lParen = false := delimiter_isDelimiter stop _
  have noBracket : stop.token.isDelimiter .lBracket = false := delimiter_isDelimiter stop _
  have noEqual : stop.token.isDelimiter .equal = false := delimiter_isDelimiter stop _
  rw [variableItem, next, parenthesized, between_of_other noParen, skipLayout_stop, bracketed,
    between_of_other noBracket, skipLayout_stop, initial?, if_neg]
  rw [noEqual, stop.ofKind]
  simp

theorem leads_variable (line : VariableLine) (start : s.statementStart = true) :
    Leads s line.tokens [.symbol (line.symbol s.context)] s := by
  intro tokens more first
  obtain ⟨rest, left, found⟩ := findings_step first s
  obtain ⟨afterName, named, left⟩ := skipLayout_of_significant left
  obtain ⟨afterStop, stopped, left⟩ := skipLayout_of_significant left
  obtain ⟨spelling, isName⟩ := kind_of_isName line.name.isName
  have noProcedure : procedureFollows rest = false := by
    simp [procedureFollows, named, opensWith, name_isDelimiter, opensProcedure, Token.isKeyword,
      isName]
  have items : variableItems (line.name.token :: afterName) =
      { items := [⟨line.name.token, none⟩], closed := true, rest := afterStop } := by
    have unmarked : skipPointers (skipLayout (line.name.token :: afterName)) =
        line.name.token :: afterName := by
      simp [skipPointers, skipLayout, isName, TokenKind.isLayout, TokenKind.isComment,
        TokenKind.marksPointer]
    rw [variableItems_name unmarked line.name.isName, variableItem_stop _ line.stop stopped,
      listEnd_stop]
  have read : step s line.type.token rest =
      ⟨[.symbol (line.symbol s.context)], s.afterList true, afterStop⟩ := by
    simp only [step, line.type.isType, start, noProcedure, variableStep, named, opensWith,
      List.head?_cons, Option.map_some, Option.getD_some, name_isDelimiter, parenthesized,
      between_of_other, items, if_true, Bool.false_eq_true, if_false]
    rfl
  refine ⟨afterStop, left, found.trans ?_⟩
  rw [read, State.afterList, if_pos rfl, State.atStart_eq start]

theorem procedureHeader_line (name : NameToken) (stop : TokenOf (.delimiter .semicolon))
    (first : significant tokens = name.token :: stop.token :: more) :
    ∃ rest, significant rest = more ∧ procedureHeader tokens = ⟨some name.token, [], rest⟩ := by
  obtain ⟨afterName, named, left⟩ := skipLayout_of_significant first
  obtain ⟨afterStop, stopped, left⟩ := skipLayout_of_significant left
  have noParen : stop.token.isDelimiter .lParen = false := delimiter_isDelimiter stop _
  refine ⟨afterStop, left, ?_⟩
  rw [procedureHeader, named]
  simp only [name.isName, if_true]
  rw [stopped, parenthesized, between_of_other noParen, pastSemicolon_stop]

theorem closeBodiless_of_begun {kinds : List ScopeKind} {scopes : List Scope}
    (begun : ∀ scope ∈ scopes.head?, scope.awaitsBody = false) :
    closeBodiless kinds scopes = scopes := by
  cases scopes with
  | nil => rfl
  | cons scope outer =>
      rw [closeBodiless, List.dropWhile_cons_of_neg]
      rw [begun scope rfl]
      exact Bool.false_ne_true

def ProcedureLine.scope (line : ProcedureLine) : ScopeKind :=
  if line.keyword.val.isKeyword .subproc then .subprocedure else .procedure

theorem ProcedureLine.scope_cases (line : ProcedureLine) :
    line.scope = .procedure ∨ line.scope = .subprocedure := by
  rw [scope]
  split
  · exact .inr rfl
  · exact .inl rfl

theorem procedureStep_line (line : ProcedureLine) (fits : Fits .body s)
    (first : significant tokens = line.name.token :: line.stop.token :: more) :
    ∃ rest, significant rest = more ∧
      procedureStep s (line.result?.map TypeToken.dataType) (line.keyword.val :: tokens) =
        ⟨[.symbol (line.symbol s.context)], s.enter line.name.token.text line.scope, rest⟩ := by
  obtain ⟨rest, left, header⟩ := procedureHeader_line line.name line.stop first
  have closed (kinds : List ScopeKind) : closeBodiless kinds s.scopes = s.scopes :=
    closeBodiless_of_begun fun scope member => (fits.begun rfl scope member).1
  refine ⟨rest, left, ?_⟩
  rw [procedureStep.eq_def, ProcedureLine.symbol, ProcedureLine.scope]
  simp only [header, closed, State.atStart_enter fits.start]
  cases line.keyword.val.isKeyword .subproc <;> cases line.result? <;> simp [parameterNames]

theorem step_procedureKeyword {keyword : Token} (opens : opensProcedure keyword = true)
    (rest : List Token) : step s keyword rest = procedureStep s none (keyword :: rest) := by
  simp only [opensProcedure, Token.isKeyword, Bool.or_eq_true, beq_iff_eq] at opens
  rcases opens with kind | kind <;> simp only [step, kind]

theorem opensProcedure_apart {keyword : Token} (opens : opensProcedure keyword = true) :
    keyword.isDelimiter .lParen = false ∧ keyword.kind.isLayout = false := by
  simp only [opensProcedure, Token.isKeyword, Bool.or_eq_true, beq_iff_eq] at opens
  rcases opens with kind | kind <;>
    simp [Token.isDelimiter, kind, TokenKind.isLayout, TokenKind.isComment]

theorem step_resultType (type : TypeToken) (start : s.statementStart = true) {keyword : Token}
    (opens : opensProcedure keyword = true) {rest : List Token}
    (next : skipLayout tokens = keyword :: rest) :
    step s type.token tokens = procedureStep s (some type.dataType) (keyword :: rest) := by
  obtain ⟨noParen, noLayout⟩ := opensProcedure_apart opens
  have follows : procedureFollows tokens = true := by
    simp [procedureFollows, next, opensWith, noParen, opens]
  have qualifier : skipQualifier tokens = keyword :: rest := by
    rw [skipQualifier, next, parenthesized, between_of_other noParen, skipLayout,
      List.dropWhile_cons_of_neg (by simp [noLayout])]
  simp only [step, type.isType, start, follows, qualifier, if_true]

theorem leads_procedure (line : ProcedureLine) (fits : Fits .body s) :
    Leads s line.tokens [.symbol (line.symbol s.context)]
      (s.enter line.name.token.text line.scope) := by
  intro tokens more first
  have opens := line.keyword.property
  obtain ⟨result?, keyword, name, stop⟩ := line
  cases result? with
  | none =>
      obtain ⟨rest, left, found⟩ := findings_step first s
      obtain ⟨rest, left, read⟩ := procedureStep_line ⟨none, keyword, name, stop⟩ fits left
      refine ⟨rest, left, found.trans ?_⟩
      rw [step_procedureKeyword opens, ← Option.map_none, read]
  | some type =>
      obtain ⟨rest, left, found⟩ := findings_step first s
      obtain ⟨rest', next, left⟩ := skipLayout_of_significant left
      obtain ⟨rest, left, read⟩ := procedureStep_line ⟨some type, keyword, name, stop⟩ fits left
      refine ⟨rest, left, found.trans ?_⟩
      rw [step_resultType type fits.start opens next, ← Option.map_some, read]

theorem structureStep_line (line : StructureLine) (start : s.statementStart = true)
    {opening : Token} (begins : opening.kind = .keyword .begin)
    (first : significant tokens = line.name.token :: line.stop.token :: opening :: more) :
    ∃ rest, significant rest = opening :: more ∧ step s line.keyword.token tokens =
      ⟨[.symbol (line.symbol s.context)], s.enter line.name.token.text .struct, rest⟩ := by
  obtain ⟨afterName, named, left⟩ := skipLayout_of_significant first
  obtain ⟨afterStop, stopped, left⟩ := skipLayout_of_significant left
  obtain ⟨body, opened, -⟩ := skipLayout_of_significant left
  obtain ⟨spelling, isName⟩ := kind_of_isName line.name.isName
  have header : structureHeader tokens = ⟨some line.name.token, afterStop⟩ := by
    have unmarked : skipPointers (line.name.token :: afterName) = line.name.token :: afterName := by
      simp [skipPointers, isName, TokenKind.marksPointer]
    rw [structureHeader, named, unmarked]
    simp only [line.name.isName, if_true]
    rw [← pastSemicolon_skipLayout, stopped, pastSemicolon_stop]
  have follows : bodyFollows afterStop = true := by
    simp [bodyFollows, opened, Token.isKeyword, begins]
  refine ⟨afterStop, left, ?_⟩
  simp only [step, line.keyword.ofKind, structureStep, header, follows, if_true,
    State.atStart_enter start]
  rfl

/-! ## Scopes and blocks -/

theorem leave_cons {scopes : List Scope} (outer : scopes ≠ []) (scope : Scope) :
    leave (scope :: scopes) = scopes := by
  cases scopes with
  | nil => exact absurd rfl outer
  | cons => rfl

theorem bodyElsewhere_enter (fits : Fits part s) {kind : ScopeKind}
    (isProcedure : kind = .procedure ∨ kind = .subprocedure) (name : String) :
    (s.enter name kind).bodyElsewhere.atStart = s := by
  have awaits : Scope.awaitsProcedureBody ⟨name, kind, none⟩ = true := by
    rcases isProcedure with rfl | rfl <;> rfl
  rw [State.enter, State.bodyElsewhere, State.atStart]
  simp only [List.head?_cons, Option.map_some, Option.getD_some, awaits, if_true,
    leave_cons fits.inScope, ← fits.start]

theorem openBlock_enter {kind : ScopeKind} (scope : kind ≠ .global) (name : String) (s : State) :
    (s.enter name kind).openBlock =
      ⟨⟨name, kind, some (s.depth + 1)⟩ :: s.scopes, s.depth + 1, true⟩ := by
  have awaits : Scope.awaitsBody ⟨name, kind, none⟩ = true := by simp [Scope.awaitsBody, scope]
  simp only [State.enter, State.openBlock, awaits, if_true]

theorem fits_openBlock_enter {kind : ScopeKind} (scope : kind ≠ .global) (name : String)
    (s : State) : Fits .body (s.enter name kind).openBlock := by
  rw [openBlock_enter scope]
  refine ⟨rfl, List.cons_ne_nil _ _, fun _ inner member => ?_⟩
  obtain rfl := Option.some.inj member
  refine ⟨by simp [Scope.awaitsBody], fun depth found => ?_⟩
  exact Nat.le_of_eq (Option.some.inj found).symm

theorem closeBlock_openBlock_enter (fits : Fits part s) {kind : ScopeKind}
    (scope : kind ≠ .global) (name : String) :
    (s.enter name kind).openBlock.closeBlock.atStart = s := by
  rw [openBlock_enter scope, State.closeBlock, State.atStart]
  simp only [List.head?_cons, Option.bind_some, if_true, leave_cons fits.inScope,
    Nat.add_sub_cancel, ← fits.start]

theorem openBlock_of_fits (fits : Fits .body s) : s.openBlock = ⟨s.scopes, s.depth + 1, true⟩ := by
  obtain ⟨scopes, depth, start⟩ := s
  cases scopes with
  | nil => rfl
  | cons scope outer =>
      have begun := (fits.begun rfl scope rfl).1
      simp [State.openBlock, begun]

theorem Fits.openBlock (fits : Fits .body s) : Fits .body s.openBlock := by
  rw [openBlock_of_fits fits]
  refine ⟨rfl, fits.inScope, fun _ scope member => ?_⟩
  obtain ⟨begun, shallow⟩ := fits.begun rfl scope member
  exact ⟨begun, fun depth found => Nat.le_succ_of_le (shallow depth found)⟩

theorem closeBlock_openBlock (fits : Fits .body s) : s.openBlock.closeBlock.atStart = s := by
  have other : ¬ s.scopes.head?.bind Scope.bodyDepth? = some (s.depth + 1) := by
    intro same
    obtain ⟨scope, member, found⟩ := Option.bind_eq_some_iff.1 same
    exact Nat.not_succ_le_self s.depth ((fits.begun rfl scope member).2 _ found)
  rw [openBlock_of_fits fits, State.closeBlock, State.atStart]
  simp only [if_neg other, Nat.add_sub_cancel, ← fits.start]

theorem leads_around (brackets : Brackets) (inner : Declares .body written symbols)
    (fits : Fits .body s.openBlock) :
    Leads s (brackets.around written) ((symbols s.openBlock.context).map .symbol)
      s.openBlock.closeBlock.atStart := by
  have opened : Leads s [brackets.opening.token] [] s.openBlock := by
    apply Leads.one
    intro rest
    simp only [step, brackets.opening.ofKind]
  have closed : Leads s.openBlock [brackets.closing.token] [] s.openBlock.closeBlock := by
    have deep : s.openBlock.depth ≠ 0 := Nat.succ_ne_zero s.depth
    apply Leads.one
    intro rest
    simp only [step, brackets.closing.ofKind, endStep, if_neg deep]
  have stopped := leads_semicolon brackets.stop s.openBlock.closeBlock
  have all := opened.append ((inner _ fits).append (closed.append stopped))
  simpa [Brackets.around] using all

theorem leads_scope (brackets : Brackets) (inner : Declares .body written symbols)
    (fits : Fits part s) {kind : ScopeKind} (scope : kind ≠ .global) (name : String) :
    Leads (s.enter name kind) (brackets.around written) ((symbols name).map .symbol) s := by
  have all := leads_around brackets inner (fits_openBlock_enter scope name s)
  rw [closeBlock_openBlock_enter fits scope, openBlock_enter scope] at all
  exact all

theorem leads_block (brackets : Brackets) (inner : Declares .body written symbols)
    (fits : Fits .body s) (start : Bool) :
    Leads { s with statementStart := start } (brackets.around written)
      ((symbols s.context).map .symbol) s := by
  have same : { s with statementStart := start }.openBlock = s.openBlock := rfl
  have opened : Fits .body { s with statementStart := start }.openBlock := fits.openBlock
  have all := leads_around brackets inner opened
  rw [same, closeBlock_openBlock fits, openBlock_of_fits fits] at all
  exact all

/-! ## Items -/

theorem Declares.append (one : Declares part written symbols)
    (two : Declares part written' symbols') :
    Declares part (written ++ written') fun context => symbols context ++ symbols' context := by
  intro s fits
  rw [List.map_append]
  exact (one s fits).append (two s fits)

theorem declares_variable (line : VariableLine) :
    Declares part line.tokens fun context => [line.symbol context] := by
  intro s fits
  exact leads_variable line fits.start

theorem declares_structure (line : StructureLine) (brackets : Brackets)
    (inner : Declares .body written symbols) :
    Declares part (line.tokens ++ brackets.around written)
      fun context => line.symbol context :: symbols line.name.token.text := by
  intro s fits tokens more first
  have scope : ScopeKind.struct ≠ .global := by decide
  rw [List.append_assoc] at first
  obtain ⟨rest, left, found⟩ := findings_step first s
  obtain ⟨rest, left, read⟩ :=
    structureStep_line line fits.start brackets.opening.ofKind left
  obtain ⟨rest, left, body⟩ :=
    leads_scope brackets inner fits scope line.name.token.text rest more left
  refine ⟨rest, left, ?_⟩
  rw [found, read, body]
  rfl

theorem declares_statement (words : StatementWords) (stop : TokenOf (.delimiter .semicolon)) :
    Declares .body (words.tokens ++ [stop.token]) fun _ => [] := by
  intro s fits
  have spoken := leads_words (s := s) words.stays fun _ => words.noType
  have all := spoken.append (leads_semicolon stop _)
  have back : State.atStart { s with statementStart := s.statementStart && words.tokens.isEmpty } =
      s := State.atStart_eq fits.start
  rw [back] at all
  exact all

theorem declares_block (words : StatementWords) (brackets : Brackets)
    (inner : Declares .body written symbols) :
    Declares .body (words.tokens ++ brackets.around written) symbols := by
  intro s fits
  exact (leads_words words.stays fun _ => words.noType).append
    (leads_block brackets inner fits _)

theorem declares_procedure (line : ProcedureLine) (header : Declares .header written' symbols')
    (brackets : Brackets) (inner : Declares .body written symbols) :
    Declares .body (line.tokens ++ (written' ++ brackets.around written)) fun context =>
      line.symbol context :: (symbols' line.name.token.text ++ symbols line.name.token.text) := by
  intro s fits
  have scope : line.scope ≠ .global := by
    rcases line.scope_cases with same | same <;> rw [same] <;> decide
  have entered : Fits .header (s.enter line.name.token.text line.scope) :=
    ⟨fits.start, List.cons_ne_nil _ _, nofun⟩
  have declared := (header _ entered).append
    (leads_scope brackets inner fits scope line.name.token.text)
  rw [List.map_cons, List.map_append]
  exact (leads_procedure line fits).append declared

theorem declares_elsewhere (line : ProcedureLine) {word : Token}
    (isWord : word.kind = .keyword .forward ∨ word.kind = .keyword .external)
    (stop : TokenOf (.delimiter .semicolon)) :
    Declares .body (line.tokens ++ [word, stop.token]) fun context => [line.symbol context] := by
  intro s fits
  let entered := s.enter line.name.token.text line.scope
  have replaced : Leads entered [word] [] entered.bodyElsewhere := by
    apply Leads.one
    intro rest
    rcases isWord with kind | kind <;> simp only [step, kind]
  have stopped := leads_semicolon stop entered.bodyElsewhere
  rw [bodyElsewhere_enter fits line.scope_cases] at stopped
  exact (leads_procedure line fits).append (replaced.append stopped)

theorem declares_items (items : Items part) :
    Declares part items.tokens fun context => items.symbols context := by
  induction items with
  | none => exact fun s _ => Leads.nil s
  | variable_ line others ih => exact (declares_variable line).append ih
  | structure_ line brackets items others inner ih =>
      exact (declares_structure line brackets inner).append ih
  | statement words stop others ih =>
      have all := (declares_statement words stop).append ih
      rw [List.append_assoc] at all
      exact all
  | block words brackets items others inner ih =>
      exact (declares_block words brackets inner).append ih
  | procedure line header brackets items others declarations inner ih =>
      have all := (declares_procedure line declarations brackets inner).append ih
      rw [← List.append_assoc] at all
      exact all
  | elsewhere line word stop others ih =>
      have all := (declares_elsewhere line word.property stop).append ih
      rw [List.append_assoc] at all
      exact all

theorem extract_program (program : Items .body) {tokens : List Token}
    (written : significant tokens = program.tokens) :
    extract tokens = ⟨.ofList (program.symbols globalContext), []⟩ := by
  have fits : Fits .body {} := by
    refine ⟨rfl, List.cons_ne_nil _ _, fun _ scope member => ?_⟩
    obtain rfl := Option.some.inj member
    exact ⟨rfl, nofun⟩
  have first : significant tokens = program.tokens ++ [] := by rw [written, List.append_nil]
  obtain ⟨rest, left, found⟩ := declares_items program {} fits tokens [] first
  have all : findings {} tokens = (program.symbols globalContext).map .symbol := by
    rw [found, findings_of_onlyLayout _ (onlyLayout_of_significant left), List.append_nil]
    rfl
  have symbols : (findings {} tokens).filterMap Finding.symbol? =
      program.symbols globalContext := by
    rw [all, List.filterMap_map]
    exact List.filterMap_some
  have silent : (findings {} tokens).filterMap Finding.diagnostic? = [] := by
    rw [all, List.filterMap_map]
    exact List.filterMap_eq_nil_iff.2 fun _ _ => rfl
  rw [extract, symbols, silent]

theorem extract_nestedProgram :
    extract (nestedProgram.tokens.flatMap fun t => [t, (plainToken .newLine "\n").token]) =
      ⟨.ofList (nestedProgram.symbols globalContext), []⟩ :=
  extract_program nestedProgram (by decide +kernel)

end TalAnalysis.Declaration
