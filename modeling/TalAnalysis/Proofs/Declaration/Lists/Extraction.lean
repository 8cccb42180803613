import TalAnalysis.Proofs.Declaration.Extension.Run
import TalAnalysis.Proofs.Declaration.Lists.Item

namespace TalAnalysis.Declaration

variable {tokens : List Token}

theorem width_passed (width : Width) {u : Token} {more : List Token}
    (first : skipLayout tokens = u :: more) (opens : OpensVariable u) :
    procedureFollows (width.tokens ++ tokens) = false ∧
      variableItems (skipWidth (width.tokens ++ tokens)) = variableItems tokens := by
  have noParen : u.isDelimiter .lParen = false := opens.isDelimiter (by decide)
  have noStar : u.isDelimiter .templateStar = false := opens.isDelimiter (by decide)
  cases width with
  | none =>
      rw [Width.tokens, List.nil_append]
      constructor
      · simp [procedureFollows, first, opensWith, noParen, opens.not_opensProcedure]
      · rw [skipWidth, ← variableItems_skipLayout tokens, first, parenthesized,
          between_of_other noParen]
        simp [opensWith, noStar]
  | template lead star =>
      have next := skipLayout_gap lead (delimiter_not_isLayout star) tokens
      have opensParen : star.token.isDelimiter .lParen = false := delimiter_isDelimiter star _
      have isStar := isDelimiter_self star
      rw [Width.tokens, List.append_assoc, List.cons_append, List.nil_append]
      constructor
      · simp [procedureFollows, next, opensWith, opensParen, opensProcedure, Token.isKeyword,
          star.ofKind]
      · rw [skipWidth, next]
        simp [opensWith, isStar]
  | sized lead opened size closed flat =>
      have next := skipLayout_gap lead (delimiter_not_isLayout opened)
        (size ++ closed.token :: tokens)
      have opensParen := isDelimiter_self opened
      have isStar : opened.token.isDelimiter .templateStar = false :=
        delimiter_isDelimiter opened _
      have closes := isDelimiter_self closed
      have passed : (size ++ closed.token :: tokens).dropWhile (fun t => !t.isDelimiter .rParen) =
          closed.token :: tokens := by
        rw [List.dropWhile_append_of_pos fun t member => by simp [(flat t member).2],
          List.dropWhile_cons_of_neg (by simp [closes])]
      rw [Width.tokens, List.append_assoc, List.cons_append, List.append_assoc, List.cons_append,
        List.nil_append]
      constructor
      · rw [procedureFollows_of_lParen next opensParen, passed, List.tail_cons, first]
        simp [opens.not_opensProcedure]
      · have passed := rest_between (by decide) opened closed (balanced_flat flat) tokens
        rw [skipWidth, next]
        simp [opensWith, isStar, parenthesized, passed]

theorem literalStep_separated (parts : Separated LiteralPart)
    (stop : TokenOf (.delimiter .semicolon)) (s : State) (rest : List Token) :
    literalStep s (parts.tokens LiteralPart.tokens ++ stop.token :: rest) =
      ⟨(parts.items.map (LiteralPart.symbol s.context)).map .symbol, s.atStart, rest⟩ := by
  rw [literalStep, literals, namedItems_separated literalItem_reads]
  simp only [List.map_map]
  rfl

theorem defineStep_separated (parts : Separated DefinePart)
    (stop : TokenOf (.delimiter .semicolon)) (s : State) (rest : List Token) :
    defineStep s (parts.tokens DefinePart.tokens ++ stop.token :: rest) =
      ⟨(parts.items.flatMap (DefinePart.symbols s.context)).map .symbol, s.atStart, rest⟩ := by
  rw [defineStep, defines, namedItems_separated defineItem_reads]
  simp only [List.flatMap_map, findings_definePart, List.map_flatMap]
  rfl

theorem symbol_variablePart (context : String) (d : DataType) (part : VariablePart) :
    part.item.symbol context d = part.symbol context d := by
  rw [VariablePart.item, VariableItem.symbol, VariablePart.symbol]
  cases part.initial? <;> rfl

theorem variableStep_separated (width : Width) (parts : Separated VariablePart)
    (stop : TokenOf (.delimiter .semicolon)) (s : State) (type : TypeToken)
    (start : s.statementStart = true) (rest : List Token) :
    step s type.token
        (width.tokens ++ (parts.tokens VariablePart.tokens ++ stop.token :: rest)) =
      ⟨(parts.items.map (VariablePart.symbol s.context type.dataType)).map .symbol, s.atStart,
        rest⟩ := by
  obtain ⟨u, more, first, opens⟩ : ∃ u more,
      skipLayout (parts.tokens VariablePart.tokens ++ stop.token :: rest) = u :: more ∧
        OpensVariable u := by
    cases parts with
    | one part =>
        obtain ⟨read, u, more, first, opens⟩ := part.skipLayout_tokens (stop.token :: rest)
        exact ⟨u, more, read.trans first, opens⟩
    | more part comma others =>
        rw [Separated.tokens, List.append_assoc]
        obtain ⟨read, u, more, first, opens⟩ := part.skipLayout_tokens
          (comma.token :: others.tokens VariablePart.tokens ++ stop.token :: rest)
        exact ⟨u, more, read.trans first, opens⟩
  obtain ⟨noProcedure, items⟩ := width_passed width first opens
  simp only [step, type.isType, start, noProcedure, if_true, Bool.false_eq_true, if_false,
    variableStep_eq, items, variableItems_separated, List.map_map, Option.toList_none,
    List.map_nil, List.append_nil]
  have symbols : (fun item => Finding.symbol (VariableItem.symbol s.context type.dataType item)) ∘
      VariablePart.item = Finding.symbol ∘ VariablePart.symbol s.context type.dataType :=
    funext fun part => congrArg Finding.symbol (symbol_variablePart s.context type.dataType part)
  rw [symbols]
  rfl

theorem step_list (list : DeclarationList) (s : State)
    (start : list.opensWithType = true → s.statementStart = true) (rest : List Token) :
    ∃ t more, list.tokens ++ rest = t :: more ∧
      step s t more = ⟨(list.symbols s.context).map .symbol, s.atStart, rest⟩ := by
  cases list with
  | literal keyword parts stop =>
      refine ⟨keyword.token, parts.tokens LiteralPart.tokens ++ stop.token :: rest, ?_, ?_⟩
      · simp [DeclarationList.tokens]
      · simp only [step, keyword.ofKind]
        exact literalStep_separated parts stop s rest
  | define keyword parts stop =>
      refine ⟨keyword.token, parts.tokens DefinePart.tokens ++ stop.token :: rest, ?_, ?_⟩
      · simp [DeclarationList.tokens]
      · simp only [step, keyword.ofKind]
        exact defineStep_separated parts stop s rest
  | typed type width parts stop =>
      refine ⟨type.token,
        width.tokens ++ (parts.tokens VariablePart.tokens ++ stop.token :: rest), ?_, ?_⟩
      · simp [DeclarationList.tokens]
      · exact variableStep_separated width parts stop s type (start rfl) rest

theorem findings_declarationList (list : DeclarationList) (s : State)
    (start : list.opensWithType = true → s.statementStart = true) (rest : List Token) :
    findings s (list.tokens ++ rest) =
      (list.symbols s.context).map .symbol ++ findings s.atStart rest := by
  obtain ⟨t, more, first, step⟩ := step_list list s start rest
  rw [first, findings_cons, step]

theorem extract_declarationList (list : DeclarationList) :
    extract list.tokens = ⟨.ofList (list.symbols globalContext), []⟩ := by
  have all : findings {} list.tokens = (list.symbols globalContext).map .symbol := by
    have whole := findings_declarationList list {} (fun _ => rfl) []
    rw [List.append_nil, findings_of_onlyLayout _ .nil, List.append_nil] at whole
    exact whole
  have symbols : (findings {} list.tokens).filterMap Finding.symbol? =
      list.symbols globalContext := by
    rw [all, List.filterMap_map]
    exact List.filterMap_some
  have silent : (findings {} list.tokens).filterMap Finding.diagnostic? = [] := by
    rw [all, List.filterMap_map]
    exact List.filterMap_eq_nil_iff.2 fun _ _ => rfl
  rw [extract, symbols, silent]

/-- A list is read in one step, without a diagnostic. It declares its symbols in order and leads to
the start of a statement in the same scopes, where whatever comes after it is read. In the table, a
key stays where it was first declared and stands for the symbol that was last. -/
theorem extract_list (list : DeclarationList) :
    (∀ (s : State) (rest : List Token), (list.opensWithType = true → s.statementStart = true) →
      (∃ t more, list.tokens ++ rest = t :: more ∧
        step s t more = ⟨(list.symbols s.context).map .symbol, s.atStart, rest⟩) ∧
      findings s (list.tokens ++ rest) =
        (list.symbols s.context).map .symbol ++ findings s.atStart rest) ∧
    extract list.tokens = ⟨.ofList (list.symbols globalContext), []⟩ ∧
    (extract list.tokens).symbols.keys =
      ((list.symbols globalContext).map Symbol.key).eraseDups ∧
    ∀ key, (extract list.tokens).symbols.get? key =
      (list.symbols globalContext).reverse.find? fun s => s.key == key := by
  have table := extract_declarationList list
  refine ⟨fun s rest start =>
    ⟨step_list list s start rest, findings_declarationList list s start rest⟩, table, ?_, ?_⟩
  · rw [table, SymbolTable.keys_ofList]
  · intro key
    rw [table, SymbolTable.get?_ofList]

theorem extract_variableList :
    findings {} (variableList.tokens ++ variableList.tokens) =
        (variableList.symbols globalContext).map .symbol ++ findings {} variableList.tokens ∧
      (extract variableList.tokens).symbols.keys = [⟨globalContext, "p", .none⟩] := by
  obtain ⟨read, -, keys, -⟩ := extract_list variableList
  refine ⟨(read {} variableList.tokens fun _ => rfl).2, keys.trans ?_⟩
  decide +kernel

end TalAnalysis.Declaration
