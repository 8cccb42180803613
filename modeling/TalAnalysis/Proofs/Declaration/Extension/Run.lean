import TalAnalysis.Proofs.Declaration.Extension.Item
import TalAnalysis.Proofs.Declaration.Word

namespace TalAnalysis.Declaration

variable {tokens after : List Token}

theorem procedureHeader_extends (tokens after : List Token) :
    procedureHeader (tokens ++ after) =
        { procedureHeader tokens with rest := (procedureHeader tokens).rest ++ after } ∨
      (procedureHeader tokens).rest = [] ∧
        ((procedureHeader tokens).name? = none ∨
          (procedureHeader (tokens ++ after)).name? = (procedureHeader tokens).name? ∧
            (procedureHeader tokens).parameters <+:
              (procedureHeader (tokens ++ after)).parameters) := by
  cases stop : skipLayout tokens with
  | nil =>
      rw [procedureHeader.eq_def tokens, stop]
      exact .inr ⟨rfl, .inl rfl⟩
  | cons name rest =>
      have stop' : skipLayout (tokens ++ after) = name :: (rest ++ after) :=
        dropWhile_append_of_cons stop after
      rw [procedureHeader, procedureHeader, stop, stop']
      simp only
      split
      · rcases between_skipLayout_extends .lParen .rParen rest after with same | ⟨layout, front⟩
        · rw [parenthesized, parenthesized, same]
          rcases pastSemicolon_append (between .lParen .rParen (skipLayout rest)).rest after with
            left | none
          · exact .inl (by rw [left])
          · exact .inr ⟨none, .inr ⟨rfl, List.prefix_refl _⟩⟩
        · exact .inr ⟨layout.pastSemicolon_eq_nil, .inr ⟨rfl, front⟩⟩
      · rcases pastSemicolon_append (name :: rest) after with left | none
        · rw [List.cons_append] at left
          exact .inl (by rw [left])
        · exact .inr ⟨none, .inl rfl⟩

theorem parameterNames_front (depth : Nat) (tokens after : List Token) :
    parameterNames depth tokens <+: parameterNames depth (tokens ++ after) := by
  induction tokens generalizing depth with
  | nil => exact List.nil_prefix
  | cons t tokens ih =>
      rw [List.cons_append, parameterNames, parameterNames]
      generalize (if t.isDelimiter .lParen then depth + 1
        else if t.isDelimiter .rParen then depth - 1 else depth) = deeper
      split
      · exact (List.prefix_cons_inj t).2 (ih deeper)
      · exact ih deeper

theorem structureHeader_extends (tokens after : List Token) :
    structureHeader (tokens ++ after) =
        { structureHeader tokens with rest := (structureHeader tokens).rest ++ after } ∨
      (structureHeader tokens).rest = [] ∧
        ((structureHeader tokens).name? = none ∨
          (structureHeader (tokens ++ after)).name? = (structureHeader tokens).name?) := by
  cases stop : skipPointers (skipLayout tokens) with
  | nil =>
      rw [structureHeader.eq_def tokens, stop]
      exact .inr ⟨rfl, .inl rfl⟩
  | cons name rest =>
      rw [structureHeader, structureHeader, stop, skipPointers_skipLayout_append stop]
      simp only
      split
      · rcases pastSemicolon_append rest after with left | none
        · exact .inl (by rw [left])
        · exact .inr ⟨none, .inr rfl⟩
      · rcases pastSemicolon_append (name :: rest) after with left | none
        · rw [List.cons_append] at left
          exact .inl (by rw [left])
        · exact .inr ⟨none, .inl rfl⟩

def Step.Extends (after : List Token) (cut whole : Step) : Prop :=
  whole = { cut with rest := cut.rest ++ after } ∨
    OnlyLayout cut.rest ∧ Finding.keys cut.findings <+: Finding.keys whole.findings

theorem Finding.keys_append (found others : List Finding) :
    keys (found ++ others) = keys found ++ keys others := List.filterMap_append

theorem Finding.keys_symbols (symbols : List Symbol) :
    keys (symbols.map .symbol) = symbols.map Symbol.key := by
  rw [keys, List.filterMap_map, ← List.filterMap_eq_map]
  rfl

theorem Finding.keys_map_symbol {α : Type} (symbol : α → Symbol) (items : List α) :
    keys (items.map fun item => .symbol (symbol item)) =
      items.map fun item => (symbol item).key := by
  have split := keys_symbols (items.map symbol)
  rwa [List.map_map, List.map_map] at split

theorem directiveStep_extends (s : State) (tokens : List Token) :
    Step.Extends after (directiveStep s tokens) (directiveStep s (tokens ++ after)) := by
  have keys (items : List DirectiveItem) :
      Finding.keys (items.flatMap fun item => (item.symbols s.context).map .symbol) =
        items.flatMap fun item => (item.symbols s.context).map Symbol.key := by
    rw [Finding.keys, List.filterMap_flatMap]
    exact congrArg (items.flatMap ·) (funext fun item => Finding.keys_symbols _)
  rcases directiveLine_extends s.context tokens after with same | ⟨layout, front⟩
  · exact .inl (by rw [directiveStep, directiveStep, same])
  · refine .inr ⟨layout, ?_⟩
    rw [directiveStep, directiveStep, keys, keys]
    exact front

theorem literalStep_extends (s : State) (tokens : List Token) :
    Step.Extends after (literalStep s tokens) (literalStep s (tokens ++ after)) := by
  have keys (items : List LiteralItem) :
      Finding.keys (items.map fun item => .symbol (item.symbol s.context)) =
        items.flatMap fun item => [(item.symbol s.context).key] := by
    rw [← List.map_eq_flatMap, Finding.keys_map_symbol]
  rcases namedItems_extends (fun name rest => literalItem_extends s.context name rest after)
    tokens with same | ⟨layout, front⟩
  · exact .inl (by rw [literalStep, literalStep, literals, same]; rfl)
  · refine .inr ⟨layout, ?_⟩
    rw [literalStep, literalStep, keys, keys]
    exact front

theorem defineStep_extends (s : State) (tokens : List Token) :
    Step.Extends after (defineStep s tokens) (defineStep s (tokens ++ after)) := by
  have keys (items : List DefineItem) :
      Finding.keys (items.flatMap fun item => item.findings s.context) =
        items.flatMap fun item => Finding.keys (item.findings s.context) := by
    rw [Finding.keys, List.filterMap_flatMap]
    rfl
  rcases namedItems_extends (fun name rest => defineItem_extends s.context name rest after)
    tokens with same | ⟨layout, front⟩
  · exact .inl (by rw [defineStep, defineStep, defines, same]; rfl)
  · refine .inr ⟨layout, ?_⟩
    rw [defineStep, defineStep, keys, keys]
    exact front

theorem skipLayout_append {t : Token} {rest : List Token} (stop : skipLayout tokens = t :: rest)
    (after : List Token) : skipLayout (tokens ++ after) = skipLayout tokens ++ after := by
  rw [stop]
  exact dropWhile_append_of_cons stop after

def skipWidth (tokens : List Token) : List Token :=
  if opensWith (skipLayout tokens) .templateStar then (skipLayout tokens).tail
  else (parenthesized (skipLayout tokens)).rest

theorem skipWidth_of_lParen {t : Token} {rest : List Token} (stop : skipLayout tokens = t :: rest)
    (opens : t.isDelimiter .lParen = true) :
    skipWidth tokens = (inside .lParen .rParen 0 rest).rest := by
  have star := isDelimiter_eq_false (e := .templateStar) (by decide) opens
  rw [skipWidth, stop]
  simp [opensWith, star, parenthesized, between, opens]

theorem variableStep_eq (s : State) (d : DataType) (tokens : List Token) :
    variableStep s d tokens =
      let list := variableItems (skipWidth tokens)
      ⟨(list.items.map fun item => .symbol (item.symbol s.context d)) ++
          list.missing?.toList.map fun t => .missingName d.spelling t.span,
        s.afterList list.closed, list.rest⟩ := rfl

theorem skipWidth_extends (tokens after : List Token) :
    skipWidth (tokens ++ after) = skipWidth tokens ++ after ∨ OnlyLayout (skipWidth tokens) := by
  cases stop : skipLayout tokens with
  | nil =>
      rw [skipWidth, skipWidth, stop]
      exact .inr .nil
  | cons t rest =>
      have opens : opensWith (t :: rest ++ after) .templateStar =
          opensWith (t :: rest) .templateStar := rfl
      rw [skipWidth, skipWidth, skipLayout_append stop, stop, opens]
      split
      · exact .inl rfl
      · rcases between_extends .lParen .rParen (t :: rest) after with same | ⟨layout, -⟩
        · exact .inl (by rw [parenthesized, same]; rfl)
        · exact .inr layout

theorem variableItems_of_onlyLayout (layout : OnlyLayout tokens) :
    (variableItems tokens).items = [] ∧ OnlyLayout (variableItems tokens).rest := by
  have none : skipPointers (skipLayout tokens) = [] := by
    rw [skipLayout_eq_nil_iff.2 layout]
    rfl
  refine ⟨?_, layout.of_suffix (variableItems_suffix tokens)⟩
  rw [variableItems_nil none]

theorem keys_variableStep (s : State) (d : DataType) (tokens : List Token) :
    Finding.keys (variableStep s d tokens).findings =
      (variableItems (skipWidth tokens)).items.map fun item => (item.symbol s.context d).key := by
  have missing (t? : Option Token) : Finding.keys
      (t?.toList.map fun t => Finding.missingName d.spelling t.span) = [] := by
    cases t? <;> rfl
  rw [variableStep_eq, Finding.keys_append, Finding.keys_map_symbol, missing, List.append_nil]

theorem variableStep_extends (s : State) (d : DataType) (tokens : List Token) :
    Step.Extends after (variableStep s d tokens) (variableStep s d (tokens ++ after)) := by
  have cut (layout : OnlyLayout (variableItems (skipWidth tokens)).rest)
      (front : (variableItems (skipWidth tokens)).items.map
          (fun item => (item.symbol s.context d).key) <+:
        (variableItems (skipWidth (tokens ++ after))).items.map
          fun item => (item.symbol s.context d).key) :
      Step.Extends after (variableStep s d tokens) (variableStep s d (tokens ++ after)) := by
    refine .inr ⟨layout, ?_⟩
    rw [keys_variableStep, keys_variableStep]
    exact front
  rcases skipWidth_extends tokens after with same | layout
  · rcases variableItems_extends s.context d (skipWidth tokens) after with
      whole | ⟨layout, front⟩
    · rw [← same] at whole
      exact .inl (by rw [variableStep_eq, variableStep_eq, whole])
    · rw [← same] at front
      exact cut layout front
  · obtain ⟨none, left⟩ := variableItems_of_onlyLayout layout
    exact cut left (none ▸ List.nil_prefix)

theorem keys_procedureStep (s : State) (result? : Option DataType) (keyword : Token) :
    ∃ context, ∀ tokens, Finding.keys (procedureStep s result? (keyword :: tokens)).findings =
      match (procedureHeader tokens).name? with
      | none => []
      | some name => ⟨context, name.text, .none⟩ ::
          (parameterNames 0 (procedureHeader tokens).parameters).map
            fun t => ⟨name.text, t.text, .none⟩ := by
  refine ⟨contextOf (closeBodiless (if keyword.isKeyword .subproc then [.subprocedure]
    else [.procedure, .subprocedure]) s.scopes), fun tokens => ?_⟩
  rw [procedureStep.eq_def]
  cases named : (procedureHeader tokens).name? with
  | none => simp only [named]; rfl
  | some name =>
      simp only [named]
      rw [Finding.keys_symbols, List.map_cons, List.map_map]
      cases keyword.isKeyword .subproc <;> rfl

theorem procedureStep_extends (s : State) (result? : Option DataType) (tokens : List Token) :
    Step.Extends after (procedureStep s result? tokens)
      (procedureStep s result? (tokens ++ after)) := by
  cases tokens with
  | nil => exact .inr ⟨.nil, List.nil_prefix⟩
  | cons keyword tokens =>
      rcases procedureHeader_extends tokens after with same | ⟨none, front⟩
      · refine .inl ?_
        rw [List.cons_append, procedureStep.eq_def, procedureStep.eq_def]
        simp only [same]
        cases (procedureHeader tokens).name? <;> rfl
      · obtain ⟨context, keys⟩ := keys_procedureStep s result? keyword
        have left : (procedureStep s result? (keyword :: tokens)).rest = [] := by
          rw [procedureStep.eq_def]
          simp only
          split <;> exact none
        refine .inr ⟨left ▸ .nil, ?_⟩
        rw [List.cons_append, keys, keys]
        rcases front with noName | ⟨name, parameters⟩
        · rw [noName]
          exact List.nil_prefix
        · rw [name]
          cases (procedureHeader tokens).name? with
          | none => exact List.nil_prefix
          | some name =>
              obtain ⟨more, longer⟩ := parameters
              rw [← longer]
              exact (List.prefix_cons_inj _).2 ((parameterNames_front 0 _ more).map _)

theorem bodyFollows_append {t : Token} {rest : List Token} (stop : skipLayout tokens = t :: rest)
    (after : List Token) : bodyFollows (tokens ++ after) = bodyFollows tokens := by
  rw [bodyFollows, bodyFollows, skipLayout_append stop, stop]
  rfl

theorem keys_structureStep (s : State) (keyword : Token) (tokens : List Token) :
    Finding.keys (structureStep s keyword tokens).findings =
      (structureHeader tokens).name?.toList.map fun name => ⟨s.context, name.text, .none⟩ := by
  rw [structureStep]
  cases (structureHeader tokens).name? <;> rfl

theorem structureStep_extends (s : State) (keyword : Token) (tokens : List Token) :
    Step.Extends after (structureStep s keyword tokens)
      (structureStep s keyword (tokens ++ after)) := by
  have cut (layout : OnlyLayout (structureHeader tokens).rest)
      (same : (structureHeader tokens).name? = none ∨
        (structureHeader (tokens ++ after)).name? = (structureHeader tokens).name?) :
      Step.Extends after (structureStep s keyword tokens)
        (structureStep s keyword (tokens ++ after)) := by
    refine .inr ⟨layout.of_suffix ?_, ?_⟩
    · rw [structureStep]
      cases (structureHeader tokens).name? <;> exact List.suffix_refl _
    · rw [keys_structureStep, keys_structureStep]
      rcases same with none | same
      · rw [none]
        exact List.nil_prefix
      · exact same ▸ List.prefix_refl _
  rcases structureHeader_extends tokens after with same | ⟨none, front⟩
  · cases body : skipLayout (structureHeader tokens).rest with
    | nil =>
        -- The BEGIN of the body may still come.
        exact cut (skipLayout_eq_nil_iff.1 body) (.inr (by rw [same]))
    | cons t rest =>
        refine .inl ?_
        simp only [structureStep, same, bodyFollows_append body]
        cases (structureHeader tokens).name? <;> rfl
  · exact cut (none ▸ .nil) front

theorem onlyLayout_inside (depth : Nat)
    (layout : OnlyLayout (tokens.dropWhile fun t => !t.isDelimiter .rParen).tail) :
    OnlyLayout (inside .lParen .rParen depth tokens).rest := by
  -- The pair ends with the first closing parenthesis or with a later one.
  induction tokens generalizing depth with
  | nil => exact .nil
  | cons t tokens ih =>
      cases closes : t.isDelimiter .rParen with
      | true =>
          have opens := isDelimiter_eq_false (e := .lParen) (by decide) closes
          have left : OnlyLayout tokens := by simpa [closes] using layout
          rw [inside_cons, opens, closes, if_neg Bool.false_ne_true, if_pos rfl]
          split
          · exact left
          · exact left.of_suffix (inside_suffix _ _ _ _)
      | false =>
          have later : OnlyLayout (tokens.dropWhile fun t => !t.isDelimiter .rParen).tail := by
            simpa [closes] using layout
          rw [inside_cons, closes, if_neg Bool.false_ne_true]
          split
          · exact ih _ later
          · split <;> exact ih _ later

theorem procedureFollows_of_lParen {t : Token} {rest : List Token}
    (stop : skipLayout tokens = t :: rest) (opens : t.isDelimiter .lParen = true) :
    procedureFollows tokens =
      ((skipLayout (rest.dropWhile fun t => !t.isDelimiter .rParen).tail).head?.map
        opensProcedure).getD false := by
  have closes := isDelimiter_eq_false (e := .rParen) (by decide) opens
  rw [procedureFollows, stop]
  simp [opensWith, opens, closes]

theorem procedureFollows_append (tokens after : List Token) :
    procedureFollows (tokens ++ after) = procedureFollows tokens ∨
      procedureFollows tokens = false ∧ OnlyLayout (skipWidth tokens) := by
  cases stop : skipLayout tokens with
  | nil =>
      refine .inr ⟨?_, ?_⟩
      · rw [procedureFollows, stop]
        rfl
      · rw [skipWidth, stop]
        exact .nil
  | cons t rest =>
      cases opens : t.isDelimiter .lParen with
      | false =>
          refine .inl ?_
          rw [procedureFollows, procedureFollows, skipLayout_append stop, stop]
          simp [opensWith, opens]
      | true =>
          have past := procedureFollows_of_lParen stop opens
          have stop' : skipLayout (tokens ++ after) = t :: (rest ++ after) := by
            rw [skipLayout_append stop, stop, List.cons_append]
          have past' := procedureFollows_of_lParen stop' opens
          have width := skipWidth_of_lParen stop opens
          -- Nothing but layout after the parenthesis: the keyword may come with more tokens.
          have cut (none : skipLayout (rest.dropWhile fun t => !t.isDelimiter .rParen).tail = []) :
              procedureFollows tokens = false ∧ OnlyLayout (skipWidth tokens) := by
            rw [past, none, width]
            exact ⟨rfl, onlyLayout_inside 0 (skipLayout_eq_nil_iff.1 none)⟩
          cases closing : rest.dropWhile fun t => !t.isDelimiter .rParen with
          | nil => exact .inr (cut (by rw [closing]; rfl))
          | cons u more =>
              cases next : skipLayout more with
              | nil => exact .inr (cut (by rw [closing]; exact next))
              | cons v others =>
                  refine .inl ?_
                  rw [past, past', dropWhile_append_of_cons closing, closing, List.tail_cons,
                    List.tail_cons, skipLayout_append next, next]
                  rfl

theorem resultStep_extends (s : State) (d : DataType) (tokens : List Token) :
    Step.Extends after (procedureStep s (some d) (skipQualifier tokens))
      (procedureStep s (some d) (skipQualifier (tokens ++ after))) := by
  have cut (none : skipQualifier tokens = []) :
      Step.Extends after (procedureStep s (some d) (skipQualifier tokens))
        (procedureStep s (some d) (skipQualifier (tokens ++ after))) := by
    rw [none]
    exact .inr ⟨.nil, List.nil_prefix⟩
  rcases between_skipLayout_extends .lParen .rParen tokens after with same | ⟨layout, -⟩
  · cases next : skipLayout (parenthesized (skipLayout tokens)).rest with
    | nil => exact cut next
    | cons t rest =>
        have more : skipQualifier (tokens ++ after) = skipQualifier tokens ++ after := by
          rw [skipQualifier, skipQualifier, ← skipLayout_append next]
          exact congrArg (fun window => skipLayout window.rest) same
        rw [more]
        exact procedureStep_extends s (some d) (skipQualifier tokens)
  · exact cut (skipLayout_eq_nil_iff.2 layout)

theorem dataTypeStep_extends (s : State) (d : DataType) (tokens after : List Token) :
    Step.Extends after
      (if procedureFollows tokens then procedureStep s (some d) (skipQualifier tokens)
        else variableStep s d tokens)
      (if procedureFollows (tokens ++ after) then
          procedureStep s (some d) (skipQualifier (tokens ++ after))
        else variableStep s d (tokens ++ after)) := by
  rcases procedureFollows_append tokens after with same | ⟨none, layout⟩
  · rw [same]
    split
    · exact resultStep_extends s d tokens
    · exact variableStep_extends s d tokens
  · obtain ⟨noItems, left⟩ := variableItems_of_onlyLayout layout
    rw [if_neg (by rw [none]; exact Bool.false_ne_true)]
    refine .inr ⟨left, ?_⟩
    rw [keys_variableStep, noItems]
    exact List.nil_prefix

theorem step_extends (s : State) (t : Token) (tokens after : List Token) :
    Step.Extends after (step s t tokens) (step s t (tokens ++ after)) := by
  unfold step
  split
  case h_4 | h_5 => exact directiveStep_extends s tokens
  case h_6 => exact literalStep_extends s tokens
  case h_7 => exact defineStep_extends s tokens
  case h_8 | h_9 => exact procedureStep_extends s none (t :: tokens)
  case h_10 => exact structureStep_extends s t tokens
  case h_12 =>
    rw [endStep, endStep]
    split <;> exact .inl rfl
  case h_16 d kind =>
    split
    · exact dataTypeStep_extends s d tokens after
    · exact .inl rfl
  all_goals exact .inl rfl

theorem keys_findings_monotone (s : State) (tokens after : List Token) :
    Finding.keys (findings s tokens) <+: Finding.keys (findings s (tokens ++ after)) := by
  fun_induction findings s tokens with
  | case1 => exact List.nil_prefix
  | case2 s t rest _ next ih =>
      rw [List.cons_append, findings_cons, Finding.keys_append, Finding.keys_append]
      rcases step_extends s t rest after with same | ⟨layout, front⟩
      · simp only [same]
        exact (List.prefix_append_right_inj _).2 ih
      · have none : findings next.state next.rest = [] := findings_of_onlyLayout _ layout
        rw [none]
        simp only [Finding.keys, List.filterMap_nil, List.append_nil]
        exact front.trans (List.prefix_append _ _)

theorem extract_keys_monotone (tokens after : List Token) :
    (extract tokens).symbols.keys <+: (extract (tokens ++ after)).symbols.keys := by
  have keys (found : List Finding) :
      (SymbolTable.ofList (found.filterMap Finding.symbol?)).keys =
        (Finding.keys found).eraseDups := by
    rw [SymbolTable.keys_ofList, List.map_filterMap]
    rfl
  obtain ⟨more, longer⟩ := keys_findings_monotone {} tokens after
  simp only [extract, keys, ← longer]
  rw [List.eraseDups_append]
  exact List.prefix_append _ _

end TalAnalysis.Declaration
