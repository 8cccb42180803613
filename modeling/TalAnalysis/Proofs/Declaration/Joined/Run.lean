import TalAnalysis.Proofs.Declaration.Joined.Symbol
import TalAnalysis.Proofs.Declaration.Lookback

namespace TalAnalysis.Declaration
open Token Finding

variable {plain joined further : List Token} {first t : Token} {s : State}

/-! ## One step beside one step -/

/-- A step and the same with names joined. What may share its key with a directive is found alike if
none of it depends on what a joined name is. -/
structure StepJoins (plain joined : Step) : Prop where
  found : (∀ x, .symbol x ∈ joined.findings → x.Apart) →
    List.Forall₂ Symbol.Joins (keyed plain.findings) (keyed joined.findings)
  state : plain.state = joined.state.shortened
  rest : Joins plain.rest joined.rest

theorem literalStep_joins (h : Joins plain joined) :
    StepJoins (literalStep s.shortened plain) (literalStep s joined) := by
  obtain ⟨items, closed, rest⟩ := literals_joins h
  refine ⟨fun apart => keyed_map items fun x y same listed => ?_, ?_, rest⟩
  · have here := apart _ (List.mem_map.2 ⟨y, listed, rfl⟩)
    exact keyed_joins .literal rfl rfl rfl rfl (by decide) (.inr same)
      (.inr s.context_shortened) here
  · rw [literalStep, closed, State.afterList_shortened]
    rfl

theorem keyed_define (context : String) (item : DefineItem) :
    keyed (item.findings context) = keyed [.symbol
      { Symbol.declaredAt item.name .define .identifier context with
        value := .text item.name.text }] := by
  have none {found : List Finding}
      (suffixed : ∀ x, .symbol x ∈ found → x.key.suffix ≠ .none) : keyed found = [] := by
    refine kept_eq_nil fun x member => ?_
    simp [Symbol.keyedLikeDirective, suffixed x member]
  rw [DefineItem.findings, List.cons_append, keyed_cons]
  refine (congrArg _ (none fun x member => ?_)).trans (List.append_nil _)
  rcases List.mem_append.1 member with parameter | body
  · simp only [List.map_map, List.mem_map, List.mem_filter, Function.comp_apply] at parameter
    obtain ⟨t, -, same⟩ := parameter
    obtain rfl := Finding.symbol.inj same
    simp
  · obtain ⟨tokens, -, listed⟩ := List.mem_flatMap.1 body
    rcases List.mem_append.1 listed with diagnostic | own
    · split at diagnostic
      · cases diagnostic
      · cases List.mem_singleton.1 diagnostic
    · obtain rfl := Finding.symbol.inj (List.mem_singleton.1 own)
      simp

theorem defineStep_joins (h : Joins plain joined)
    (stands : ∀ x ∈ itemPlaces defineItem defineItem_suffix joined, DefinitionStands x.1 x.2) :
    StepJoins (defineStep s.shortened plain) (defineStep s joined) := by
  obtain ⟨items, closed, rest⟩ := defines_joins h stands
  refine ⟨fun apart => kept_flatMap items fun x y same listed => ?_, ?_, rest⟩
  · change List.Forall₂ Symbol.Joins (keyed _) (keyed _)
    rw [keyed_define, keyed_define]
    have here := apart _ (List.mem_flatMap.2 ⟨y, listed, List.mem_cons_self⟩)
    exact keyed_joins .define rfl rfl rfl rfl (by decide) (.inr same)
      (.inr s.context_shortened) here
  · rw [defineStep, closed, State.afterList_shortened]
    rfl

def DirectiveItem.own (context : String) (item : DirectiveItem) : Symbol :=
  { Symbol.declaredAt item.token .directive .directive context with
    key := ⟨context, item.name, .none⟩
    name := item.name
    value :=
      match item.argument? with
      | some text => .text text
      | none => .none }

theorem own_key (context : String) (item : DirectiveItem) :
    (item.own context).key = ⟨context, item.name, .none⟩ := rfl

theorem symbols_own (context : String) (item : DirectiveItem) :
    (item.symbols context).map Finding.symbol = .symbol (item.own context) ::
      item.sections.map fun t => .symbol (Symbol.declaredAt t .function .external item.file) := by
  rw [DirectiveItem.symbols, List.map_cons, List.map_map]
  rfl

theorem keyed_directive {item item' : DirectiveItem} (h : item.Joins item')
    (apart : ∀ x ∈ item'.symbols s.context, x.Apart) :
    List.Forall₂ Symbol.Joins (keyed ((item.symbols s.shortened.context).map .symbol))
      (keyed ((item'.symbols s.context).map .symbol)) := by
  rw [symbols_own, symbols_own, h.file]
  refine keyed_cons_joins (keyed_shortened ?_ rfl)
    (keyed_tokens (by decide) (.inr rfl) h.sections (.inl rfl) fun t member => ?_)
  · rw [own_key, own_key, h.name, s.context_shortened]
    rfl
  · exact apart _ (List.mem_cons_of_mem _ (List.mem_map_of_mem member))

theorem keyed_unknown {item : DirectiveItem} {context : String}
    (listed : item ∈ (directiveLine joined).1) (unknown : namesDirective item.name = false) :
    keyed ((item.symbols context).map .symbol) = [] := by
  rw [symbols_own, sections_of_unknown listed unknown]
  exact keyed_of_false (by simp [Symbol.keyedLikeDirective, own_key, unknown])

theorem kept_known {keeps : Symbol → Bool} {context : String} (items : List DirectiveItem)
    (silent : ∀ item ∈ items, namesDirective item.name = false →
      kept keeps ((item.symbols context).map .symbol) = []) :
    kept keeps (items.flatMap fun item => (item.symbols context).map .symbol) =
      kept keeps ((items.filter fun item => namesDirective item.name).flatMap fun item =>
        (item.symbols context).map .symbol) := by
  induction items with
  | nil => rfl
  | cons item items ih =>
      obtain ⟨here, later⟩ := List.forall_mem_cons.1 silent
      rw [List.flatMap_cons, kept_append, ih later, List.filter_cons]
      cases known : namesDirective item.name with
      | true => rw [if_pos rfl, List.flatMap_cons, kept_append]
      | false => rw [here known, List.nil_append, if_neg Bool.false_ne_true]

theorem directiveStep_joins (h : Joins plain joined) (stands : lineStands joined = true) :
    StepJoins (directiveStep s.shortened plain) (directiveStep s joined) := by
  obtain ⟨items, rest⟩ := knownOnLine_joins h stands
  refine ⟨fun apart => ?_, rfl, rest⟩
  rw [directiveStep, directiveStep, keyed, keyed,
    kept_known (directiveLine plain).1 fun item => keyed_unknown,
    kept_known (directiveLine joined).1 fun item => keyed_unknown]
  refine kept_flatMap items fun item item' same listed => ?_
  exact keyed_directive same fun x own =>
    apart x (List.mem_flatMap.2
      ⟨item', List.mem_of_mem_filter listed, List.mem_map_of_mem own⟩)

theorem structureStep_joins (h : Joins plain joined) (keyword : Token) :
    StepJoins (structureStep s.shortened keyword plain) (structureStep s keyword joined) := by
  obtain ⟨name, rest⟩ := structureHeader_joins h
  rw [structureStep, structureStep]
  generalize structureHeader plain = header at name rest ⊢
  generalize structureHeader joined = header' at name rest ⊢
  obtain ⟨name?, tokens⟩ := header
  obtain ⟨name?', tokens'⟩ := header'
  simp only at name rest ⊢
  cases name with
  | none => exact ⟨fun _ => .nil, rfl, rest⟩
  | @some name name' word =>
      refine ⟨fun apart => ?_, ?_, rest⟩
      · exact keyed_joins .variable_ rfl rfl rfl rfl (by decide) (.inr word)
          (.inr s.context_shortened) (apart _ List.mem_cons_self)
      · simp only [bodyFollows_joins rest, word]
        split <;> rfl

theorem endStep_joins (t : Token) (h : Joins plain joined) :
    StepJoins (endStep s.shortened t plain) (endStep s t joined) := by
  have same : s.shortened.depth = s.depth := rfl
  rw [endStep, endStep, same]
  split
  · exact ⟨fun _ => .nil, rfl, h⟩
  · exact ⟨fun _ => .nil, s.closeBlock_shortened, h⟩

/-! ## Procedures -/

theorem keyed_parameters {name name' : Token} {formals formals' : List Token}
    (word : name.text = firstWord name'.text)
    (parameters : Joins formals formals' ∨ formals = [] ∧ name'.isJoined = true)
    (apart : ∀ t ∈ parameterNames 0 formals',
      (Symbol.declaredAt t .variable_ .parameter name'.text).Apart) :
    List.Forall₂ Symbol.Joins
      (keyed ((parameterNames 0 formals).map fun t =>
        .symbol (Symbol.declaredAt t .variable_ .parameter name.text)))
      (keyed ((parameterNames 0 formals').map fun t =>
        .symbol (Symbol.declaredAt t .variable_ .parameter name'.text))) := by
  rcases parameters with joins | ⟨rfl, isJoined⟩
  · exact keyed_tokens (by decide) (.inl rfl) (parameterNames_joins joins 0) (.inr word) apart
  · -- Without names joined the parentheses are passed over, so no parameter may have such a key.
    have several : spaced name'.text = true := (Bool.and_eq_true_iff.1 isJoined).2
    have silent : keyed ((parameterNames 0 formals').map fun t =>
        .symbol (Symbol.declaredAt t .variable_ .parameter name'.text)) = [] := by
      refine keyed_eq_nil fun x member => ?_
      obtain ⟨t, listed, same⟩ := List.mem_map.1 member
      obtain rfl := Finding.symbol.inj same
      cases own : spaced t.text with
      | true => exact namesDirective_of_spaced own
      | false =>
          refine apart t listed (by simp [Symbol.declaredAt]) rfl (.inr several) t.text ?_
          rw [unjoinedNames_declaredAt (.inl rfl), words_of_not_spaced own]
          exact List.mem_singleton_self t.text
    rw [silent]
    exact .nil

theorem closeBodiless_state (s : State) (kinds : List ScopeKind) :
    ({ s.shortened with scopes := closeBodiless kinds s.shortened.scopes } : State) =
      State.shortened { s with scopes := closeBodiless kinds s.scopes } := by
  rw [State.shortened, State.shortened, State.closeBodiless_shortened]

theorem procedureStep_joins (result? : Option DataType) (h : Joins plain joined)
    (single : ∀ t ∈ joined.head?, t.isJoined = false) (stands : HeaderStands joined.tail) :
    StepJoins (procedureStep s.shortened result? plain) (procedureStep s result? joined) := by
  cases h with
  | nil => exact ⟨fun _ => .nil, rfl, .nil⟩
  | joined name => exact absurd ((single _ rfl).symm.trans name.isJoined) Bool.false_ne_true
  | @same keyword plain joined _ others =>
      obtain ⟨name, parameters, rest⟩ := procedureHeader_joins others stands
      simp only [procedureStep, closeBodiless_state, State.context_shortened]
      generalize (if keyword.isKeyword .subproc = true then
          (SymbolType.subprocedure, ScopeKind.subprocedure, [ScopeKind.subprocedure])
        else (.procedure, .procedure, [.procedure, .subprocedure])) = opening
      obtain ⟨type, kind, bodiless⟩ := opening
      generalize procedureHeader plain = header at name parameters rest ⊢
      generalize procedureHeader joined = header' at name parameters rest ⊢
      obtain ⟨name?, formals, tokens⟩ := header
      obtain ⟨name?', formals', tokens'⟩ := header'
      simp only at name parameters rest ⊢
      cases name with
      | none => exact ⟨fun _ => .nil, rfl, rest⟩
      | @some name name' word =>
          have formals : Joins formals formals' ∨ formals = [] ∧ name'.isJoined = true := by
            refine parameters.imp_right ?_
            rintro ⟨empty, _, own, isJoined⟩
            cases own
            exact ⟨empty, isJoined⟩
          refine ⟨fun apart => ?_, ?_, rest⟩
          · obtain ⟨own, others⟩ := List.forall_mem_cons.1 fun x member =>
              apart x (List.mem_map_of_mem member)
            simp only [List.map_cons, List.map_map]
            refine keyed_cons_joins (keyed_joins .function rfl rfl rfl rfl (by decide)
              (.inr word) (.inr rfl) own) ?_
            exact keyed_parameters word formals fun t member =>
              others _ (List.mem_map_of_mem member)
          · simp only [word]
            rfl

/-! ## Variables -/

theorem skipWidth_joins (h : Joins plain joined) : Joins (skipWidth plain) (skipWidth joined) := by
  have front := skipLayout_joins h
  rw [skipWidth, skipWidth, opensWith_joins front]
  split
  · rename_i opens
    refine front.tail fun t first => Bool.eq_false_iff.2 fun isName => ?_
    rw [opensWith, first] at opens
    exact absurd ((not_isDelimiter_of_isName isName _).symm.trans opens) Bool.false_ne_true
  · exact (between_joins front .lParen .rParen).rest

theorem keyed_missing (opening : String) (missing : List Token) :
    keyed (missing.map fun t => Finding.missingName opening t.span) = [] := by
  refine keyed_eq_nil fun x member => ?_
  obtain ⟨t, -, same⟩ := List.mem_map.1 member
  cases same

theorem variableStep_joins (d : DataType) (h : Joins plain joined)
    (whole : afterJoined? (skipWidth joined) = none) :
    StepJoins (variableStep s.shortened d plain) (variableStep s d joined) := by
  obtain ⟨items, closed, rest⟩ := variableItems_joins (skipWidth_joins h) whole
  rw [variableStep_eq, variableStep_eq]
  refine ⟨fun apart => ?_, ?_, rest⟩
  · rw [keyed_append, keyed_append, keyed_missing, keyed_missing, List.append_nil, List.append_nil]
    refine keyed_map items fun x y same listed => ?_
    have here := apart _ (List.mem_append_left _ (List.mem_map.2 ⟨y, listed, rfl⟩))
    exact keyed_joins .variable_ rfl rfl rfl rfl (by decide) (.inl (congrArg Token.text same))
      (.inr s.context_shortened) here
  · simp only [closed, State.afterList_shortened]

theorem findings_names (names : ∀ u ∈ further, u.IsSingle) (several : further ≠ [])
    (s : State) (rest : List Token) :
    findings s (further ++ rest) = findings s.inStatement rest := by
  induction further generalizing s with
  | nil => exact absurd rfl several
  | cons u further ih =>
      obtain ⟨single, names⟩ := List.forall_mem_cons.1 names
      rw [List.cons_append, findings_idle (idle_of_isName single.1)]
      cases further with
      | nil => rfl
      | cons v further => exact ih names (List.cons_ne_nil _ _) s.inStatement

theorem afterList_of_statementStart (start : s.statementStart = true) (closed : Bool) :
    s.afterList closed = s.atStart := by
  cases closed with
  | true => rfl
  | false => exact congrArg (fun b => { s with statementStart := b }) start

theorem keyed_variableStep {d : DataType} {list : List Token}
    (unknown : ∀ x ∈ (variableItems (skipWidth list)).items,
      namesDirective x.name.text = false) : keyed (variableStep s d list).findings = [] := by
  rw [variableStep_eq, keyed_append, keyed_missing, List.append_nil]
  refine keyed_eq_nil fun x member => ?_
  obtain ⟨item, listed, same⟩ := List.mem_map.1 member
  obtain rfl := Finding.symbol.inj same
  exact unknown item listed

/-! ## What joined names may change -/

def procedureTokens? (s : State) (t : Token) (tokens : List Token) : Option (List Token) :=
  match t.kind with
  | .keyword .proc | .keyword .subproc => some (t :: tokens)
  | .dataType _ =>
    if s.statementStart && procedureFollows tokens then some (skipQualifier tokens) else none
  | _ => none

def variableTokens? (s : State) (t : Token) (tokens : List Token) : Option (List Token) :=
  match t.kind with
  | .dataType _ =>
    if s.statementStart && !procedureFollows tokens then some (skipWidth tokens) else none
  | _ => none

/-- Joined names do not change which known directives the step from a token reads, nor where it
stops, but for a list of variables. -/
structure StepStands (s : State) (t : Token) (tokens : List Token) : Prop where
  directives : t.kind.marksDirective = true → lineStands tokens = true
  definitions : t.kind = .keyword .define →
    ∀ x ∈ itemPlaces defineItem defineItem_suffix tokens, DefinitionStands x.1 x.2
  procedure : ∀ header ∈ procedureTokens? s t tokens,
    (∀ keyword ∈ header.head?, keyword.isJoined = false) ∧ HeaderStands header.tail

instance (s : State) (t : Token) (tokens : List Token) : Decidable (StepStands s t tokens) :=
  decidable_of_iff
    ((t.kind.marksDirective = true → lineStands tokens = true) ∧
      (t.kind = .keyword .define →
        ∀ x ∈ itemPlaces defineItem defineItem_suffix tokens, DefinitionStands x.1 x.2) ∧
      ∀ header ∈ procedureTokens? s t tokens,
        (∀ keyword ∈ header.head?, keyword.isJoined = false) ∧ HeaderStands header.tail)
    ⟨fun ⟨directives, definitions, procedure⟩ => ⟨directives, definitions, procedure⟩,
      fun h => ⟨h.directives, h.definitions, h.procedure⟩⟩

/-- From the state `s`, the steps through the tokens declare nothing and come to `s'`, with `rest`
left. -/
def passesOver (s : State) (tokens : List Token) (s' : State) (rest : List Token) : Bool :=
  if s = s' ∧ tokens = rest then true
  else
    match tokens with
    | [] => false
    | t :: others =>
      have _fewer := (step_suffix s t others).length_le
      decide (StepStands s t others ∧ (step s t others).findings.filterMap symbol? = []) &&
        passesOver (step s t others).state (step s t others).rest s' rest
termination_by tokens.length
decreasing_by simp only [List.length_cons]; omega

/-- The step from a token stands, and where a list of variables has a joined name, what follows the
name declares nothing when it is gone through without the list, and leads to its end. -/
structure JoinsSafely (s : State) (t : Token) (tokens : List Token) : Prop where
  stands : StepStands s t tokens
  brokenLists : ∀ list ∈ variableTokens? s t tokens, ∀ rest ∈ afterJoined? list,
    passesOver s.inStatement rest s.atStart (variableItems list).rest = true

instance (s : State) (t : Token) (tokens : List Token) : Decidable (JoinsSafely s t tokens) :=
  decidable_of_iff
    (StepStands s t tokens ∧
      ∀ list ∈ variableTokens? s t tokens, ∀ rest ∈ afterJoined? list,
        passesOver s.inStatement rest s.atStart (variableItems list).rest = true)
    ⟨fun ⟨stands, brokenLists⟩ => ⟨stands, brokenLists⟩, fun h => ⟨h.stands, h.brokenLists⟩⟩

/-- What the step from a token declares takes the key of a directive only if it does so without
names joined, too. -/
structure DeclaresApart (s : State) (t : Token) (tokens : List Token) : Prop where
  symbols : ∀ x ∈ (step s t tokens).findings.filterMap symbol?, x.Apart
  brokenLists : ∀ list ∈ variableTokens? s t tokens, (afterJoined? list).isSome = true →
    ∀ x ∈ (variableItems list).items, namesDirective (firstWord x.name.text) = false

instance (s : State) (t : Token) (tokens : List Token) : Decidable (DeclaresApart s t tokens) :=
  decidable_of_iff
    ((∀ x ∈ (step s t tokens).findings.filterMap symbol?, x.Apart) ∧
      ∀ list ∈ variableTokens? s t tokens, (afterJoined? list).isSome = true →
        ∀ x ∈ (variableItems list).items, namesDirective (firstWord x.name.text) = false)
    ⟨fun ⟨symbols, brokenLists⟩ => ⟨symbols, brokenLists⟩, fun h => ⟨h.symbols, h.brokenLists⟩⟩

theorem step_variables {d : DataType} {tokens : List Token} (kind : t.kind = .dataType d)
    (start : s.statementStart = true) (follows : procedureFollows tokens = false) :
    step s t tokens = variableStep s d tokens := by
  simp only [step, kind, start, follows, if_true, Bool.false_eq_true, if_false]

theorem variables_of_opens {tokens list : List Token} (opens : list ∈ variableTokens? s t tokens) :
    ∃ d, t.kind = .dataType d ∧ s.statementStart = true ∧ procedureFollows tokens = false ∧
      list = skipWidth tokens := by
  rw [variableTokens?] at opens
  split at opens
  · rename_i d kind
    cases start : s.statementStart <;> cases follows : procedureFollows tokens <;>
      simp_all
  · cases opens

theorem step_joins (h : Joins plain joined) (single : t.isJoined = false)
    (stands : StepStands s t joined)
    (whole : ∀ list ∈ variableTokens? s t joined, afterJoined? list = none) :
    StepJoins (step s.shortened t plain) (step s t joined) := by
  obtain ⟨directives, definitions, procedure⟩ := stands
  simp only [step, procedureTokens?, variableTokens?] at procedure whole ⊢
  split
  case h_4 kind | h_5 kind => exact directiveStep_joins h (directives (by rw [kind]; rfl))
  case h_6 => exact literalStep_joins h
  case h_7 kind => exact defineStep_joins h (definitions kind)
  case h_8 kind | h_9 kind =>
    simp only [kind] at procedure
    obtain ⟨first, flat⟩ := procedure _ rfl
    exact procedureStep_joins none (.same single h) first flat
  case h_10 => exact structureStep_joins h t
  case h_11 => exact ⟨fun _ => .nil, s.openBlock_shortened, h⟩
  case h_12 => exact endStep_joins t h
  case h_13 | h_14 => exact ⟨fun _ => .nil, s.bodyElsewhere_shortened, h⟩
  case h_16 d kind =>
    simp only [kind] at procedure whole
    have same : s.shortened.statementStart = s.statementStart := rfl
    rw [same, procedureFollows_joins h]
    cases start : s.statementStart with
    | false => exact ⟨fun _ => .nil, rfl, h⟩
    | true =>
        cases follows : procedureFollows joined with
        | true =>
            simp only [start, follows, Bool.and_self, if_true] at procedure
            obtain ⟨first, flat⟩ := procedure _ rfl
            exact procedureStep_joins (some d) (skipQualifier_joins h) first flat
        | false =>
            simp only [start, follows, Bool.not_false, Bool.and_self, if_true] at whole
            exact variableStep_joins d h (whole _ rfl)
  all_goals exact ⟨fun _ => .nil, rfl, h⟩

/-! ## Known directives -/

theorem registered_step (other : t.kind.marksDirective = false) (s : State) (tokens : List Token) :
    registered (step s t tokens).findings = [] := by
  refine kept_eq_nil fun x member => Bool.eq_false_iff.2 fun known => ?_
  have directive : x.kind = .directive := eq_of_beq (Bool.and_eq_true_iff.1 known).1
  rw [(finds_of_mem member).marksDirective directive] at other
  cases other

theorem registered_directive (context : String) (item : DirectiveItem) :
    registered ((item.symbols context).map .symbol) =
      if namesDirective item.name then [item.own context] else [] := by
  have sections : registered (item.sections.map fun t =>
      .symbol (Symbol.declaredAt t .function .external item.file)) = [] := by
    refine kept_eq_nil fun x member => ?_
    obtain ⟨t, -, same⟩ := List.mem_map.1 member
    obtain rfl := Finding.symbol.inj same
    rfl
  have own : registered [.symbol (item.own context)] =
      if namesDirective item.name then [item.own context] else [] := by
    simp [registered, kept, symbol?, List.filter_cons, Symbol.isRegistered, DirectiveItem.own,
      Symbol.declaredAt]
  rw [symbols_own, ← List.singleton_append, registered_append, sections, own, List.append_nil]

theorem registered_unknown {item : DirectiveItem} {context : String}
    (unknown : namesDirective item.name = false) :
    registered ((item.symbols context).map .symbol) = [] := by
  rw [registered_directive, unknown, if_neg Bool.false_ne_true]

theorem registered_joins (h : Joins plain joined) (stands : StepStands s t joined) :
    List.Forall₂ Symbol.Joins (registered (step s.shortened t plain).findings)
      (registered (step s t joined).findings) := by
  cases marks : t.kind.marksDirective with
  | false =>
      rw [registered_step marks, registered_step marks]
      exact .nil
  | true =>
      rw [step_of_marksDirective marks, step_of_marksDirective marks]
      obtain ⟨items, -⟩ := knownOnLine_joins h (stands.directives marks)
      rw [directiveStep, directiveStep, registered, registered,
        kept_known (directiveLine plain).1 fun item _ => registered_unknown,
        kept_known (directiveLine joined).1 fun item _ => registered_unknown]
      refine kept_flatMap items fun item item' same _ => ?_
      change List.Forall₂ Symbol.Joins (registered _) (registered _)
      rw [registered_directive, registered_directive, same.name]
      split
      · refine .cons ⟨?_, rfl⟩ .nil
        rw [own_key, own_key, same.name, s.context_shortened]
        rfl
      · exact .nil

/-- What is found after some steps without names joined, beside what one step finds with. -/
structure Reaches (found : List Finding) (s : State) (t : Token) (joined : List Token) : Prop where
  directives : List.Forall₂ Symbol.Joins (registered found) (registered (step s t joined).findings)
  keyed : DeclaresApart s t joined →
    List.Forall₂ Symbol.Joins (keyed found) (keyed (step s t joined).findings)

theorem wholeStep_reaches (h : Joins plain (t :: joined)) (stands : StepStands s t joined)
    (whole : ∀ list ∈ variableTokens? s t joined, afterJoined? list = none) :
    ∃ found rest, findings s.shortened plain =
        found ++ findings (step s t joined).state.shortened rest ∧
      Reaches found s t joined ∧ Joins rest (step s t joined).rest := by
  cases h with
  | @joined first further _ plain _ name others =>
      -- A name opens no statement, and neither do its words.
      have passed := idle_of_isName name.isName s joined
      refine ⟨[], plain, ?_, ⟨?_, fun _ => ?_⟩, ?_⟩
      · rw [← List.cons_append, findings_names name.names (List.cons_ne_nil _ _), passed]
        rfl
      · rw [passed]
        exact .nil
      · rw [passed]
        exact .nil
      · rw [passed]
        exact others
  | @same _ plain _ single others =>
      obtain ⟨found, state, left⟩ := step_joins others single stands whole
      refine ⟨_, _, by rw [findings_cons, state],
        ⟨registered_joins others stands, fun apart => ?_⟩, left⟩
      exact found fun x member => apart.symbols x (mem_symbols.2 member)

/-! ## Lists that break off -/

theorem items_of_afterJoined? {list rest : List Token} (several : afterJoined? list = some rest) :
    ∃ x, x ∈ (variableItems list).items := by
  cases found : skipPointers (skipLayout list) with
  | nil =>
      rw [afterJoined?] at several
      split at several <;> simp_all
  | cons name rest' =>
      cases isName : name.kind.isName with
      | true => exact ⟨_, variableItems_own found isName⟩
      | false => simp [afterJoined?_missing found isName] at several

theorem whole_of_silent {tokens : List Token}
    (silent : (step s t tokens).findings.filterMap symbol? = []) :
    ∀ list ∈ variableTokens? s t tokens, afterJoined? list = none := by
  intro list opens
  by_contra several
  obtain ⟨rest, several⟩ := Option.ne_none_iff_exists'.1 several
  obtain ⟨item, listed⟩ := items_of_afterJoined? several
  obtain ⟨d, kind, start, follows, rfl⟩ := variables_of_opens opens
  rw [step_variables kind start follows, variableStep_eq] at silent
  have member : item.symbol s.context d ∈ ([] : List Symbol) :=
    silent ▸ mem_symbols.2 (List.mem_append_left _ (List.mem_map_of_mem listed))
  cases member

theorem kept_of_silent {found : List Finding} (silent : found.filterMap symbol? = [])
    (keeps : Symbol → Bool) : kept keeps found = [] := by
  rw [kept, silent, List.filter_nil]

theorem passesOver_joins {tokens rest : List Token} {s' : State} (h : Joins plain tokens)
    (passes : passesOver s tokens s' rest = true) :
    ∃ found rest', findings s.shortened plain = found ++ findings s'.shortened rest' ∧
      registered found = [] ∧ keyed found = [] ∧ Joins rest' rest := by
  fun_induction passesOver s tokens s' rest generalizing plain with
  | case1 s tokens reached =>
      obtain ⟨rfl, rfl⟩ := reached
      exact ⟨[], plain, rfl, rfl, rfl, h⟩
  | case2 => cases passes
  | case3 s t others _ _ ih =>
      rw [Bool.and_eq_true_iff, decide_eq_true_iff] at passes
      obtain ⟨⟨stands, silent⟩, later⟩ := passes
      have whole := whole_of_silent silent
      obtain ⟨found, rest', reached, same, left⟩ := wholeStep_reaches h stands whole
      obtain ⟨found', rest'', reached', directives, keys, left⟩ := ih left later
      have apart : DeclaresApart s t others :=
        ⟨fun x member => absurd (silent ▸ member) List.not_mem_nil, fun list opens several => by
          simp [whole list opens] at several⟩
      -- One step finds nothing with names joined, so its counterpart finds nothing either.
      have directives' : registered found = [] := by
        have found := same.directives
        rwa [registered, registered, kept_of_silent silent, List.forall₂_nil_right_iff] at found
      have keys' : keyed found = [] := by
        have found := same.keyed apart
        rwa [keyed, keyed, kept_of_silent silent, List.forall₂_nil_right_iff] at found
      refine ⟨found ++ found', rest'', ?_, ?_, ?_, left⟩
      · rw [reached, reached', List.append_assoc]
      · rw [registered_append, directives', directives, List.nil_append]
      · rw [keyed_append, keys', keys, List.nil_append]

/-- Without names joined, a list of variables breaks off at its first joined name, and what follows
the name is passed over. -/
theorem brokenList_reaches {d : DataType} {rest : List Token} (h : Joins plain joined)
    (start : s.statementStart = true) (several : afterJoined? (skipWidth joined) = some rest)
    (passes : passesOver s.inStatement rest s.atStart
      (variableItems (skipWidth joined)).rest = true) :
    ∃ found rest',
      findings (variableStep s.shortened d plain).state (variableStep s.shortened d plain).rest =
        found ++ findings (variableStep s d joined).state.shortened rest' ∧
      registered found = [] ∧ keyed found = [] ∧ Joins rest' (variableStep s d joined).rest ∧
      ((∀ x ∈ (variableItems (skipWidth joined)).items,
          namesDirective (firstWord x.name.text) = false) →
        keyed (variableStep s.shortened d plain).findings = [] ∧
          keyed (variableStep s d joined).findings = []) := by
  obtain ⟨further, others, breaks, joins⟩ := variableItems_breaks (skipWidth_joins h) several
  obtain ⟨found, rest', reached, directives, keys, left⟩ := passesOver_joins joins passes
  refine ⟨found, rest', ?_, directives, keys, ?_, fun unknown => ⟨?_, ?_⟩⟩
  · rw [variableStep_eq, variableStep_eq]
    simp only [breaks.closed, breaks.left, afterList_of_statementStart start]
    rw [findings_names breaks.single breaks.several]
    exact reached
  · rw [variableStep_eq]
    exact left
  · refine keyed_variableStep fun x listed => ?_
    obtain ⟨y, listed, same⟩ := breaks.names x listed
    exact same ▸ unknown y listed
  · refine keyed_variableStep fun y listed => ?_
    cases joins : spaced y.name.text with
    | true => exact namesDirective_of_spaced joins
    | false => exact firstWord_of_not_spaced joins ▸ unknown y listed

theorem step_reaches (h : Joins plain (t :: joined)) (safe : JoinsSafely s t joined) :
    ∃ found rest, findings s.shortened plain =
        found ++ findings (step s t joined).state.shortened rest ∧
      Reaches found s t joined ∧ Joins rest (step s t joined).rest := by
  -- Only a list of variables that breaks off takes more steps without names joined.
  by_cases broken : ∃ list ∈ variableTokens? s t joined, (afterJoined? list).isSome = true
  · obtain ⟨list, opens, several⟩ := broken
    obtain ⟨rest, after⟩ := Option.isSome_iff_exists.1 several
    have passes := safe.brokenLists list opens rest after
    obtain ⟨d, kind, start, follows, rfl⟩ := variables_of_opens opens
    cases h with
    | joined name =>
        obtain ⟨own, isName⟩ := kind_of_isName name.isName
        rw [isName] at kind
        cases kind
    | same single others =>
        have directives := registered_joins others safe.stands
        have follows' := (procedureFollows_joins others).trans follows
        have start' : s.shortened.statementStart = true := start
        obtain ⟨found, rest', reached, none, none', left, silent⟩ :=
          brokenList_reaches (d := d) others start after passes
        rw [← step_variables kind start follows, ← step_variables kind start' follows']
          at reached silent
        rw [← step_variables kind start follows] at left
        refine ⟨_ ++ found, rest', by rw [findings_cons, reached, List.append_assoc], ⟨?_, ?_⟩, left⟩
        · rw [registered_append, none, List.append_nil]
          exact directives
        · intro apart
          obtain ⟨silent, silent'⟩ := silent (apart.brokenLists _ opens several)
          rw [keyed_append, none', silent, silent']
          exact .nil
  · refine wholeStep_reaches h safe.stands fun list opens => ?_
    exact Option.not_isSome_iff_eq_none.1 fun several => broken ⟨list, opens, several⟩

/-! ## All declarations -/

theorem findings_joins (h : Joins plain joined)
    (safe : ∀ x ∈ steps s joined, JoinsSafely x.1 x.2.1 x.2.2) :
    List.Forall₂ Symbol.Joins (registered (findings s.shortened plain))
        (registered (findings s joined)) ∧
      ((∀ x ∈ steps s joined, DeclaresApart x.1 x.2.1 x.2.2) →
        List.Forall₂ Symbol.Joins (keyed (findings s.shortened plain))
          (keyed (findings s joined))) := by
  revert plain
  fun_induction findings s joined with
  | case1 s =>
      intro plain h
      cases h
      rw [findings]
      exact ⟨.nil, fun _ => .nil⟩
  | case2 s t joined _ next ih =>
      intro plain h
      rw [steps_cons] at safe ⊢
      obtain ⟨here, later⟩ := List.forall_mem_cons.1 safe
      obtain ⟨found, rest, reached, same, left⟩ := step_reaches h here
      obtain ⟨directives, keyed⟩ := ih later left
      rw [reached, registered_append, registered_append]
      refine ⟨List.rel_append same.directives directives, fun apart => ?_⟩
      obtain ⟨apart, later⟩ := List.forall_mem_cons.1 apart
      rw [keyed_append, keyed_append]
      exact List.rel_append (same.keyed apart) (keyed later)

end TalAnalysis.Declaration
