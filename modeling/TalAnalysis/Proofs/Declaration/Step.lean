import TalAnalysis.Proofs.Declaration.Origin

namespace TalAnalysis.Declaration

theorem DefineItem.mem_findings {context : String} {item : DefineItem} {s : Symbol}
    (member : .symbol s ∈ item.findings context) :
    s = { Symbol.declaredAt item.name .define .identifier context with
        value := .text item.name.text } ∨
      (∃ t ∈ item.parameters, t.kind.isName = true ∧
        s = { Symbol.declaredAt t .define .parameter context with
          key := ⟨context, item.name.text, .parameter t.text⟩ }) ∨
      ∃ body, item.body? = some body ∧
        s = { Symbol.declaredAt item.name .define .body context with
          key := ⟨context, item.name.text, .body⟩, value := .tokens body } := by
  simp only [DefineItem.findings, List.cons_append, List.mem_cons, List.mem_append, List.mem_map,
    List.mem_filter, List.mem_flatMap, Option.mem_toList] at member
  rcases member with own | ⟨_, ⟨t, ⟨listed, isName⟩, rfl⟩, same⟩ |
    ⟨body, found, diagnostic | own | none⟩
  · exact .inl (Finding.symbol.inj own)
  · exact .inr (.inl ⟨t, listed, isName, (Finding.symbol.inj same).symm⟩)
  · split at diagnostic
    · cases diagnostic
    · cases List.mem_singleton.1 diagnostic
  · exact .inr (.inr ⟨body, found, Finding.symbol.inj own⟩)
  · cases none

/-- A symbol that the step from the token `t` may find among others, with the tokens after it. What
is declared in a file, in a procedure or as a part of a DEFINE is found with the symbol that it
belongs to. -/
inductive Finds (s : State) (t : Token) (tokens : List Token) (found : List Finding) :
    Symbol → Prop
  | directive {name : Token} {rest : List Token} {x : Symbol}
      (marks : t.kind.marksDirective = true) (isWord : name.kind.isWord = true)
      (within : name :: rest <:+ tokens)
      (own : x ∈ (directiveItem name rest).1.symbols s.context)
      (all : ∀ y ∈ (directiveItem name rest).1.symbols s.context, .symbol y ∈ found) :
      Finds s t tokens found x
  | literal {name : Token} {rest : List Token} (isName : name.kind.isName = true)
      (within : name :: rest <:+ tokens) :
      Finds s t tokens found ((literalItem name rest).1.symbol s.context)
  | define {name : Token} {rest : List Token} {x : Symbol} (defines : t.kind = .keyword .define)
      (isName : name.kind.isName = true) (within : name :: rest <:+ tokens)
      (own : .symbol x ∈ (defineItem name rest).1.findings s.context)
      (all : ∀ f ∈ (defineItem name rest).1.findings s.context, f ∈ found) :
      Finds s t tokens found x
  | variable_ (d : DataType) {name : Token} {rest : List Token} (isName : name.kind.isName = true)
      (within : name :: rest <:+ tokens) :
      Finds s t tokens found ((variableItem name rest).1.symbol s.context d)
  | procedure {name : Token} {type : SymbolType} {kinds : List ScopeKind} {value : SymbolValue}
      (isName : name.kind.isName = true) (member : name ∈ t :: tokens)
      (opens : type = .procedure ∨ type = .subprocedure)
      (result : value = .none ∨ ∃ d : DataType, value = .text d.spelling) :
      Finds s t tokens found { Symbol.declaredAt name .function type
        (contextOf (closeBodiless kinds s.scopes)) with value }
  | parameter {name u : Token} {type : SymbolType} {kinds : List ScopeKind} {value : SymbolValue}
      (isName : u.kind.isName = true) (member : u ∈ t :: tokens)
      (opens : type = .procedure ∨ type = .subprocedure)
      (own : .symbol { Symbol.declaredAt name .function type
        (contextOf (closeBodiless kinds s.scopes)) with value } ∈ found) :
      Finds s t tokens found (Symbol.declaredAt u .variable_ .parameter name.text)
  | struct {name : Token} (isName : name.kind.isName = true) (member : name ∈ t :: tokens) :
      Finds s t tokens found (Symbol.declaredAt name .variable_ .struct s.context)

variable {s : State} {t : Token} {tokens : List Token} {found : List Finding} {x : Symbol}

theorem finds_of_mem_directiveStep (marks : t.kind.marksDirective = true)
    (member : .symbol x ∈ (directiveStep s tokens).findings) :
    Finds s t tokens (directiveStep s tokens).findings x := by
  obtain ⟨item, listed, own⟩ := List.mem_flatMap.1 member
  obtain ⟨name, rest, within, isWord, same⟩ := mem_directiveLine listed
  obtain ⟨_, declared, found⟩ := List.mem_map.1 own
  obtain rfl := Finding.symbol.inj found
  refine .directive marks isWord within (same ▸ declared) fun y member => ?_
  exact List.mem_flatMap.2 ⟨item, listed, List.mem_map.2 ⟨y, same ▸ member, rfl⟩⟩

theorem finds_of_mem_literalStep (member : .symbol x ∈ (literalStep s tokens).findings) :
    Finds s t tokens found x := by
  obtain ⟨item, listed, same⟩ := List.mem_map.1 member
  obtain rfl := Finding.symbol.inj same
  obtain ⟨name, rest, within, isName, rfl⟩ := mem_namedItems listed
  exact .literal isName within

theorem finds_of_mem_defineStep (defines : t.kind = .keyword .define)
    (member : .symbol x ∈ (defineStep s tokens).findings) :
    Finds s t tokens (defineStep s tokens).findings x := by
  obtain ⟨item, listed, own⟩ := List.mem_flatMap.1 member
  obtain ⟨name, rest, within, isName, same⟩ := mem_namedItems listed
  refine .define defines isName within (same ▸ own) fun f member => ?_
  exact List.mem_flatMap.2 ⟨item, listed, same ▸ member⟩

theorem finds_of_mem_variableStep {d : DataType}
    (member : .symbol x ∈ (variableStep s d tokens).findings) : Finds s t tokens found x := by
  rcases List.mem_append.1 member with declared | missing
  · obtain ⟨item, listed, same⟩ := List.mem_map.1 declared
    obtain rfl := Finding.symbol.inj same
    obtain ⟨name, rest, within, isName, rfl⟩ := mem_variableItems listed
    refine .variable_ d isName (within.trans (List.IsSuffix.trans ?_ (skipLayout_suffix tokens)))
    split
    · exact List.tail_suffix _
    · exact parenthesized_suffix _
  · obtain ⟨t, -, same⟩ := List.mem_map.1 missing
    cases same

theorem finds_of_mem_procedureStep {result? : Option DataType} {header : List Token}
    (within : header <:+ t :: tokens)
    (member : .symbol x ∈ (procedureStep s result? header).findings) :
    Finds s t tokens (procedureStep s result? header).findings x := by
  cases header with
  | nil => cases member
  | cons keyword header =>
      have later {u : Token} (member : u ∈ header) : u ∈ t :: tokens :=
        within.subset (List.mem_cons_of_mem keyword member)
      rw [procedureStep.eq_def] at member ⊢
      cases named : (procedureHeader header).name? with
      | none =>
          simp only [named] at member
          cases List.mem_singleton.1 member
      | some name =>
          simp only [named] at member ⊢
          obtain ⟨_, listed, same⟩ := List.mem_map.1 member
          obtain rfl := Finding.symbol.inj same
          rcases List.mem_cons.1 listed with rfl | listed
          · obtain ⟨inHeader, isName⟩ := procedureHeader_name named
            refine .procedure isName (later inHeader) (by split <;> simp) ?_
            cases result? with
            | none => exact .inl rfl
            | some d => exact .inr ⟨d, rfl⟩
          · obtain ⟨u, parameter, rfl⟩ := List.mem_map.1 listed
            obtain ⟨inHeader, isName⟩ := mem_parameterNames parameter
            exact .parameter isName (later ((procedureHeader_parameters header).subset inHeader))
              (by split <;> simp) (List.mem_map.2 ⟨_, List.mem_cons_self, rfl⟩)

theorem finds_of_mem_structureStep {keyword : Token}
    (member : .symbol x ∈ (structureStep s keyword tokens).findings) :
    Finds s t tokens found x := by
  rw [structureStep] at member
  cases named : (structureHeader tokens).name? with
  | none =>
      simp only [named] at member
      cases List.mem_singleton.1 member
  | some name =>
      simp only [named] at member
      obtain rfl := Finding.symbol.inj (List.mem_singleton.1 member)
      obtain ⟨inHeader, isName⟩ := structureHeader_name named
      exact .struct isName (List.mem_cons_of_mem t inHeader)

theorem finds_of_mem (member : .symbol x ∈ (step s t tokens).findings) :
    Finds s t tokens (step s t tokens).findings x := by
  revert member
  unfold step
  split
  case h_4 kind | h_5 kind => exact finds_of_mem_directiveStep (by rw [kind]; rfl)
  case h_6 => exact finds_of_mem_literalStep
  case h_7 kind => exact finds_of_mem_defineStep kind
  case h_8 | h_9 => exact finds_of_mem_procedureStep (List.suffix_refl _)
  case h_10 => exact finds_of_mem_structureStep
  case h_12 =>
    rw [endStep]
    split
    · intro member
      cases List.mem_singleton.1 member
    · intro member
      cases member
  case h_16 =>
    split
    · split
      · exact finds_of_mem_procedureStep
          ((skipQualifier_suffix tokens).trans (List.suffix_cons t tokens))
      · exact finds_of_mem_variableStep
    · intro member
      cases member
  all_goals
    intro member
    cases member

theorem Finds.marksDirective (h : Finds s t tokens found x)
    (directive : x.kind = .directive) : t.kind.marksDirective = true := by
  cases h with
  | directive marks => exact marks
  | define _ _ _ own =>
      rcases DefineItem.mem_findings own with rfl | ⟨_, -, -, rfl⟩ | ⟨_, -, rfl⟩ <;> cases directive
  | literal | variable_ | procedure | parameter | struct => cases directive

theorem Finds.kind_of_define (h : Finds s t tokens found x) (define : x.kind = .define) :
    t.kind = .keyword .define := by
  cases h with
  | define defines => exact defines
  | directive _ _ _ own =>
      rcases List.mem_cons.1 own with rfl | section_
      · cases define
      · obtain ⟨_, -, rfl⟩ := List.mem_map.1 section_
        cases define
  | literal | variable_ | procedure | parameter | struct => cases define

theorem DefineItem.span_of_mem_findings {context : String} {item : DefineItem} {d : Diagnostic}
    (member : .diagnostic d ∈ item.findings context) : d.span = item.name.span := by
  simp only [DefineItem.findings, List.cons_append, List.mem_cons, List.mem_append, List.mem_map,
    List.mem_flatMap] at member
  rcases member with own | ⟨_, -, same⟩ | ⟨body, -, unterminated | own | none⟩
  · cases own
  · cases same
  · split at unterminated
    · cases unterminated
    · cases List.mem_singleton.1 unterminated
      rfl
  · cases own
  · cases none

theorem reported_of_mem_defineStep {d : Diagnostic}
    (member : .diagnostic d ∈ (defineStep s tokens).findings) : ∃ u ∈ tokens, d.span = u.span := by
  obtain ⟨item, listed, own⟩ := List.mem_flatMap.1 member
  obtain ⟨name, rest, within, -, rfl⟩ := mem_namedItems listed
  refine ⟨name, within.subset List.mem_cons_self, ?_⟩
  rw [DefineItem.span_of_mem_findings own, (defineItem_parts name rest).1]

theorem reported_of_mem_variableStep {type : DataType} {d : Diagnostic}
    (member : .diagnostic d ∈ (variableStep s type tokens).findings) :
    ∃ u ∈ tokens, d.span = u.span := by
  rcases List.mem_append.1 member with declared | missing
  · obtain ⟨_, -, same⟩ := List.mem_map.1 declared
    cases same
  · obtain ⟨u, found, same⟩ := List.mem_map.1 missing
    cases same
    refine ⟨u, List.IsSuffix.subset ?_ (mem_of_missing (Option.mem_toList.1 found)), rfl⟩
    refine List.IsSuffix.trans ?_ (skipLayout_suffix tokens)
    split
    · exact List.tail_suffix _
    · exact parenthesized_suffix _

theorem reported_of_mem_procedureStep {result? : Option DataType} {header : List Token}
    {d : Diagnostic} (member : .diagnostic d ∈ (procedureStep s result? header).findings) :
    ∃ u ∈ header, d.span = u.span := by
  cases header with
  | nil => cases member
  | cons keyword header =>
      rw [procedureStep.eq_def] at member
      cases named : (procedureHeader header).name? with
      | none =>
          simp only [named] at member
          cases List.mem_singleton.1 member
          exact ⟨keyword, List.mem_cons_self, rfl⟩
      | some name =>
          simp only [named] at member
          obtain ⟨_, -, same⟩ := List.mem_map.1 member
          cases same

theorem reported_of_mem_structureStep {keyword : Token} {d : Diagnostic}
    (member : .diagnostic d ∈ (structureStep s keyword tokens).findings) :
    d.span = keyword.span := by
  rw [structureStep] at member
  cases named : (structureHeader tokens).name? with
  | none =>
      simp only [named] at member
      cases List.mem_singleton.1 member
      rfl
  | some name =>
      simp only [named] at member
      cases List.mem_singleton.1 member

theorem reported_of_mem {d : Diagnostic} (member : .diagnostic d ∈ (step s t tokens).findings) :
    ∃ u ∈ t :: tokens, d.span = u.span := by
  have later (h : ∃ u ∈ tokens, d.span = u.span) : ∃ u ∈ t :: tokens, d.span = u.span := by
    obtain ⟨u, member, same⟩ := h
    exact ⟨u, List.mem_cons_of_mem t member, same⟩
  revert member
  unfold step
  split
  case h_4 | h_5 =>
    intro member
    obtain ⟨_, -, own⟩ := List.mem_flatMap.1 member
    obtain ⟨_, -, same⟩ := List.mem_map.1 own
    cases same
  case h_6 =>
    intro member
    obtain ⟨_, -, same⟩ := List.mem_map.1 member
    cases same
  case h_7 => exact fun member => later (reported_of_mem_defineStep member)
  case h_8 | h_9 => exact reported_of_mem_procedureStep
  case h_10 =>
    exact fun member => ⟨t, List.mem_cons_self, reported_of_mem_structureStep member⟩
  case h_12 =>
    rw [endStep]
    split
    · intro member
      cases List.mem_singleton.1 member
      exact ⟨t, List.mem_cons_self, rfl⟩
    · intro member
      cases member
  case h_16 =>
    split
    · split
      · exact fun member => later (by
          obtain ⟨u, inHeader, same⟩ := reported_of_mem_procedureStep member
          exact ⟨u, (skipQualifier_suffix tokens).subset inHeader, same⟩)
      · exact fun member => later (reported_of_mem_variableStep member)
    · intro member
      cases member
  all_goals
    intro member
    cases member

/-- The steps of a run: the state before, the token that the step is from, and the tokens after it.
-/
def steps (s : State) (tokens : List Token) : List (State × Token × List Token) :=
  match tokens with
  | [] => []
  | t :: rest =>
    have _fewer := (step_suffix s t rest).length_le
    (s, t, rest) :: steps (step s t rest).state (step s t rest).rest
termination_by tokens.length
decreasing_by simp only [List.length_cons]; omega

theorem steps_cons (s : State) (t : Token) (rest : List Token) :
    steps s (t :: rest) = (s, t, rest) :: steps (step s t rest).state (step s t rest).rest := by
  rw [steps]

theorem Finding.mem_symbols {found : List Finding} {s : Symbol} :
    s ∈ found.filterMap symbol? ↔ .symbol s ∈ found := by
  rw [List.mem_filterMap]
  constructor
  · rintro ⟨finding, member, same⟩
    cases finding with
    | symbol other => exact Option.some.inj same ▸ member
    | diagnostic d => cases same
  · exact fun member => ⟨_, member, rfl⟩

theorem mem_findings {f : Finding} (member : f ∈ findings s tokens) :
    ∃ x ∈ steps s tokens, f ∈ (step x.1 x.2.1 x.2.2).findings := by
  fun_induction findings s tokens with
  | case1 => cases member
  | case2 s t rest _ next ih =>
      rw [steps_cons]
      rcases List.mem_append.1 member with here | later
      · exact ⟨(s, t, rest), List.mem_cons_self, here⟩
      · obtain ⟨x, listed, found⟩ := ih later
        exact ⟨x, List.mem_cons_of_mem _ listed, found⟩

theorem mem_steps {y : State × Token × List Token} (member : y ∈ steps s tokens) :
    y.2.1 :: y.2.2 <:+ tokens := by
  fun_induction steps s tokens with
  | case1 => cases member
  | case2 s t rest _ ih =>
      rcases List.mem_cons.1 member with rfl | later
      · exact List.suffix_refl _
      · exact (ih later).trans ((step_suffix s t rest).trans (List.suffix_cons t rest))

theorem Finding.mem_diagnostics {found : List Finding} {d : Diagnostic} :
    d ∈ found.filterMap diagnostic? ↔ .diagnostic d ∈ found := by
  rw [List.mem_filterMap]
  constructor
  · rintro ⟨finding, member, same⟩
    cases finding with
    | symbol s => cases same
    | diagnostic other => exact Option.some.inj same ▸ member
  · exact fun member => ⟨_, member, rfl⟩

theorem reported_of_mem_findings {d : Diagnostic} (member : .diagnostic d ∈ findings s tokens) :
    ∃ u ∈ tokens, d.span = u.span := by
  obtain ⟨x, listed, found⟩ := mem_findings member
  obtain ⟨u, read, same⟩ := reported_of_mem found
  exact ⟨u, (mem_steps listed).subset read, same⟩

end TalAnalysis.Declaration
