import TalAnalysis.Proofs.Declaration.Copy.Item
import TalAnalysis.Proofs.Declaration.Copy.Line
import TalAnalysis.Proofs.Declaration.Extension.Run
import TalAnalysis.Proofs.Symbol.Table

namespace TalAnalysis.Declaration.TokenCopy

variable (c : TokenCopy)

def value : SymbolValue → SymbolValue
  | .none => .none
  | .text text => .text text
  | .tokens ts => .tokens (c.tokens ts)

structure StandsAt (s : Symbol) (t : Token) : Prop where
  line : s.line = t.line
  startColumn : s.startColumn = t.startColumn
  endColumn : s.endColumn = t.endColumn
  span : s.span = t.span

structure SymbolCopies (s s' : Symbol) : Prop where
  key : s'.key = s.key
  kind : s'.kind = s.kind
  type : s'.type = s.type
  name : s'.name = s.name
  context : s'.context = s.context
  place : ∃ t, StandsAt s t ∧ StandsAt s' (c.copy t)
  value : s'.value = c.value s.value ∨
    s.kind = .directive ∧ (∃ t, c.leavesOut t = true) ∧ s.value = .text "" ∧ s'.value = .none

inductive FindingCopies : Finding → Finding → Prop
  | symbol {s s' : Symbol} (h : c.SymbolCopies s s') : FindingCopies (.symbol s) (.symbol s')
  | diagnostic (cause : Cause) (t : Token) :
      FindingCopies (.diagnostic (.ofCause cause t.span))
        (.diagnostic (.ofCause cause (c.copy t).span))

structure StepCopies (a b : Step) : Prop where
  findings : List.Forall₂ c.FindingCopies a.findings b.findings
  state : b.state = a.state
  rest : b.rest = c.tokens a.rest

variable {c} {ts : List Token} {t : Token} {s : State}

theorem forall₂_map_map {α β : Type} {R : β → β → Prop} {f g : α → β} {copy : α → α}
    (h : ∀ x, R (f x) (g (copy x))) (items : List α) :
    List.Forall₂ R (items.map f) ((items.map copy).map g) := by
  rw [List.forall₂_map_left_iff, List.map_map, List.forall₂_map_right_iff, List.forall₂_same]
  exact fun x _ => h x

theorem symbolCopies_part (t : Token) (kind : SymbolKind) (type : SymbolType) (context : String)
    (key : SymbolKey) (value : SymbolValue) :
    c.SymbolCopies { Symbol.declaredAt t kind type context with key, value }
      { Symbol.declaredAt (c.copy t) kind type context with key, value := c.value value } where
  key := rfl
  kind := rfl
  type := rfl
  name := c.text_copy t
  context := rfl
  place := ⟨t, ⟨rfl, rfl, rfl, rfl⟩, ⟨rfl, rfl, rfl, rfl⟩⟩
  value := .inl rfl

theorem symbolCopies_declaredAt (t : Token) (kind : SymbolKind) (type : SymbolType)
    (context : String) (value : SymbolValue) :
    c.SymbolCopies { Symbol.declaredAt t kind type context with value }
      { Symbol.declaredAt (c.copy t) kind type context with value := c.value value } := by
  simpa [Symbol.declaredAt] using
    symbolCopies_part (c := c) t kind type context ⟨context, t.text, .none⟩ value

theorem DirectiveCopies.symbols {item item' : DirectiveItem} (h : DirectiveCopies c item item')
    (context : String) :
    List.Forall₂ c.SymbolCopies (item.symbols context) (item'.symbols context) := by
  refine .cons ⟨?_, rfl, rfl, h.name, rfl, ?_, ?_⟩ ?_
  · simp [h.name]
  · rw [h.token]
    exact ⟨item.token, ⟨rfl, rfl, rfl, rfl⟩, ⟨rfl, rfl, rfl, rfl⟩⟩
  · rcases h.argument with same | ⟨left, empty, none⟩
    · left
      simp only [same]
      cases item.argument? <;> rfl
    · right
      simp only [empty, none]
      exact ⟨rfl, left, trivial, trivial⟩
  · rw [h.sections, h.file]
    exact forall₂_map_map (fun t => symbolCopies_declaredAt t .function .external _ .none) _

theorem literal_symbol (context : String) (item : LiteralItem) :
    c.SymbolCopies (item.symbol context) ((c.literal item).symbol context) := by
  have copied := symbolCopies_declaredAt (c := c) item.name .literal .value context
    (.text (Token.joinText item.value))
  simpa [LiteralItem.symbol, literal, value] using copied

theorem variable_symbol (context : String) (d : DataType) (item : VariableItem) :
    c.SymbolCopies (item.symbol context d) ((c.variable_ item).symbol context d) := by
  cases initial : item.initial? with
  | none =>
      have copied := symbolCopies_declaredAt (c := c) item.name .variable_ (.typed d) context .none
      simpa [VariableItem.symbol, variable_, initial, value] using copied
  | some tokens =>
      have copied := symbolCopies_declaredAt (c := c) item.name .variable_ (.typed d) context
        (.text (Token.joinText tokens))
      simpa [VariableItem.symbol, variable_, initial, value] using copied

theorem define_findings (context : String) (item : DefineItem) :
    List.Forall₂ c.FindingCopies (item.findings context) ((c.define item).findings context) := by
  have parameters : (c.tokens item.parameters).filter (fun t => t.kind.isName) =
      (item.parameters.filter fun t => t.kind.isName).map c.copy :=
    c.tokens_filter (by simp) (fun t layout => not_isName_of_isLayout layout) _
  have part (t : Token) (type : SymbolType) (suffix : KeySuffix) (value : SymbolValue) :=
    FindingCopies.symbol (symbolCopies_part (c := c) t .define type context
      ⟨context, item.name.text, suffix⟩ value)
  have unterminated := FindingCopies.diagnostic (c := c) (.unterminatedDefine item.name.text)
    item.name
  simp only [DefineItem.findings, define, parameters, text_copy, List.map_map]
  refine .cons ?_ (List.rel_append ?_ ?_)
  · simpa [Symbol.declaredAt, value] using
      part item.name .identifier .none (.text item.name.text)
  · rw [List.forall₂_map_left_iff, List.forall₂_map_right_iff, List.forall₂_same]
    intro t _
    simpa [Symbol.declaredAt, value] using part t .parameter (.parameter t.text) .none
  · cases item.body? with
    | none => exact .nil
    | some body =>
        have own := part item.name .body .body (.tokens body)
        cases item.terminated with
        | true => simpa [Symbol.declaredAt, value] using own
        | false => simpa [Symbol.declaredAt, value] using And.intro unterminated own

theorem LineKept.directiveStep_tokens (h : c.LineKept ts) (s : State) :
    c.StepCopies (directiveStep s ts) (directiveStep s (c.tokens ts)) := by
  obtain ⟨items, rest⟩ := h.directiveLine_tokens
  refine ⟨List.rel_flatMap items ?_, rfl, rest⟩
  intro item item' copied
  exact List.rel_map (fun _ _ => .symbol) (copied.symbols s.context)

theorem literalStep_tokens (s : State) (ts : List Token) :
    c.StepCopies (literalStep s ts) (literalStep s (c.tokens ts)) := by
  simp only [literalStep, literals_tokens]
  exact ⟨forall₂_map_map (fun item => .symbol (literal_symbol s.context item)) _, rfl, rfl⟩

theorem defineStep_tokens (s : State) (ts : List Token) :
    c.StepCopies (defineStep s ts) (defineStep s (c.tokens ts)) := by
  have items (l : List DefineItem) : List.Forall₂ (fun a b => b = c.define a) l
      (l.map c.define) := by
    rw [List.forall₂_map_right_iff, List.forall₂_same]
    exact fun _ _ => rfl
  simp only [defineStep, defines_tokens]
  refine ⟨List.rel_flatMap (items _) ?_, rfl, rfl⟩
  rintro item _ rfl
  exact define_findings s.context item

theorem skipWidth_tokens (ts : List Token) : skipWidth (c.tokens ts) = c.tokens (skipWidth ts) := by
  have first := headKept_skipLayout (c := c) ts
  rw [skipWidth, skipWidth, skipLayout_tokens, first.opensWith_tokens, first.tail, parenthesized,
    first.between_tokens]
  split <;> rfl

theorem variableStep_tokens {s : State} {d : DataType}
    (h : ∀ place ∈ variablePlaces (skipWidth ts), c.HeadKept place) :
    c.StepCopies (variableStep s d ts) (variableStep s d (c.tokens ts)) := by
  rw [variableStep_eq, variableStep_eq, skipWidth_tokens, c.variableItems_tokens h]
  simp only [variableListing]
  refine ⟨List.rel_append (forall₂_map_map (fun item => ?_) _) ?_, rfl, rfl⟩
  · exact .symbol (variable_symbol s.context d item)
  · cases (variableItems (skipWidth ts)).missing? with
    | none => exact .nil
    | some t => exact .cons (.diagnostic _ t) .nil

theorem HeadKept.procedureStep_tokens (h : c.HeadKept ts) (s : State) (result? : Option DataType) :
    c.StepCopies (procedureStep s result? ts) (procedureStep s result? (c.tokens ts)) := by
  rcases h.cases with rfl | ⟨keyword, rest, rfl, copied⟩
  · exact ⟨.nil, rfl, rfl⟩
  · rw [copied]
    simp only [procedureStep, procedureHeader_tokens, procedure, isKeyword_copy,
      keyword?_copy, parameterNames_tokens]
    cases (procedureHeader rest).name? with
    | none => exact ⟨.cons (.diagnostic _ keyword) .nil, rfl, rfl⟩
    | some name =>
        refine ⟨.cons (.symbol ?_) (List.rel_map (fun _ _ => .symbol) ?_), by simp, rfl⟩
        · cases result? with
          | none =>
              exact symbolCopies_declaredAt name .function _ (State.context _) .none
          | some d =>
              exact symbolCopies_declaredAt name .function _ (State.context _) (.text d.spelling)
        · simp only [text_copy]
          exact forall₂_map_map (fun t => symbolCopies_declaredAt t .variable_ .parameter _ .none) _

theorem structureStep_tokens {s : State} {keyword : Token}
    (h : c.HeadKept (skipPointers (skipLayout ts))) :
    c.StepCopies (structureStep s keyword ts) (structureStep s (c.copy keyword) (c.tokens ts)) := by
  simp only [structureStep, c.structureHeader_tokens h, structure_, bodyFollows_tokens]
  cases (structureHeader ts).name? with
  | none => exact ⟨.cons (.diagnostic _ keyword) .nil, rfl, rfl⟩
  | some name =>
      refine ⟨.cons (.symbol ?_) .nil, ?_, rfl⟩
      · exact symbolCopies_declaredAt name .variable_ .struct s.context .none
      · simp

theorem endStep_tokens (s : State) (t : Token) (ts : List Token) :
    c.StepCopies (endStep s t ts) (endStep s (c.copy t) (c.tokens ts)) := by
  rw [endStep, endStep]
  split
  · exact ⟨.cons (.diagnostic _ t) .nil, rfl, rfl⟩
  · exact ⟨.nil, rfl, rfl⟩

/-- What the step from a token reads of a line of directives is kept, and so is what stands where
it looks for a name. -/
structure StepRead (c : TokenCopy) (s : State) (t : Token) (ts : List Token) : Prop where
  line : t.kind.marksDirective = true → c.LineKept ts
  names : ∀ place ∈ stepPlaces s t ts, c.HeadKept place

instance : Decidable (c.StepRead s t ts) :=
  decidable_of_iff
    ((t.kind.marksDirective = true → c.LineKept ts) ∧
      ∀ place ∈ stepPlaces s t ts, c.HeadKept place)
    ⟨fun h => ⟨h.1, h.2⟩, fun h => ⟨h.line, h.names⟩⟩

/-- None of the steps from the tokens is disturbed by what is left out. -/
def Undisturbed (c : TokenCopy) (s : State) (ts : List Token) : Prop :=
  match ts with
  | [] => True
  | t :: ts =>
    have _fewer := (step_suffix s t ts).length_le
    c.StepRead s t ts ∧ Undisturbed c (step s t ts).state (step s t ts).rest
termination_by ts.length
decreasing_by simp only [List.length_cons]; omega

theorem undisturbed_cons (s : State) (t : Token) (ts : List Token) :
    c.Undisturbed s (t :: ts) ↔
      c.StepRead s t ts ∧ c.Undisturbed (step s t ts).state (step s t ts).rest := by
  rw [Undisturbed]

@[reducible] instance decidableUndisturbed (s : State) (ts : List Token) :
    Decidable (c.Undisturbed s ts) :=
  match ts with
  | [] => .isTrue (by rw [Undisturbed]; trivial)
  | t :: ts =>
    have _fewer := (step_suffix s t ts).length_le
    have := decidableUndisturbed (step s t ts).state (step s t ts).rest
    decidable_of_iff _ (undisturbed_cons s t ts).symm
termination_by ts.length
decreasing_by simp only [List.length_cons]; omega

theorem step_tokens (h : c.StepRead s t ts) (kept : c.leavesOut t = false) :
    c.StepCopies (step s t ts) (step s (c.copy t) (c.tokens ts)) := by
  cases marks : t.kind.marksDirective with
  | true =>
      rw [step_of_marksDirective marks, step_of_marksDirective (by simpa using marks)]
      exact (h.line marks).directiveStep_tokens s
  | false =>
      have same : (c.copy t).kind = t.kind :=
        (c.kind t).resolve_right fun marked => by simp [marks] at marked
      have whole : c.HeadKept (t :: ts) := by
        intro u first
        cases first
        exact kept
      have copied := c.tokens_cons_kept kept ts
      have names := h.names
      simp only [step, stepPlaces, same] at names ⊢
      split
      case h_4 | h_5 => simp_all [TokenKind.marksDirective]
      case h_6 => exact literalStep_tokens s ts
      case h_7 => exact defineStep_tokens s ts
      case h_8 | h_9 => exact copied ▸ whole.procedureStep_tokens s none
      case h_10 kind =>
        simp only [kind] at names
        exact structureStep_tokens (names _ (List.mem_singleton_self _))
      case h_12 => exact endStep_tokens s t ts
      case h_16 d kind =>
        simp only [kind] at names
        rw [procedureFollows_tokens, skipQualifier_tokens]
        by_cases start : s.statementStart = true
        · rw [if_pos start, if_pos start]
          by_cases procedure : procedureFollows ts = true
          · rw [if_pos procedure, if_pos procedure]
            exact HeadKept.procedureStep_tokens (headKept_skipLayout _) s (some d)
          · rw [if_neg procedure, if_neg procedure]
            simp only [start, procedure, Bool.not_false, Bool.and_self, if_true] at names
            exact variableStep_tokens names
        · rw [if_neg start, if_neg start]
          exact ⟨.nil, rfl, rfl⟩
      all_goals exact ⟨.nil, rfl, rfl⟩

theorem findings_tokens_of_steps (h : ∀ x ∈ steps s ts, c.StepRead x.1 x.2.1 x.2.2) :
    List.Forall₂ c.FindingCopies (findings s ts) (findings s (c.tokens ts)) := by
  fun_induction findings s ts with
  | case1 s =>
      rw [tokens_nil, findings]
      exact .nil
  | case2 s t rest _ next ih =>
      rw [steps_cons, List.forall_mem_cons] at h
      obtain ⟨first, others⟩ := h
      have later := ih others
      cases left : c.leavesOut t with
      | true =>
          have passed : next = ⟨[], s, rest⟩ := step_of_isLayout (c.layout t left) s rest
          rw [passed] at later ⊢
          rw [c.tokens_cons_leftOut left]
          exact later
      | false =>
          obtain ⟨found, state, left⟩ := step_tokens first left
          rw [c.tokens_cons_kept ‹_›, findings_cons, state, left]
          exact List.rel_append found later

theorem Undisturbed.read (h : c.Undisturbed s ts) :
    ∀ x ∈ steps s ts, c.StepRead x.1 x.2.1 x.2.2 := by
  fun_induction steps s ts with
  | case1 => simp
  | case2 s t rest _ ih =>
      obtain ⟨first, others⟩ := (undisturbed_cons s t rest).1 h
      exact List.forall_mem_cons.2 ⟨first, ih others⟩

theorem findings_tokens (h : c.Undisturbed s ts) :
    List.Forall₂ c.FindingCopies (findings s ts) (findings s (c.tokens ts)) :=
  findings_tokens_of_steps h.read

theorem symbols_of_findings {found found' : List Finding}
    (h : List.Forall₂ c.FindingCopies found found') :
    List.Forall₂ c.SymbolCopies (found.filterMap Finding.symbol?)
      (found'.filterMap Finding.symbol?) := by
  induction h with
  | nil => exact .nil
  | cons first _ ih =>
      cases first with
      | symbol copied => exact .cons copied ih
      | diagnostic => exact ih

def DiagnosticCopies (c : TokenCopy) (d d' : Diagnostic) : Prop :=
  ∃ cause t, d = .ofCause cause t.span ∧ d' = .ofCause cause (c.copy t).span

theorem diagnostics_of_findings {found found' : List Finding}
    (h : List.Forall₂ c.FindingCopies found found') :
    List.Forall₂ c.DiagnosticCopies (found.filterMap Finding.diagnostic?)
      (found'.filterMap Finding.diagnostic?) := by
  induction h with
  | nil => exact .nil
  | cons first _ ih =>
      cases first with
      | symbol => exact ih
      | diagnostic cause t => exact .cons ⟨cause, t, rfl, rfl⟩ ih

theorem ofList_copies {symbols symbols' : List Symbol}
    (h : List.Forall₂ c.SymbolCopies symbols symbols') :
    List.Forall₂ c.SymbolCopies (SymbolTable.ofList symbols).symbols
      (SymbolTable.ofList symbols').symbols :=
  SymbolTable.ofList_rel (fun _ _ _ _ own own' => by rw [own.key, own'.key]) h

theorem extract_tokens (h : c.Undisturbed {} ts) :
    List.Forall₂ c.SymbolCopies (extract ts).symbols.symbols
      (extract (c.tokens ts)).symbols.symbols :=
  ofList_copies (symbols_of_findings (findings_tokens h))

end TalAnalysis.Declaration.TokenCopy
