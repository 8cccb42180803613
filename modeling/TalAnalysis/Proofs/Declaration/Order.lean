import TalAnalysis.Proofs.Declaration.Step

namespace TalAnalysis.Declaration

def Finding.place? : Finding → Option Span
  | .symbol s => if s.key.suffix = .body then none else some s.span
  | .diagnostic _ => none

/-- The declarations that are found stand in the tokens in this order, and the tokens that are left
stand behind them. -/
def InOrder (tokens : List Token) (found : List Finding) (left : List Token) : Prop :=
  (found.filterMap Finding.place? ++ left.map Token.span).Sublist (tokens.map Token.span)

theorem Finding.places_symbol {x : Symbol} (noBody : x.key.suffix ≠ .body)
    (found : List Finding) :
    (.symbol x :: found).filterMap place? = x.span :: found.filterMap place? :=
  List.filterMap_cons_some (if_neg noBody)

theorem Finding.places_map {declare : Token → Finding}
    (stands : ∀ t, (declare t).place? = some t.span) (names : List Token) :
    (names.map declare).filterMap place? = names.map Token.span := by
  have spans : place? ∘ declare = some ∘ Token.span := funext stands
  rw [List.filterMap_map, spans, List.filterMap_eq_map]

theorem Finding.places_eq (found : List Finding) :
    found.filterMap place? =
      ((found.filterMap symbol?).filter fun s => s.key.suffix != .body).map Symbol.span := by
  rw [← List.filterMap_eq_map, ← List.filterMap_eq_filter, List.filterMap_filterMap,
    List.filterMap_filterMap]
  congr 1
  funext f
  cases f with
  | diagnostic d => rfl
  | symbol s => by_cases body : s.key.suffix = .body <;>
      simp [place?, symbol?, Option.guard, body]

variable {tokens tokens' left : List Token} {found : List Finding} {t : Token}

namespace InOrder

theorem of_names (names : List Token)
    (places : found.filterMap Finding.place? = names.map Token.span)
    (listed : (names ++ left).Sublist tokens) : InOrder tokens found left := by
  rw [InOrder, places, ← List.map_append]
  exact listed.map Token.span

theorem of_silent (silent : found.filterMap Finding.place? = []) (within : left <:+ tokens) :
    InOrder tokens found left :=
  of_names [] silent within.sublist

theorem mono (h : InOrder tokens found left) (within : tokens <:+ tokens') :
    InOrder tokens' found left :=
  List.Sublist.trans h (within.sublist.map Token.span)

theorem past (h : InOrder tokens found left) {left' : List Token} (within : left' <:+ left) :
    InOrder tokens found left' :=
  List.Sublist.trans ((within.sublist.map Token.span).append_left _) h

theorem append {others : List Finding} {left' : List Token} (h : InOrder tokens found left)
    (later : InOrder left others left') : InOrder tokens (found ++ others) left' := by
  rw [InOrder, List.filterMap_append, List.append_assoc]
  exact (List.Sublist.append_left later _).trans h

end InOrder

theorem inside_append_rest (opening closing : Delimiter) (depth : Nat) (tokens : List Token) :
    ((inside opening closing depth tokens).inside ++
      (inside opening closing depth tokens).rest).Sublist tokens := by
  fun_induction inside opening closing depth tokens with
  | case1 => exact .slnil
  | case3 t tokens opens closes => exact List.sublist_cons_self t tokens
  | case5 depth t tokens opens closes separates ih => exact ih.cons t
  | case2 depth t tokens opens ih => exact ih.cons_cons t
  | case4 t tokens opens closes depth ih => exact ih.cons_cons t
  | case6 depth t tokens opens closes other ih => exact ih.cons_cons t

theorem parenthesized_append_rest (tokens : List Token) :
    ((parenthesized tokens).inside ++ (parenthesized tokens).rest).Sublist tokens := by
  cases tokens with
  | nil => exact .slnil
  | cons t tokens =>
      rw [parenthesized, between]
      split
      · exact (inside_append_rest .lParen .rParen 0 tokens).cons t
      · exact List.Sublist.refl _

theorem sections_append_rest (depth : Nat) (tokens : List Token) :
    ((sections depth tokens).inside ++ (sections depth tokens).rest).Sublist tokens := by
  fun_induction sections depth tokens with
  | case1 => exact .slnil
  | case2 => exact List.Sublist.refl _
  | case3 depth u ends marker rest marks ih => exact (ih.cons marker).cons u
  | case4 => exact List.Sublist.refl _
  | case5 depth u tokens line opens ih => exact ih.cons u
  | case6 u tokens line opens closes => exact List.sublist_cons_self u tokens
  | case7 u tokens line opens closes depth ih => exact ih.cons u
  | case8 depth u tokens line opens closes word ih => exact ih.cons_cons u
  | case9 depth u tokens line opens closes other ih => exact ih.cons u

theorem parameterNames_sublist (depth : Nat) (tokens : List Token) :
    (parameterNames depth tokens).Sublist tokens := by
  fun_induction parameterNames depth tokens with
  | case1 => exact .slnil
  | case2 depth t tokens deeper named ih => exact ih.cons_cons t
  | case3 depth t tokens deeper other ih => exact ih.cons t

theorem directiveItem_sections (t : Token) (tokens : List Token) :
    ((directiveItem t tokens).1.sections ++ (directiveItem t tokens).2).Sublist tokens := by
  fun_cases directiveItem t tokens with
  | case1 =>
      simp only [sourceItem]
      refine List.Sublist.trans ?_ (List.dropWhile_sublist fun t => !endsFile t)
      split
      · exact (sections_append_rest 0 _).trans (List.tail_sublist _)
      · exact List.Sublist.refl _
  | case2 =>
      have none : (targetItem t tokens).1.sections = [] := by fun_cases targetItem t tokens <;> rfl
      rw [none]
      exact (targetItem_suffix t tokens).sublist
  | case3 => exact List.Sublist.refl _
  | case4 => exact (argument_suffix _ _ _).sublist
  | case5 => exact (argument_suffix _ _ _).sublist

theorem directiveItem_inOrder (context : String) (t : Token) (tokens : List Token) :
    InOrder (t :: tokens) (((directiveItem t tokens).1.symbols context).map .symbol)
      (directiveItem t tokens).2 := by
  refine .of_names (t :: (directiveItem t tokens).1.sections) ?_
    ((directiveItem_sections t tokens).cons_cons t)
  rw [DirectiveItem.symbols, List.map_cons, List.map_map, Finding.places_symbol]
  · exact congrArg₂ List.cons (congrArg Token.span (directiveItem_name t tokens).1)
      (Finding.places_map (fun _ => rfl) _)
  · intro body
    cases body

theorem literalItem_inOrder (context : String) (name : Token) (tokens : List Token) :
    InOrder (name :: tokens) [.symbol ((literalItem name tokens).1.symbol context)]
      (literalItem name tokens).2 :=
  .of_names [name] rfl ((literalItem_suffix name tokens).sublist.cons_cons name)

theorem variableItem_inOrder (context : String) (d : DataType) (name : Token)
    (tokens : List Token) :
    InOrder (name :: tokens) [.symbol ((variableItem name tokens).1.symbol context d)]
      (variableItem name tokens).2 :=
  .of_names [name] rfl ((variableItem_suffix name tokens).sublist.cons_cons name)

theorem defineItem_past (name : Token) (tokens : List Token) :
    (defineItem name tokens).2 <:+ (parenthesized (skipLayout tokens)).rest := by
  have left := List.dropWhile_suffix (l := (parenthesized (skipLayout tokens)).rest)
    fun t => !(t.isDelimiter .equal || t.isDelimiter .semicolon)
  fun_cases defineItem name tokens with
  | case1 => exact List.nil_suffix
  | case2 parameters from? t rest found =>
      exact (List.tail_suffix _).trans ((List.dropWhile_suffix _).trans
        ((List.suffix_cons t rest).trans (found ▸ left)))
  | case3 parameters from? t rest found => exact found ▸ left

theorem places_define (context : String) (item : DefineItem) :
    (item.findings context).filterMap Finding.place? =
      (item.name :: item.parameters.filter fun t => t.kind.isName).map Token.span := by
  have noBody : (item.body?.toList.flatMap fun tokens =>
      (if item.terminated then [] else [.diagnostic (Diagnostic.ofCause
        (.unterminatedDefine item.name.text) item.name.span)]) ++
      [.symbol { Symbol.declaredAt item.name .define .body context with
        key := ⟨context, item.name.text, .body⟩, value := .tokens tokens }]).filterMap
          Finding.place? = [] := by
    cases item.body? with
    | none => rfl
    | some tokens => cases item.terminated <;> rfl
  rw [DefineItem.findings, List.map_map, List.cons_append, Finding.places_symbol,
    List.filterMap_append, noBody, List.append_nil]
  · exact congrArg (List.cons _) (Finding.places_map (fun _ => rfl) _)
  · intro body
    cases body

theorem defineItem_inOrder (context : String) (name : Token) (tokens : List Token) :
    InOrder (name :: tokens) ((defineItem name tokens).1.findings context)
      (defineItem name tokens).2 := by
  refine .of_names _ (places_define context _) ?_
  rw [(defineItem_parts name tokens).1, (defineItem_parts name tokens).2, List.cons_append]
  refine List.Sublist.cons_cons name ?_
  exact (List.filter_sublist.append (defineItem_past name tokens).sublist).trans
    ((parenthesized_append_rest _).trans (skipLayout_suffix tokens).sublist)

theorem namedItems_inOrder {α : Type} {item : Token → List Token → α × List Token}
    {tail : ∀ name tokens, (item name tokens).2 <:+ tokens} {finds : α → List Finding}
    (own : ∀ name rest, InOrder (name :: rest) (finds (item name rest).1) (item name rest).2)
    (tokens : List Token) :
    InOrder tokens ((namedItems item tail tokens).items.flatMap finds)
      (namedItems item tail tokens).rest := by
  have first {tokens rest : List Token} {name : Token} (found : fromName tokens = name :: rest)
      {left : List Token} (within : left <:+ (item name rest).2) :
      InOrder tokens (finds (item name rest).1) left :=
    ((own name rest).past within).mono (found ▸ fromName_suffix tokens)
  have left {tokens : List Token} {end_ : ListEnd} (more : listEnd tokens = end_) :
      end_.rest <:+ tokens := more ▸ listEnd_suffix tokens
  fun_induction namedItems item tail tokens with
  | case1 => exact .of_silent rfl List.nil_suffix
  | case2 tokens name rest found isName _ rest' more ih =>
      exact (first found (left more)).append ih
  | case3 tokens name rest found isName _ rest' more
  | case4 tokens name rest found isName _ rest' more =>
      rw [List.flatMap_singleton]
      exact first found (left more)
  | case5 tokens t rest found other =>
      exact .of_silent rfl ((List.suffix_cons t rest).trans (found ▸ fromName_suffix tokens))

theorem variableItems_inOrder (context : String) (d : DataType) (tokens : List Token) :
    InOrder tokens ((variableItems tokens).items.map fun item => .symbol (item.symbol context d))
      (variableItems tokens).rest := by
  have front {tokens rest : List Token} {name : Token}
      (found : skipPointers (skipLayout tokens) = name :: rest) : name :: rest <:+ tokens :=
    found ▸ (skipPointers_suffix _).trans (skipLayout_suffix tokens)
  have first {tokens rest : List Token} {name : Token}
      (found : skipPointers (skipLayout tokens) = name :: rest) {left : List Token}
      (within : left <:+ (variableItem name rest).2) :
      InOrder tokens [.symbol ((variableItem name rest).1.symbol context d)] left :=
    ((variableItem_inOrder context d name rest).past within).mono (front found)
  have left {tokens : List Token} {end_ : ListEnd} (more : listEnd tokens = end_) :
      end_.rest <:+ tokens := more ▸ listEnd_suffix tokens
  fun_induction variableItems tokens with
  | case1 => exact .of_silent rfl List.nil_suffix
  | case2 tokens name rest found isName item rest' more _ _ ih =>
      exact (first found (left more)).append ih
  | case3 tokens name rest found isName item rest' more
  | case4 tokens name rest found isName item rest' more => exact first found (left more)
  | case5 tokens name rest found =>
      exact .of_silent rfl ((pastSemicolon_suffix _).trans (front found))

theorem directiveLine_inOrder (context : String) (tokens : List Token) :
    InOrder tokens
      ((directiveLine tokens).1.flatMap fun item => (item.symbols context).map .symbol)
      (directiveLine tokens).2 := by
  fun_induction directiveLine tokens with
  | case1 => exact .of_silent rfl List.nil_suffix
  | case2 t rest => exact .of_silent rfl (List.suffix_cons t rest)
  | case3 t rest line word _ others ih => exact (directiveItem_inOrder context t rest).append ih
  | case4 t rest line other ih => exact ih.mono (List.suffix_cons t rest)

variable {s : State}

theorem variableStep_inOrder (s : State) (d : DataType) (tokens : List Token) :
    InOrder tokens (variableStep s d tokens).findings (variableStep s d tokens).rest := by
  have within : (if opensWith (skipLayout tokens) .templateStar then (skipLayout tokens).tail
      else (parenthesized (skipLayout tokens)).rest) <:+ tokens := by
    refine List.IsSuffix.trans ?_ (skipLayout_suffix tokens)
    split
    · exact List.tail_suffix _
    · exact parenthesized_suffix _
  refine ((variableItems_inOrder s.context d _).append (.of_silent ?_ (List.suffix_refl _))).mono
    within
  rw [List.filterMap_map]
  exact List.filterMap_eq_nil_iff.2 fun _ _ => rfl

theorem procedureHeader_inOrder {name : Token}
    (named : (procedureHeader tokens).name? = some name) :
    (name :: ((procedureHeader tokens).parameters ++ (procedureHeader tokens).rest)).Sublist
      tokens := by
  rw [procedureHeader] at named ⊢
  cases found : skipLayout tokens with
  | nil => simp [found] at named
  | cons u rest =>
      rw [found] at named
      simp only at named ⊢
      split at named
      · rename_i isName
        obtain rfl := Option.some.inj named
        rw [if_pos isName]
        have parameters := ((pastSemicolon_suffix _).sublist.append_left _).trans
          ((parenthesized_append_rest (skipLayout rest)).trans (skipLayout_suffix rest).sublist)
        exact (parameters.cons_cons u).trans (found ▸ (skipLayout_suffix tokens).sublist)
      · cases named

theorem procedureStep_inOrder (s : State) (result? : Option DataType) (tokens : List Token) :
    InOrder tokens (procedureStep s result? tokens).findings
      (procedureStep s result? tokens).rest := by
  have left := procedureStep_suffix s result? tokens
  cases tokens with
  | nil => exact .of_silent rfl List.nil_suffix
  | cons keyword tokens =>
      rw [procedureStep.eq_def] at left ⊢
      cases named : (procedureHeader tokens).name? with
      | none =>
          simp only [named] at left ⊢
          exact .of_silent rfl (left.trans (List.suffix_cons keyword tokens))
      | some name =>
          simp only [named]
          refine InOrder.mono (.of_names (name ::
            parameterNames 0 (procedureHeader tokens).parameters) ?_ ?_)
              (List.suffix_cons keyword tokens)
          · rw [List.map_cons, List.map_map, Finding.places_symbol]
            · exact congrArg (List.cons _) (Finding.places_map (fun _ => rfl) _)
            · intro body
              cases body
          · exact (((parameterNames_sublist 0 _).append_right _).cons_cons name).trans
              (procedureHeader_inOrder named)

theorem structureStep_inOrder (s : State) (keyword : Token) (tokens : List Token) :
    InOrder tokens (structureStep s keyword tokens).findings
      (structureStep s keyword tokens).rest := by
  have left := structureStep_suffix s keyword tokens
  rw [structureStep] at left ⊢
  cases named : (structureHeader tokens).name? with
  | none =>
      simp only [named] at left ⊢
      exact .of_silent rfl left
  | some name =>
      simp only
      refine .of_names [name] rfl ?_
      rw [structureHeader] at named ⊢
      have front := (skipPointers_suffix _).trans (skipLayout_suffix tokens)
      cases found : skipPointers (skipLayout tokens) with
      | nil => simp [found] at named
      | cons u rest =>
          rw [found] at named front
          simp only at named ⊢
          split at named
          · rename_i isName
            obtain rfl := Option.some.inj named
            rw [if_pos isName]
            exact ((pastSemicolon_suffix rest).sublist.cons_cons u).trans front.sublist
          · cases named

theorem step_inOrder (s : State) (t : Token) (tokens : List Token) :
    InOrder (t :: tokens) (step s t tokens).findings (step s t tokens).rest := by
  have later {found : List Finding} {left : List Token} (h : InOrder tokens found left) :
      InOrder (t :: tokens) found left := h.mono (List.suffix_cons t tokens)
  unfold step
  split
  case h_4 | h_5 => exact later (directiveLine_inOrder s.context tokens)
  case h_6 =>
    have items : InOrder tokens
        ((literals tokens).items.flatMap fun item => [.symbol (item.symbol s.context)])
        (literals tokens).rest := namedItems_inOrder (literalItem_inOrder s.context) tokens
    rw [← List.map_eq_flatMap] at items
    exact later items
  case h_7 => exact later (namedItems_inOrder (defineItem_inOrder s.context) tokens)
  case h_8 | h_9 => exact procedureStep_inOrder s none (t :: tokens)
  case h_10 => exact later (structureStep_inOrder s t tokens)
  case h_12 =>
    rw [endStep]
    split <;> exact .of_silent rfl (List.suffix_cons t tokens)
  case h_16 d _ =>
    split
    · split
      · exact later ((procedureStep_inOrder s (some d) _).mono (skipQualifier_suffix tokens))
      · exact later (variableStep_inOrder s d tokens)
    · exact .of_silent rfl (List.suffix_cons t tokens)
  all_goals exact .of_silent rfl (List.suffix_cons t tokens)

theorem findings_inOrder (s : State) (tokens : List Token) :
    InOrder tokens (findings s tokens) [] := by
  fun_induction findings s tokens with
  | case1 => exact .of_silent rfl List.nil_suffix
  | case2 s t rest _ next ih => exact (step_inOrder s t rest).append ih

end TalAnalysis.Declaration
