import TalAnalysis.Proofs.Declaration.Extension.Window

namespace TalAnalysis.Declaration

def Finding.keys (found : List Finding) : List SymbolKey :=
  found.filterMap fun finding => finding.symbol?.map Symbol.key

/-- An item, or a list of items, with the tokens after it, against what is read when others come
`after` them. What is `found` in it may grow if it has come to the end. -/
def Extends {α β : Type} (found : α → List β) (after : List Token) (cut whole : α × List Token) :
    Prop :=
  whole = (cut.1, cut.2 ++ after) ∨ OnlyLayout cut.2 ∧ found cut.1 <+: found whole.1

variable {α β : Type} {found : α → List β} {tokens after : List Token}

theorem Extends.of_same {cut whole : α × List Token} (layout : OnlyLayout cut.2)
    (same : found cut.1 = found whole.1) : Extends found after cut whole :=
  .inr ⟨layout, same ▸ List.prefix_refl _⟩

theorem listEnd_of_onlyLayout (layout : OnlyLayout tokens) : listEnd tokens = .broken [] := by
  rw [listEnd, skipLayout_eq_nil_iff.2 layout]

theorem Extends.listEnd {cut whole : α × List Token} (h : Extends found after cut whole) :
    whole.1 = cut.1 ∧ listEnd whole.2 = (listEnd cut.2).append after ∨
      listEnd cut.2 = .broken [] ∧ found cut.1 <+: found whole.1 := by
  rcases h with rfl | ⟨layout, front⟩
  · rcases listEnd_append cut.2 after with ends | ⟨-, none⟩
    · exact .inl ⟨rfl, ends⟩
    · exact .inr ⟨none, List.prefix_refl _⟩
  · exact .inr ⟨listEnd_of_onlyLayout layout, front⟩

section Lists

variable {item : Token → List Token → α × List Token}
  {tail : ∀ name tokens, (item name tokens).2 <:+ tokens}

theorem items_of_name {name : Token} {rest : List Token} (stop : fromName tokens = name :: rest)
    (isName : name.kind.isName = true) :
    ∃ others, (namedItems item tail tokens).items = (item name rest).1 :: others := by
  rw [namedItems_name stop isName]
  split
  · exact ⟨_, rfl⟩
  · exact ⟨[], rfl⟩
  · exact ⟨[], rfl⟩

theorem namedItems_extends (steady : ∀ name tokens,
      Extends found after (item name tokens) (item name (tokens ++ after))) (tokens : List Token) :
    namedItems item tail (tokens ++ after) =
        { namedItems item tail tokens with rest := (namedItems item tail tokens).rest ++ after } ∨
      OnlyLayout (namedItems item tail tokens).rest ∧
        (namedItems item tail tokens).items.flatMap found <+:
          (namedItems item tail (tokens ++ after)).items.flatMap found := by
  fun_induction namedItems item tail tokens with
  | case1 tokens stop => exact .inr ⟨.nil, List.nil_prefix⟩
  | case2 tokens name rest stop isName _ rest' more ih =>
      rw [namedItems_name (dropWhile_append_of_cons stop after) isName]
      rcases (steady name rest).listEnd with ⟨same, ends⟩ | ⟨none, -⟩
      · rw [same, ends, more]
        rcases ih with whole | ⟨layout, front⟩
        · exact .inl (congrArg (Listing.cons (item name rest).1) whole)
        · refine .inr ⟨layout, ?_⟩
          exact (List.prefix_append_right_inj (found (item name rest).1)).2 front
      · rw [none] at more
        cases more
  | case3 tokens name rest stop isName _ rest' more =>
      rw [namedItems_name (dropWhile_append_of_cons stop after) isName]
      rcases (steady name rest).listEnd with ⟨same, ends⟩ | ⟨none, -⟩
      · rw [same, ends, more]
        exact .inl rfl
      · rw [none] at more
        cases more
  | case4 tokens name rest stop isName _ rest' more =>
      have stop' := dropWhile_append_of_cons stop after
      rcases (steady name rest).listEnd with ⟨same, ends⟩ | ⟨none, front⟩
      · rw [namedItems_name stop' isName, same, ends, more]
        exact .inl rfl
      · rw [none] at more
        cases more
        obtain ⟨others, items⟩ : ∃ others, (namedItems item tail (tokens ++ after)).items =
            (item name (rest ++ after)).1 :: others := items_of_name stop' isName
        refine .inr ⟨.nil, ?_⟩
        simp only [items, List.flatMap_cons, List.flatMap_nil, List.append_nil]
        exact front.trans (List.prefix_append _ _)
  | case5 tokens name rest stop isName =>
      have other : name.kind.isName = false := by simpa using isName
      rw [namedItems_semicolon (dropWhile_append_of_cons stop after) other]
      exact .inl rfl

end Lists

variable {context : String}

theorem literalItem_extends (context : String) (name : Token) (tokens after : List Token) :
    Extends (fun item => [(LiteralItem.symbol context item).key]) after (literalItem name tokens)
      (literalItem name (tokens ++ after)) := by
  cases stop : skipLayout tokens with
  | nil =>
      rw [literalItem, stop]
      exact .of_same .nil rfl
  | cons t rest =>
      have equal : skipEqual (t :: (rest ++ after)) = skipEqual (t :: rest) ++ after := by
        rw [skipEqual, skipEqual]
        split <;> rfl
      have stop' : skipLayout (tokens ++ after) = t :: (rest ++ after) :=
        dropWhile_append_of_cons stop after
      rw [literalItem, literalItem, stop, stop', equal]
      rcases value_extends 0 (skipEqual (t :: rest)) after with same | ⟨layout, front⟩
      · exact .inl (by rw [same])
      · exact .of_same layout rfl

theorem keys_defineItem (context : String) (item : DefineItem) :
    Finding.keys (item.findings context) =
      ⟨context, item.name.text, .none⟩ ::
        (item.parameters.filter fun t => t.kind.isName).map
          (fun t => ⟨context, item.name.text, .parameter t.text⟩) ++
        item.body?.toList.map fun _ => ⟨context, item.name.text, .body⟩ := by
  obtain ⟨name, parameters, body?, terminated⟩ := item
  cases body? <;> cases terminated <;>
    simp [DefineItem.findings, Finding.keys, Finding.symbol?, Symbol.declaredAt,
      List.filterMap_map, Function.comp_def]

theorem keys_defineItem_front {name : Token} {parameters parameters' : List Token}
    (front : parameters <+: parameters') (terminated : Bool) {item : DefineItem}
    (same : item.name = name ∧ item.parameters = parameters') :
    Finding.keys (DefineItem.findings context ⟨name, parameters, none, terminated⟩) <+:
      Finding.keys (item.findings context) := by
  obtain ⟨rfl, rfl⟩ := same
  obtain ⟨more, longer⟩ := front
  rw [keys_defineItem, keys_defineItem, ← longer, List.filter_append, List.map_append]
  simp

theorem defineItem_extends (context : String) (name : Token) (tokens after : List Token) :
    Extends (fun item => Finding.keys (DefineItem.findings context item)) after
      (defineItem name tokens) (defineItem name (tokens ++ after)) := by
  have parts := defineItem_parts name (tokens ++ after)
  rcases between_skipLayout_extends .lParen .rParen tokens after with same | ⟨layout, front⟩
  · have same : parenthesized (skipLayout (tokens ++ after)) =
        ⟨(parenthesized (skipLayout tokens)).inside,
          (parenthesized (skipLayout tokens)).rest ++ after⟩ := same
    cases stop : (parenthesized (skipLayout tokens)).rest.dropWhile fun t =>
        !(t.isDelimiter .equal || t.isDelimiter .semicolon) with
    | nil =>
        rw [defineItem_nil stop]
        rw [same] at parts
        exact .inr ⟨.nil, keys_defineItem_front (List.prefix_refl _) true parts⟩
    | cons t rest =>
        have stop' := dropWhile_append_of_cons stop after
        rw [defineItem_cons stop, defineItem_cons (by rw [same]; exact stop'), same]
        split
        · cases hash : rest.dropWhile fun t => !t.isDelimiter .hash with
          | nil =>
              refine .of_same .nil ?_
              rw [keys_defineItem, keys_defineItem]
              rfl
          | cons u left =>
              rw [dropWhile_append_of_cons hash, takeWhile_append_of_cons hash]
              exact .inl rfl
        · exact .inl rfl
  · have other (t : Token) (layout : t.kind.isLayout = true) :
        (t.isDelimiter .equal || t.isDelimiter .semicolon) = false := by
      rw [not_isDelimiter_of_isLayout layout, not_isDelimiter_of_isLayout layout, Bool.false_or]
    rw [defineItem_nil (layout.dropWhile_eq_nil other)]
    exact .inr ⟨.nil, keys_defineItem_front front true parts⟩

theorem initial?_extends (tokens after : List Token) :
    initial? (skipLayout (tokens ++ after)) =
        ((initial? (skipLayout tokens)).1, (initial? (skipLayout tokens)).2 ++ after) ∨
      OnlyLayout (initial? (skipLayout tokens)).2 := by
  cases stop : skipLayout tokens with
  | nil => exact .inr .nil
  | cons t rest =>
      have stop' : skipLayout (tokens ++ after) = t :: (rest ++ after) :=
        dropWhile_append_of_cons stop after
      rw [stop', initial?, initial?]
      split
      · rcases value_extends 0 rest after with same | ⟨layout, -⟩
        · exact .inl (by rw [same])
        · exact .inr layout
      · exact .inl rfl

theorem variableItem_extends (context : String) (d : DataType) (name : Token)
    (tokens after : List Token) :
    Extends (fun item => [(VariableItem.symbol context d item).key]) after
      (variableItem name tokens) (variableItem name (tokens ++ after)) := by
  -- The key is that of the name, so only the tokens that are left matter.
  have cut (layout : OnlyLayout (variableItem name tokens).2) :
      Extends (fun item => [(VariableItem.symbol context d item).key]) after
        (variableItem name tokens) (variableItem name (tokens ++ after)) := .of_same layout rfl
  let referral := between .lParen .rParen (skipLayout tokens)
  let bounds := between .lBracket .rBracket (skipLayout referral.rest)
  rcases between_skipLayout_extends .lParen .rParen tokens after with one | ⟨layout, -⟩
  · rcases between_skipLayout_extends .lBracket .rBracket referral.rest after with
      two | ⟨layout, -⟩
    · rcases initial?_extends bounds.rest after with three | layout
      · refine .inl ?_
        rw [variableItem, parenthesized, bracketed, one, two, three]
        rfl
      · exact cut layout
    · exact cut (layout.of_suffix ((initial?_suffix _).trans (skipLayout_suffix _)))
  · exact cut (layout.of_suffix ((initial?_suffix _).trans ((skipLayout_suffix _).trans
      ((bracketed_suffix _).trans (skipLayout_suffix _)))))

theorem skipPointers_skipLayout_append {t : Token} {rest : List Token}
    (stop : skipPointers (skipLayout tokens) = t :: rest) (after : List Token) :
    skipPointers (skipLayout (tokens ++ after)) = t :: (rest ++ after) := by
  cases first : skipLayout tokens with
  | nil => rw [first] at stop; cases stop
  | cons u others =>
      have first' : skipLayout (tokens ++ after) = u :: others ++ after :=
        dropWhile_append_of_cons first after
      rw [first] at stop
      rw [first']
      exact dropWhile_append_of_cons stop after

theorem items_of_variableName {name : Token} {rest : List Token}
    (stop : skipPointers (skipLayout tokens) = name :: rest) (isName : name.kind.isName = true) :
    ∃ others, (variableItems tokens).items = (variableItem name rest).1 :: others := by
  rw [variableItems_name stop isName]
  split
  · exact ⟨_, rfl⟩
  · exact ⟨[], rfl⟩
  · exact ⟨[], rfl⟩

theorem variableItems_extends (context : String) (d : DataType) (tokens after : List Token) :
    variableItems (tokens ++ after) =
        { variableItems tokens with rest := (variableItems tokens).rest ++ after } ∨
      OnlyLayout (variableItems tokens).rest ∧
        (variableItems tokens).items.map (fun item => (item.symbol context d).key) <+:
          (variableItems (tokens ++ after)).items.map fun item => (item.symbol context d).key := by
  fun_induction variableItems tokens with
  | case1 tokens stop => exact .inr ⟨.nil, List.nil_prefix⟩
  | case2 tokens name rest stop isName item rest' more _ _ ih =>
      rw [variableItems_name (skipPointers_skipLayout_append stop after) isName]
      rcases (variableItem_extends context d name rest after).listEnd with ⟨same, ends⟩ | ⟨none, -⟩
      · rw [same, ends, more]
        rcases ih with whole | ⟨layout, front⟩
        · exact .inl (by simp only [ListEnd.append, whole]; rfl)
        · exact .inr ⟨layout, (List.prefix_cons_inj _).2 front⟩
      · rw [none] at more
        cases more
  | case3 tokens name rest stop isName item rest' more =>
      rw [variableItems_name (skipPointers_skipLayout_append stop after) isName]
      rcases (variableItem_extends context d name rest after).listEnd with ⟨same, ends⟩ | ⟨none, -⟩
      · rw [same, ends, more]
        exact .inl rfl
      · rw [none] at more
        cases more
  | case4 tokens name rest stop isName item rest' more =>
      have stop' := skipPointers_skipLayout_append stop after
      rcases (variableItem_extends context d name rest after).listEnd with
        ⟨same, ends⟩ | ⟨none, front⟩
      · rw [variableItems_name stop' isName, same, ends, more]
        exact .inl rfl
      · rw [none] at more
        cases more
        obtain ⟨others, items⟩ := items_of_variableName stop' isName
        refine .inr ⟨.nil, ?_⟩
        rw [items, List.map_cons]
        exact front.trans (List.prefix_append _ _)
  | case5 tokens t rest stop isName =>
      have other : t.kind.isName = false := by simpa using isName
      rw [variableItems_missing (skipPointers_skipLayout_append stop after) other]
      rcases pastSemicolon_append (t :: rest) after with same | none
      · rw [List.cons_append] at same
        exact .inl (by rw [same])
      · exact .inr ⟨none ▸ .nil, List.nil_prefix⟩

theorem targetItem_extends (context : String) (t : Token) (tokens after : List Token) :
    Extends (fun item => (DirectiveItem.symbols context item).map Symbol.key) after
      (targetItem t tokens) (targetItem t (tokens ++ after)) := by
  cases tokens with
  | nil =>
      cases after with
      | nil => exact .inl rfl
      | cons next rest =>
          refine .of_same .nil ?_
          simp only [targetItem, List.nil_append]
          split <;> rfl
  | cons next rest =>
      simp only [targetItem, List.cons_append]
      split
      · exact .inl rfl
      · exact .inl rfl

theorem argumentItem_extends (context : String) (t : Token) (name : String) (wholeLine : Bool)
    (tokens after : List Token) :
    Extends (fun item => (DirectiveItem.symbols context item).map Symbol.key) after
      (argumentItem t name wholeLine tokens) (argumentItem t name wholeLine (tokens ++ after)) := by
  rcases argument_extends wholeLine 0 tokens after with same | ⟨layout, -⟩
  · rw [argumentItem, argumentItem, same]
    exact .inl rfl
  · exact .of_same layout rfl

theorem keys_directiveItem (context : String) (item : DirectiveItem) :
    (item.symbols context).map Symbol.key = ⟨context, item.name, .none⟩ ::
      item.sections.map fun t => ⟨item.file, t.text, .none⟩ := by
  simp [DirectiveItem.symbols, Symbol.declaredAt, Function.comp_def]

theorem sourceItem_extends (context : String) (t : Token) (tokens after : List Token) :
    Extends (fun item => (DirectiveItem.symbols context item).map Symbol.key) after
      (sourceItem t tokens) (sourceItem t (tokens ++ after)) := by
  cases stop : tokens.dropWhile fun t => !endsFile t with
  | nil =>
      -- The text of the file may go on, but no section has been named.
      have cut : (sourceItem t tokens).2 = [] ∧ (sourceItem t tokens).1.sections = [] := by
        simp [sourceItem, stop, opensWith]
      refine .inr ⟨cut.1 ▸ .nil, ?_⟩
      simp only [keys_directiveItem, cut.2]
      exact (List.prefix_cons_inj _).2 List.nil_prefix
  | cons u rest =>
      have stop' := dropWhile_append_of_cons stop after
      have file := takeWhile_append_of_cons stop after
      have opens : opensWith (u :: (rest ++ after)) .lParen = opensWith (u :: rest) .lParen := rfl
      cases listed : opensWith (u :: rest) .lParen with
      | true =>
          simp only [sourceItem, stop, stop', file, opens, listed, if_true, List.tail_cons]
          rcases sections_extends 0 rest after with same | ⟨layout, front⟩
          · exact .inl (by rw [same])
          · refine .inr ⟨layout, ?_⟩
            simp only [keys_directiveItem]
            exact (List.prefix_cons_inj _).2 (front.map _)
      | false =>
          simp only [sourceItem, stop, stop', file, opens, listed]
          exact .inl rfl

theorem directiveItem_extends (context : String) (t : Token) (tokens after : List Token) :
    Extends (fun item => (DirectiveItem.symbols context item).map Symbol.key) after
      (directiveItem t tokens) (directiveItem t (tokens ++ after)) := by
  unfold directiveItem
  split
  · exact sourceItem_extends context t tokens after
  · exact targetItem_extends context t tokens after
  · split
    · exact .inl rfl
    · exact argumentItem_extends context t _ _ tokens after
  · exact argumentItem_extends context t t.text false tokens after

theorem directiveLine_of_onlyLayout (layout : OnlyLayout tokens) :
    (directiveLine tokens).1 = [] := by
  induction tokens with
  | nil => rw [directiveLine]
  | cons t tokens ih =>
      have noWord := not_isWord_of_isLayout (layout t List.mem_cons_self)
      rw [directiveLine]
      split
      · rfl
      · rw [if_neg (by simp [noWord])]
        exact ih (layout.of_suffix (List.suffix_cons t tokens))

theorem directiveLine_extends (context : String) (tokens after : List Token) :
    Extends (fun items => items.flatMap fun item => (DirectiveItem.symbols context item).map
      Symbol.key) after (directiveLine tokens) (directiveLine (tokens ++ after)) := by
  fun_induction directiveLine tokens with
  | case1 => exact .inr ⟨.nil, List.nil_prefix⟩
  | case2 t rest ends =>
      rw [List.cons_append, directiveLine, if_pos ends]
      exact .inl rfl
  | case3 t rest ends word _ others ih =>
      rw [List.cons_append, directiveLine, if_neg ends, if_pos word]
      rcases directiveItem_extends context t rest after with same | ⟨layout, front⟩
      · rw [same]
        rcases ih with whole | ⟨layout, front⟩
        · exact .inl (by simp only [whole]; rfl)
        · exact .inr ⟨layout, (List.prefix_append_right_inj _).2 front⟩
      · refine .inr ⟨layout.of_suffix (directiveLine_suffix _), ?_⟩
        have none : others.1 = [] := directiveLine_of_onlyLayout layout
        simp only [none, List.flatMap_cons, List.flatMap_nil, List.append_nil]
        exact front.trans (List.prefix_append _ _)
  | case4 t rest ends word ih =>
      rw [List.cons_append, directiveLine, if_neg ends, if_neg word]
      exact ih

end TalAnalysis.Declaration
