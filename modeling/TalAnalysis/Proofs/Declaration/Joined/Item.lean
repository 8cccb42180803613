import TalAnalysis.Proofs.Declaration.Joined.Window
import TalAnalysis.Proofs.Declaration.Template

namespace TalAnalysis.Declaration
open Token

variable {plain joined further : List Token} {first t : Token}

/-! ## Names -/

theorem joins_name {name : Token} {rest : List Token} (h : Joins plain (name :: rest))
    (isName : name.kind.isName = true) :
    ∃ first after, plain = first :: after ∧ first.kind.isName = true ∧
      first.text = firstWord name.text := by
  cases h with
  | same single others =>
      have single := isSingle_of_not_isJoined isName single
      exact ⟨name, _, rfl, isName, (firstWord_of_not_spaced single.2).symm⟩
  | joined h others => exact ⟨_, _, rfl, h.single.1, h.firstWord.symm⟩

structure Listing.Joins {α : Type} (R : α → α → Prop) (plain joined : Listing α) : Prop where
  items : List.Forall₂ R plain.items joined.items
  closed : plain.closed = joined.closed
  rest : Token.Joins plain.rest joined.rest

theorem fromName_joins (h : Joins plain joined) : Joins (fromName plain) (fromName joined) :=
  h.dropWhile fun t isName => by rw [isName]; rfl

theorem fromName_name {name : Token} {rest : List Token} (h : Joins plain joined)
    (found : fromName joined = name :: rest) (isName : name.kind.isName = true) :
    ∃ first after, fromName plain = first :: after ∧ first.kind.isName = true ∧
      Joins (first :: after) (name :: rest) := by
  have front := fromName_joins h
  rw [found] at front
  obtain ⟨first, after, found', isName', -⟩ := joins_name front isName
  exact ⟨first, after, found', isName', found' ▸ front⟩

/-- The places where a list reads its items: each name, with the tokens after it. -/
def itemPlaces {α : Type} (item : Token → List Token → α × List Token)
    (tail : ∀ name tokens, (item name tokens).2 <:+ tokens) (tokens : List Token) :
    List (Token × List Token) :=
  (namedItems (fun name rest => ((name, rest), (item name rest).2)) tail tokens).items

theorem itemPlaces_name {α : Type} {item : Token → List Token → α × List Token}
    {tail : ∀ name tokens, (item name tokens).2 <:+ tokens} {tokens rest : List Token}
    {name : Token} (found : fromName tokens = name :: rest) (isName : name.kind.isName = true) :
    itemPlaces item tail tokens =
      (name, rest) ::
        match listEnd (item name rest).2 with
        | .another rest' => itemPlaces item tail rest'
        | _ => [] := by
  rw [itemPlaces, namedItems_name found isName]
  cases listEnd (item name rest).2 <;> rfl

theorem namedItems_joins {α : Type} {item : Token → List Token → α × List Token}
    {tail : ∀ name tokens, (item name tokens).2 <:+ tokens} {R : α → α → Prop}
    (Stands : Token → List Token → Prop)
    (reads : ∀ {name name' rest rest'}, Joins (name :: rest) (name' :: rest') →
      name'.kind.isName = true → Stands name' rest' →
        R (item name rest).1 (item name' rest').1 ∧
          Joins (item name rest).2 (item name' rest').2)
    (h : Joins plain joined) (stands : ∀ x ∈ itemPlaces item tail joined, Stands x.1 x.2) :
    (namedItems item tail plain).Joins R (namedItems item tail joined) := by
  fun_induction namedItems item tail joined generalizing plain with
  | case1 joined none =>
      have front := fromName_joins h
      rw [none] at front
      cases found : fromName plain with
      | nil =>
          rw [namedItems]
          split
          · exact ⟨.nil, rfl, .nil⟩
          · simp_all
      | cons => rw [found] at front; cases front
  | case2 joined name rest found isName _ rest' more ih =>
      obtain ⟨first, after, found', isName', front⟩ := fromName_name h found isName
      rw [itemPlaces_name found isName, more, List.forall_mem_cons] at stands
      obtain ⟨here, later⟩ := stands
      obtain ⟨same, left⟩ := reads front isName here
      obtain ⟨after', more', others⟩ := (more ▸ listEnd_joins left).of_another
      have others := ih others later
      rw [namedItems_name found' isName', more']
      exact ⟨.cons same others.items, others.closed, others.rest⟩
  | case3 joined name rest found isName _ rest' more =>
      obtain ⟨first, after, found', isName', front⟩ := fromName_name h found isName
      rw [itemPlaces_name found isName, more] at stands
      obtain ⟨same, left⟩ := reads front isName (stands _ List.mem_cons_self)
      obtain ⟨after', more', others⟩ := (more ▸ listEnd_joins left).of_closed
      rw [namedItems_name found' isName', more']
      exact ⟨.cons same .nil, rfl, others⟩
  | case4 joined name rest found isName _ rest' more =>
      obtain ⟨first, after, found', isName', front⟩ := fromName_name h found isName
      rw [itemPlaces_name found isName, more] at stands
      obtain ⟨same, left⟩ := reads front isName (stands _ List.mem_cons_self)
      obtain ⟨after', more', others⟩ := (more ▸ listEnd_joins left).of_broken
      rw [namedItems_name found' isName', more']
      exact ⟨.cons same .nil, rfl, others⟩
  | case5 joined t rest found other =>
      have front := fromName_joins h
      rw [found] at front
      have other : t.kind.isName = false := by simpa using other
      cases found' : fromName plain with
      | nil => rw [found'] at front; cases front
      | cons u rest' =>
          rw [found'] at front
          cases front with
          | same single others =>
              rw [namedItems_semicolon found' other]
              exact ⟨.nil, rfl, others⟩
          | joined h => rw [h.isName] at other; cases other

/-! ## LITERAL -/

theorem value_skip (tokens : List Token) :
    (value 0 (skipEqual (skipLayout tokens))).rest = (value 0 tokens).rest := by
  induction tokens with
  | nil => rfl
  | cons t tokens ih =>
      cases layout : t.kind.isLayout with
      | true =>
          have passed : skipLayout (t :: tokens) = skipLayout tokens :=
            List.dropWhile_cons_of_pos layout
          rw [passed, ih, value]
          simp [depthAfter, not_isDelimiter_of_isLayout layout, Window.cons]
      | false =>
          have stays : skipLayout (t :: tokens) = t :: tokens :=
            List.dropWhile_cons_of_neg (by simp [layout])
          rw [stays, skipEqual]
          split
          · rename_i equal
            rw [value]
            simp [depthAfter, isDelimiter_eq_false (e := .comma) (by decide) equal,
              isDelimiter_eq_false (e := .semicolon) (by decide) equal,
              isDelimiter_eq_false (e := .lParen) (by decide) equal,
              isDelimiter_eq_false (e := .rParen) (by decide) equal,
              isDelimiter_eq_false (e := .lBracket) (by decide) equal,
              isDelimiter_eq_false (e := .rBracket) (by decide) equal, Window.cons]
          · rfl

def LiteralItem.Joins (plain joined : LiteralItem) : Prop :=
  plain.name.text = firstWord joined.name.text

theorem literalItem_joins {name name' : Token} {rest rest' : List Token}
    (h : Joins (name :: rest) (name' :: rest')) (isName : name'.kind.isName = true) :
    (literalItem name rest).1.Joins (literalItem name' rest').1 ∧
      Joins (literalItem name rest).2 (literalItem name' rest').2 := by
  obtain ⟨_, _, same, -, word⟩ := joins_name h isName
  obtain ⟨rfl, -⟩ := List.cons.inj same
  refine ⟨word, ?_⟩
  simp only [literalItem, value_skip]
  cases h with
  | same single others => exact value_joins others 0
  | joined h others =>
      rw [value_names (List.forall_mem_cons.1 h.names).2]
      exact value_joins others 0

theorem literals_joins (h : Joins plain joined) :
    (literals plain).Joins LiteralItem.Joins (literals joined) :=
  namedItems_joins (fun _ _ => True) (fun h isName _ => literalItem_joins h isName) h
    fun _ _ => trivial

/-! ## DEFINE -/

def endsParameters (t : Token) : Bool := t.isDelimiter .equal || t.isDelimiter .semicolon

theorem defineItem_rest_joins {name name' : Token} {tokens tokens' : List Token}
    (h : Joins ((parenthesized (skipLayout tokens)).rest.dropWhile fun t => !endsParameters t)
      ((parenthesized (skipLayout tokens')).rest.dropWhile fun t => !endsParameters t)) :
    Joins (defineItem name tokens).2 (defineItem name' tokens').2 := by
  cases found : (parenthesized (skipLayout tokens)).rest.dropWhile fun t => !endsParameters t with
  | nil =>
      cases found' : (parenthesized (skipLayout tokens')).rest.dropWhile
          fun t => !endsParameters t with
      | nil =>
          rw [defineItem_nil found, defineItem_nil found']
          exact .nil
      | cons => rw [found, found'] at h; cases h
  | cons t rest =>
      cases found' : (parenthesized (skipLayout tokens')).rest.dropWhile
          fun t => !endsParameters t with
      | nil => rw [found, found'] at h; cases h
      | cons t' rest' =>
          rw [found, found'] at h
          rw [defineItem_cons found, defineItem_cons found']
          cases h with
          | same single others =>
              split
              · exact pastDelimiter_joins others .hash
              · exact .same single others
          | joined h others =>
              simp only [not_isDelimiter_of_isName h.single.1, not_isDelimiter_of_isName h.isName,
                Bool.false_eq_true, if_false]
              exact .joined h others

def DefineItem.Joins (plain joined : DefineItem) : Prop :=
  plain.name.text = firstWord joined.name.text

/-- After a joined name, the definition ends where it would if its parentheses were not read as
those of its parameters, which a further word before them keeps them from. -/
def DefinitionStands (name : Token) (rest : List Token) : Prop :=
  name.isJoined = true → (defineItem name (name :: rest)).2 = (defineItem name rest).2

instance (name : Token) (rest : List Token) : Decidable (DefinitionStands name rest) :=
  inferInstanceAs (Decidable (_ → _))

theorem endsParameters_of_isName (isName : t.kind.isName = true) :
    (!endsParameters t) = true := by
  simp [endsParameters, not_isDelimiter_of_isName isName]

theorem afterParameters_names (names : ∀ u ∈ further, u.kind.isName = true) (several : further ≠ [])
    (rest : List Token) :
    (parenthesized (skipLayout (further ++ rest))).rest.dropWhile (fun t => !endsParameters t) =
      rest.dropWhile fun t => !endsParameters t := by
  obtain ⟨u, others, rfl⟩ := List.exists_cons_of_ne_nil several
  have isName := names u List.mem_cons_self
  have stays : skipLayout (u :: others ++ rest) = u :: others ++ rest :=
    List.dropWhile_cons_of_neg (by simp [name_not_isLayout ⟨u, isName⟩])
  have window : parenthesized (u :: others ++ rest) = ⟨[], u :: others ++ rest⟩ :=
    between_of_other (not_isDelimiter_of_isName isName .lParen) .rParen _
  rw [stays, window, List.dropWhile_append_of_pos]
  exact fun t member => endsParameters_of_isName (names t member)

theorem defineItem_joins {name name' : Token} {rest rest' : List Token}
    (h : Joins (name :: rest) (name' :: rest')) (isName : name'.kind.isName = true)
    (stands : DefinitionStands name' rest') :
    (defineItem name rest).1.Joins (defineItem name' rest').1 ∧
      Joins (defineItem name rest).2 (defineItem name' rest').2 := by
  obtain ⟨_, _, same, -, word⟩ := joins_name h isName
  obtain ⟨rfl, -⟩ := List.cons.inj same
  refine ⟨?_, ?_⟩
  · rw [DefineItem.Joins, (defineItem_parts name rest).1, (defineItem_parts name' rest').1, word]
  · cases h with
    | same single others =>
        exact defineItem_rest_joins <|
          (between_joins (skipLayout_joins others) .lParen .rParen).rest.dropWhile
            fun t => endsParameters_of_isName
    | @joined _ further _ plain _ h others =>
        have names (u : Token) (member : u ∈ further) : u.kind.isName = true :=
          (h.names u (List.mem_cons_of_mem _ member)).1
        have one : ∀ u ∈ [name'], u.kind.isName = true := by simpa using isName
        have after' := afterParameters_names one (List.cons_ne_nil _ _) rest'
        rw [List.singleton_append] at after'
        rw [← stands h.isJoined]
        refine defineItem_rest_joins ?_
        rw [afterParameters_names names h.several, after']
        exact others.dropWhile fun t => endsParameters_of_isName

theorem defines_joins (h : Joins plain joined)
    (stands : ∀ x ∈ itemPlaces defineItem defineItem_suffix joined, DefinitionStands x.1 x.2) :
    (defines plain).Joins DefineItem.Joins (defines joined) :=
  namedItems_joins DefinitionStands (fun h isName stands => defineItem_joins h isName stands) h
    stands

/-! ## Variables -/

theorem initial?_name (isName : t.kind.isName = true) (rest : List Token) :
    initial? (t :: rest) = (none, t :: rest) := by
  have noAssign : t.kind ≠ .operator .assign := by
    intro assign
    rw [assign] at isName
    cases isName
  simp only [initial?, noAssign, not_isDelimiter_of_isName isName, Bool.false_eq_true, or_self,
    if_false]

theorem initial?_joins (h : Joins plain joined) :
    Joins (initial? plain).2 (initial? joined).2 := by
  cases h with
  | nil => exact .nil
  | same single others =>
      rw [initial?, initial?]
      split
      · exact value_joins others 0
      · exact .same single others
  | joined h others =>
      rw [initial?_name h.single.1, initial?_name h.isName]
      exact .joined h others

theorem variableItem_joins (h : Joins plain joined) (name name' : Token) :
    Joins (variableItem name plain).2 (variableItem name' joined).2 :=
  initial?_joins (skipLayout_joins (between_joins (skipLayout_joins
    (between_joins (skipLayout_joins h) .lParen .rParen).rest) .lBracket .rBracket).rest)

theorem variableItem_names (name : Token) (names : ∀ u ∈ further, u.IsSingle)
    (several : further ≠ []) (rest : List Token) :
    variableItem name (further ++ rest) = (⟨name, none⟩, further ++ rest) := by
  have layout := skipLayout_names names several rest
  have referral : parenthesized (further ++ rest) = ⟨[], further ++ rest⟩ :=
    between_names names several .lParen .rParen rest
  have bounds : bracketed (further ++ rest) = ⟨[], further ++ rest⟩ :=
    between_names names several .lBracket .rBracket rest
  have initial : initial? (further ++ rest) = (none, further ++ rest) := by
    obtain ⟨u, others, rfl⟩ := List.exists_cons_of_ne_nil several
    exact initial?_name (names u List.mem_cons_self).1 _
  simp only [variableItem, layout, referral, bounds, initial]

theorem variableFront_joins (h : Joins plain joined) :
    Joins (skipPointers (skipLayout plain)) (skipPointers (skipLayout joined)) :=
  skipPointers_joins (skipLayout_joins h)

theorem variableFront_single {rest : List Token} {name : Token} (h : Joins plain joined)
    (found : skipPointers (skipLayout joined) = name :: rest) (single : name.isJoined = false) :
    ∃ rest', skipPointers (skipLayout plain) = name :: rest' ∧ Joins rest' rest := by
  have front := variableFront_joins h
  rw [found] at front
  generalize skipPointers (skipLayout plain) = plain at front ⊢
  cases front with
  | same _ others => exact ⟨_, rfl, others⟩
  | joined h => rw [h.isJoined] at single; cases single

/-- The tokens after the first joined name of a list of variables. -/
def afterJoined? (tokens : List Token) : Option (List Token) :=
  match _found : skipPointers (skipLayout tokens) with
  | [] => none
  | name :: rest =>
    if name.isJoined then some rest
    else if name.kind.isName then
      match _more : listEnd (variableItem name rest).2 with
      | .another rest' => afterJoined? rest'
      | _ => none
    else none
termination_by tokens.length
decreasing_by
  have shorter := length_of_another _more
  have left := (variableItem_suffix name rest).length_le
  have whole := ((skipPointers_suffix _).trans (skipLayout_suffix tokens)).length_le
  simp only [_found, List.length_cons] at whole
  omega

theorem afterJoined?_joined {tokens rest : List Token} {name : Token}
    (found : skipPointers (skipLayout tokens) = name :: rest) (several : name.isJoined = true) :
    afterJoined? tokens = some rest := by
  rw [afterJoined?]
  split <;> simp_all

theorem afterJoined?_name {tokens rest : List Token} {name : Token}
    (found : skipPointers (skipLayout tokens) = name :: rest) (isName : name.kind.isName = true)
    (single : name.isJoined = false) :
    afterJoined? tokens =
      match listEnd (variableItem name rest).2 with
      | .another rest' => afterJoined? rest'
      | _ => none := by
  rw [afterJoined?]
  split
  · simp_all
  · rename_i name' rest' found'
    obtain ⟨rfl, rfl⟩ := List.cons.inj (found.symm.trans found')
    rw [if_neg (by simp [single]), if_pos isName]
    split <;> simp_all

theorem afterJoined?_missing {tokens rest : List Token} {t : Token}
    (found : skipPointers (skipLayout tokens) = t :: rest) (other : t.kind.isName = false) :
    afterJoined? tokens = none := by
  rw [afterJoined?]
  split <;> simp_all [isJoined]

theorem variableItems_joins (h : Joins plain joined) (whole : afterJoined? joined = none) :
    (variableItems plain).toListing.Joins (fun x y => x.name = y.name)
      (variableItems joined).toListing := by
  have first {joined rest : List Token} {name : Token}
      (found : skipPointers (skipLayout joined) = name :: rest)
      (whole : afterJoined? joined = none) : name.isJoined = false :=
    Bool.eq_false_iff.2 fun several => by simp [afterJoined?_joined found several] at whole
  induction joined using variableItems.induct generalizing plain with
  | case1 joined none =>
      have front := variableFront_joins h
      rw [none] at front
      cases found : skipPointers (skipLayout plain) with
      | nil =>
          rw [variableItems_nil found, variableItems_nil none]
          exact ⟨.nil, rfl, .nil⟩
      | cons => rw [found] at front; cases front
  | case2 joined name rest found isName rest' more ih =>
      have single := first found whole
      rw [afterJoined?_name found isName single, more] at whole
      obtain ⟨after, found', others⟩ := variableFront_single h found single
      obtain ⟨after', more', left⟩ :=
        (more ▸ listEnd_joins (variableItem_joins others name name)).of_another
      have others := ih left whole
      rw [variableItems_name found' isName, more', variableItems_name found isName, more]
      exact ⟨.cons rfl others.items, others.closed, others.rest⟩
  | case3 joined name rest found isName rest' more =>
      obtain ⟨after, found', others⟩ := variableFront_single h found (first found whole)
      obtain ⟨after', more', left⟩ :=
        (more ▸ listEnd_joins (variableItem_joins others name name)).of_closed
      rw [variableItems_name found' isName, more', variableItems_name found isName, more]
      exact ⟨.cons rfl .nil, rfl, left⟩
  | case4 joined name rest found isName rest' more =>
      obtain ⟨after, found', others⟩ := variableFront_single h found (first found whole)
      obtain ⟨after', more', left⟩ :=
        (more ▸ listEnd_joins (variableItem_joins others name name)).of_broken
      rw [variableItems_name found' isName, more', variableItems_name found isName, more]
      exact ⟨.cons rfl .nil, rfl, left⟩
  | case5 joined t rest found other =>
      have other : t.kind.isName = false := by simpa using other
      have notJoined : t.isJoined = false := by rw [isJoined, other, Bool.false_and]
      obtain ⟨after, found', others⟩ := variableFront_single h found notJoined
      rw [variableItems_missing found' other, variableItems_missing found other]
      exact ⟨.nil, rfl, pastSemicolon_joins (.same notJoined others)⟩

/-- Without joined names, a list is read up to the first word of its first joined name, which is all
that is declared of it, and `further` words and the `others` are left. -/
structure Variables.Breaks (plain joined : Variables) (further others : List Token) : Prop where
  closed : plain.closed = false
  names : ∀ x ∈ plain.items, ∃ y ∈ joined.items, x.name.text = firstWord y.name.text
  left : plain.rest = further ++ others
  single : ∀ u ∈ further, u.IsSingle
  several : further ≠ []

theorem variableItems_own {tokens rest : List Token} {name : Token}
    (found : skipPointers (skipLayout tokens) = name :: rest) (isName : name.kind.isName = true) :
    (variableItem name rest).1 ∈ (variableItems tokens).items := by
  rw [variableItems_name found isName]
  split <;> exact List.mem_cons_self

theorem breaks_at_name {name : Token} {rest : List Token} (h : Joins plain joined)
    (found : skipPointers (skipLayout joined) = name :: rest) (several : name.isJoined = true) :
    ∃ further others, (variableItems plain).Breaks (variableItems joined) further others ∧
      Joins others rest := by
  have front := variableFront_joins h
  rw [found] at front
  cases found' : skipPointers (skipLayout plain) with
  | nil => rw [found'] at front; cases front
  | cons word after =>
      rw [found'] at front
      cases front with
      | same single => rw [several] at single; cases single
      | @joined _ further _ others _ h joins =>
          have names := (List.forall_mem_cons.1 h.names).2
          rw [variableItems_name found' h.single.1, variableItem_names word names h.several others,
            listEnd_names names h.several]
          refine ⟨further, others, ⟨rfl, fun x member => ?_, rfl, names, h.several⟩, joins⟩
          obtain rfl := List.mem_singleton.1 member
          exact ⟨_, variableItems_own found h.isName, h.firstWord.symm⟩

theorem variableItems_breaks {rest : List Token} (h : Joins plain joined)
    (several : afterJoined? joined = some rest) :
    ∃ further others, (variableItems plain).Breaks (variableItems joined) further others ∧
      Joins others rest := by
  induction joined using variableItems.induct generalizing plain with
  | case1 joined none =>
      rw [afterJoined?] at several
      split at several <;> simp_all
  | case2 joined name tokens found isName rest' more ih =>
      cases here : name.isJoined with
      | true =>
          obtain rfl := Option.some.inj ((afterJoined?_joined found here).symm.trans several)
          exact breaks_at_name h found here
      | false =>
          rw [afterJoined?_name found isName here, more] at several
          obtain ⟨after, found', joins⟩ := variableFront_single h found here
          obtain ⟨after', more', joins⟩ :=
            (more ▸ listEnd_joins (variableItem_joins joins name name)).of_another
          obtain ⟨further, others, breaks, left⟩ := ih joins several
          refine ⟨further, others, ?_, left⟩
          rw [variableItems_name found' isName, more', variableItems_name found isName, more]
          refine { breaks with names := ?_ }
          rintro x (_ | ⟨_, member⟩)
          · have single := isSingle_of_not_isJoined isName here
            exact ⟨_, List.mem_cons_self, (firstWord_of_not_spaced single.2).symm⟩
          · obtain ⟨y, listed, same⟩ := breaks.names x member
            exact ⟨y, List.mem_cons_of_mem _ listed, same⟩
  | case3 joined name tokens found isName rest' more
  | case4 joined name tokens found isName rest' more =>
      cases here : name.isJoined with
      | true =>
          obtain rfl := Option.some.inj ((afterJoined?_joined found here).symm.trans several)
          exact breaks_at_name h found here
      | false => simp [afterJoined?_name found isName here, more] at several
  | case5 joined t tokens found other =>
      simp [afterJoined?_missing found (by simpa using other)] at several

/-! ## Headers -/

theorem opensProcedure_of_isName (isName : t.kind.isName = true) : opensProcedure t = false := by
  obtain ⟨name, kind⟩ := kind_of_isName isName
  rw [opensProcedure, isKeyword, isKeyword, kind]
  rfl

theorem procedureFollows_joins (h : Joins plain joined) :
    procedureFollows plain = procedureFollows joined := by
  have front := skipLayout_joins h
  have past := skipLayout_joins (pastDelimiter_joins front .rParen)
  simp only [procedureFollows, opensWith_joins front]
  split
  · rw [past.map_head? fun t isName => opensProcedure_of_isName isName]
  · rw [front.map_head? fun t isName => opensProcedure_of_isName isName]

theorem skipQualifier_joins (h : Joins plain joined) :
    Joins (skipQualifier plain) (skipQualifier joined) :=
  skipLayout_joins (between_joins (skipLayout_joins h) .lParen .rParen).rest

theorem parameterNames_joins (h : Joins plain joined) (depth : Nat) :
    Joins (parameterNames depth plain) (parameterNames depth joined) := by
  have names {further : List Token} (single : ∀ u ∈ further, u.IsSingle) (depth : Nat)
      (rest : List Token) : parameterNames depth (further ++ rest) =
        (if depth = 0 then further else []) ++ parameterNames depth rest := by
    induction further with
    | nil => split <;> rfl
    | cons u further ih =>
        obtain ⟨here, later⟩ := List.forall_mem_cons.1 single
        rw [List.cons_append, parameterNames]
        simp only [not_isDelimiter_of_isName here.1, Bool.false_eq_true, if_false, here.1,
          and_true, ih later]
        split <;> rfl
  induction h generalizing depth with
  | nil => exact .nil
  | @same t plain joined single others ih =>
      simp only [parameterNames]
      generalize (if t.isDelimiter .lParen = true then depth + 1
        else if t.isDelimiter .rParen = true then depth - 1 else depth) = depth
      split
      · exact .same single (ih depth)
      · exact ih depth
  | @joined first further t plain joined h others ih =>
      rw [← List.cons_append, names h.names, parameterNames]
      simp only [not_isDelimiter_of_isName h.isName, Bool.false_eq_true, if_false, h.isName,
        and_true]
      split
      · exact .joined h (ih depth)
      · exact ih depth

theorem bodyFollows_joins (h : Joins plain joined) : bodyFollows plain = bodyFollows joined := by
  have noBegin (t : Token) (isName : t.kind.isName = true) : t.isKeyword .begin = false := by
    obtain ⟨name, kind⟩ := kind_of_isName isName
    rw [isKeyword, kind]
    rfl
  rw [bodyFollows, bodyFollows, (skipLayout_joins h).map_head? noBegin]

inductive HeaderName : Option Token → Option Token → Prop
  | none : HeaderName none none
  | some {name name' : Token} (word : name.text = firstWord name'.text) :
      HeaderName (some name) (some name')

theorem structureHeader_joins (h : Joins plain joined) :
    HeaderName (structureHeader plain).name? (structureHeader joined).name? ∧
      Joins (structureHeader plain).rest (structureHeader joined).rest := by
  rw [structureHeader_rest, structureHeader_rest]
  refine ⟨?_, pastSemicolon_joins h⟩
  have front := variableFront_joins h
  rw [structureHeader, structureHeader]
  generalize skipPointers (skipLayout plain) = plain at front ⊢
  generalize skipPointers (skipLayout joined) = joined at front ⊢
  cases front with
  | nil => exact .none
  | @same t _ _ single others =>
      cases isName : t.kind.isName with
      | true =>
          have single := isSingle_of_not_isJoined isName single
          simp only [isName, if_true]
          exact .some (firstWord_of_not_spaced single.2).symm
      | false =>
          simp only [isName, Bool.false_eq_true, if_false]
          exact .none
  | joined h others =>
      simp only [h.single.1, h.isName, if_true]
      exact .some h.firstWord.symm

/-- After a joined name, the header ends with its first semicolon. -/
def HeaderStands (tokens : List Token) : Prop :=
  ∀ name ∈ (procedureHeader tokens).name?, name.isJoined = true →
    (procedureHeader tokens).rest = pastSemicolon tokens

instance (tokens : List Token) : Decidable (HeaderStands tokens) :=
  inferInstanceAs (Decidable (∀ name ∈ (procedureHeader tokens).name?, _ → _))

structure ProcedureHeader.Joins (plain joined : ProcedureHeader) : Prop where
  name : HeaderName plain.name? joined.name?
  parameters : Token.Joins plain.parameters joined.parameters ∨
    plain.parameters = [] ∧ ∃ name ∈ joined.name?, name.isJoined = true
  rest : Token.Joins plain.rest joined.rest

theorem procedureHeader_joins (h : Joins plain joined) (stands : HeaderStands joined) :
    (procedureHeader plain).Joins (procedureHeader joined) := by
  have front := skipLayout_joins h
  rw [HeaderStands, ← pastSemicolon_skipLayout joined, procedureHeader] at stands
  rw [procedureHeader, procedureHeader]
  generalize skipLayout plain = plain at front ⊢
  generalize skipLayout joined = joined at front stands ⊢
  cases front with
  | nil => exact ⟨.none, .inl .nil, .nil⟩
  | @same t _ _ single others =>
      cases isName : t.kind.isName with
      | true =>
          have isSingle := isSingle_of_not_isJoined isName single
          have window := between_joins (skipLayout_joins others) .lParen .rParen
          simp only [isName, if_true]
          exact ⟨.some (firstWord_of_not_spaced isSingle.2).symm, .inl window.inside,
            pastSemicolon_joins window.rest⟩
      | false =>
          simp only [isName, Bool.false_eq_true, if_false]
          exact ⟨.none, .inl .nil, pastSemicolon_joins (.same single others)⟩
  | @joined _ further t plain joined h others =>
      have names := (List.forall_mem_cons.1 h.names).2
      have window : parenthesized (further ++ plain) = ⟨[], further ++ plain⟩ :=
        between_names names h.several .lParen .rParen plain
      simp only [h.isName, if_true] at stands
      simp only [h.single.1, h.isName, if_true, skipLayout_names names h.several, window,
        pastSemicolon_names names, stands t rfl h.isJoined]
      have past : pastSemicolon (t :: joined) = pastSemicolon joined := by
        simp [pastSemicolon, not_isDelimiter_of_isName h.isName]
      refine ⟨.some h.firstWord.symm, .inr ⟨rfl, t, rfl, h.isJoined⟩, ?_⟩
      exact past ▸ pastSemicolon_joins others

end TalAnalysis.Declaration
