import TalAnalysis.Declaration.Window

namespace TalAnalysis.Declaration

/-- The items of a list, whether a semicolon closed it, and the tokens after it. -/
structure Listing (α : Type) where
  items : List α
  closed : Bool
  rest : List Token

def Listing.cons {α : Type} (item : α) (l : Listing α) : Listing α :=
  { l with items := item :: l.items }

/-! ## Lists of names -/

def fromName (tokens : List Token) : List Token :=
  tokens.dropWhile fun t => !(t.kind.isName || t.isDelimiter .semicolon)

theorem fromName_suffix (tokens : List Token) : fromName tokens <:+ tokens :=
  List.dropWhile_suffix _

def namedItems {α : Type} (item : Token → List Token → α × List Token)
    (tail : ∀ name tokens, (item name tokens).2 <:+ tokens) (tokens : List Token) : Listing α :=
  match _found : fromName tokens with
  | [] => ⟨[], false, []⟩
  | name :: rest =>
    if name.kind.isName then
      have _left := (tail name rest).length_le
      match _more : listEnd (item name rest).2 with
      | .another rest' => (namedItems item tail rest').cons (item name rest).1
      | .closed rest' => ⟨[(item name rest).1], true, rest'⟩
      | .broken rest' => ⟨[(item name rest).1], false, rest'⟩
    else ⟨[], true, rest⟩
termination_by tokens.length
decreasing_by
  have shorter := length_of_another _more
  have whole := (fromName_suffix tokens).length_le
  rw [_found, List.length_cons] at whole
  omega

theorem namedItems_name {α : Type} {item : Token → List Token → α × List Token}
    {tail : ∀ name tokens, (item name tokens).2 <:+ tokens} {tokens rest : List Token}
    {name : Token} (found : fromName tokens = name :: rest) (isName : name.kind.isName = true) :
    namedItems item tail tokens =
      match listEnd (item name rest).2 with
      | .another rest' => (namedItems item tail rest').cons (item name rest).1
      | .closed rest' => ⟨[(item name rest).1], true, rest'⟩
      | .broken rest' => ⟨[(item name rest).1], false, rest'⟩ := by
  rw [namedItems]
  split
  · simp_all
  · rename_i name' rest' found'
    obtain ⟨rfl, rfl⟩ := List.cons.inj (found.symm.trans found')
    rw [if_pos isName]
    split <;> simp_all

theorem namedItems_semicolon {α : Type} {item : Token → List Token → α × List Token}
    {tail : ∀ name tokens, (item name tokens).2 <:+ tokens} {tokens rest : List Token}
    {t : Token} (found : fromName tokens = t :: rest) (other : t.kind.isName = false) :
    namedItems item tail tokens = ⟨[], true, rest⟩ := by
  rw [namedItems]
  split <;> simp_all

theorem namedItems_suffix {α : Type} (item : Token → List Token → α × List Token)
    (tail : ∀ name tokens, (item name tokens).2 <:+ tokens) (tokens : List Token) :
    (namedItems item tail tokens).rest <:+ tokens := by
  have front (tokens name rest) (found : fromName tokens = name :: rest) : rest <:+ tokens :=
    (List.suffix_cons name rest).trans (found ▸ fromName_suffix tokens)
  fun_induction namedItems item tail tokens with
  | case1 => exact List.nil_suffix
  | case2 tokens name rest found _ _ rest' more ih =>
    have left := listEnd_suffix (item name rest).2
    rw [more] at left
    exact ih.trans (left.trans ((tail name rest).trans (front _ _ _ found)))
  | case3 tokens name rest found _ _ rest' more | case4 tokens name rest found _ _ rest' more =>
    have left := listEnd_suffix (item name rest).2
    rw [more] at left
    exact left.trans ((tail name rest).trans (front _ _ _ found))
  | case5 tokens name rest found => exact front _ _ _ found

/-! ## LITERAL -/

structure LiteralItem where
  name : Token
  value : List Token
deriving DecidableEq, Repr, Inhabited

def skipEqual : List Token → List Token
  | [] => []
  | t :: tokens => if t.isDelimiter .equal then tokens else t :: tokens

theorem skipEqual_suffix (tokens : List Token) : skipEqual tokens <:+ tokens := by
  cases tokens with
  | nil => exact List.suffix_refl _
  | cons t tokens =>
    rw [skipEqual]
    split
    · exact List.suffix_cons _ _
    · exact List.suffix_refl _

def literalItem (name : Token) (tokens : List Token) : LiteralItem × List Token :=
  let window := value 0 (skipEqual (skipLayout tokens))
  (⟨name, window.inside⟩, window.rest)

theorem literalItem_suffix (name : Token) (tokens : List Token) :
    (literalItem name tokens).2 <:+ tokens :=
  (value_suffix _ _).trans ((skipEqual_suffix _).trans (skipLayout_suffix _))

def literals (tokens : List Token) : Listing LiteralItem :=
  namedItems literalItem literalItem_suffix tokens

/-! ## DEFINE -/

/-- A name with the tokens in its parentheses, and the tokens of its body. There is no body without
an equals sign, and a body without its closing mark is not `terminated`. -/
structure DefineItem where
  name : Token
  parameters : List Token
  body? : Option (List Token)
  terminated : Bool
deriving DecidableEq, Repr, Inhabited

def defineItem (name : Token) (tokens : List Token) : DefineItem × List Token :=
  let parameters := parenthesized (skipLayout tokens)
  let from? :=
    parameters.rest.dropWhile fun t => !(t.isDelimiter .equal || t.isDelimiter .semicolon)
  match from? with
  | [] => (⟨name, parameters.inside, none, true⟩, [])
  | t :: rest =>
    if t.isDelimiter .equal then
      let body := upTo .hash rest
      (⟨name, parameters.inside, some body.1.inside, body.2⟩, body.1.rest)
    else (⟨name, parameters.inside, none, true⟩, t :: rest)

theorem defineItem_nil {name : Token} {tokens : List Token}
    (found : (parenthesized (skipLayout tokens)).rest.dropWhile
      (fun t => !(t.isDelimiter .equal || t.isDelimiter .semicolon)) = []) :
    defineItem name tokens =
      (⟨name, (parenthesized (skipLayout tokens)).inside, none, true⟩, []) := by
  rw [defineItem.eq_def]
  simp only [found]

theorem defineItem_cons {name t : Token} {tokens rest : List Token}
    (found : (parenthesized (skipLayout tokens)).rest.dropWhile
      (fun t => !(t.isDelimiter .equal || t.isDelimiter .semicolon)) = t :: rest) :
    let parameters := (parenthesized (skipLayout tokens)).inside
    let left := rest.dropWhile fun t => !t.isDelimiter .hash
    defineItem name tokens =
      if t.isDelimiter .equal then
        (⟨name, parameters, some (rest.takeWhile fun t => !t.isDelimiter .hash), !left.isEmpty⟩,
          left.tail)
      else (⟨name, parameters, none, true⟩, t :: rest) := by
  rw [defineItem.eq_def]
  simp only [found, upTo]

theorem defineItem_parts (name : Token) (tokens : List Token) :
    (defineItem name tokens).1.name = name ∧
      (defineItem name tokens).1.parameters = (parenthesized (skipLayout tokens)).inside := by
  fun_cases defineItem name tokens <;> exact ⟨rfl, rfl⟩

theorem defineItem_suffix (name : Token) (tokens : List Token) :
    (defineItem name tokens).2 <:+ tokens := by
  have front : (parenthesized (skipLayout tokens)).rest <:+ tokens :=
    (parenthesized_suffix _).trans (skipLayout_suffix _)
  have left := (List.dropWhile_suffix (l := (parenthesized (skipLayout tokens)).rest)
    fun t => !(t.isDelimiter .equal || t.isDelimiter .semicolon)).trans front
  fun_cases defineItem name tokens with
  | case1 => exact List.nil_suffix
  | case2 parameters from? t rest found =>
    exact (List.tail_suffix _).trans ((List.dropWhile_suffix _).trans
      ((List.suffix_cons t rest).trans (found ▸ left)))
  | case3 parameters from? t rest found => exact found ▸ left

def defines (tokens : List Token) : Listing DefineItem :=
  namedItems defineItem defineItem_suffix tokens

/-! ## Variables -/

structure VariableItem where
  name : Token
  initial? : Option (List Token)
deriving DecidableEq, Repr, Inhabited

def initial? : List Token → Option (List Token) × List Token
  | [] => (none, [])
  | t :: tokens =>
    if t.kind = .operator .assign ∨ t.isDelimiter .equal then
      (some (value 0 tokens).inside, (value 0 tokens).rest)
    else (none, t :: tokens)

theorem initial?_suffix (tokens : List Token) : (initial? tokens).2 <:+ tokens := by
  cases tokens with
  | nil => exact List.suffix_refl _
  | cons t tokens =>
    rw [initial?]
    split
    · exact (value_suffix _ _).trans (List.suffix_cons _ _)
    · exact List.suffix_refl _

def variableItem (name : Token) (tokens : List Token) : VariableItem × List Token :=
  let referral := parenthesized (skipLayout tokens)
  let bounds := bracketed (skipLayout referral.rest)
  let initial := initial? (skipLayout bounds.rest)
  (⟨name, initial.1⟩, initial.2)

theorem variableItem_suffix (name : Token) (tokens : List Token) :
    (variableItem name tokens).2 <:+ tokens :=
  (initial?_suffix _).trans <| (skipLayout_suffix _).trans <| (bracketed_suffix _).trans <|
    (skipLayout_suffix _).trans <| (parenthesized_suffix _).trans (skipLayout_suffix _)

structure Variables extends Listing VariableItem where
  missing? : Option Token := none

/-- The items of a variable declaration, after the data type and its qualifier. Where a name is
missing, the declaration is given up and passed over through its semicolon. -/
def variableItems (tokens : List Token) : Variables :=
  match _found : skipPointers (skipLayout tokens) with
  | [] => { items := [], closed := true, rest := [] }
  | name :: rest =>
    if name.kind.isName then
      let found := (variableItem name rest).1
      match _more : listEnd (variableItem name rest).2 with
      | .another rest' =>
        let others := variableItems rest'
        { others with toListing := others.toListing.cons found }
      | .closed rest' => { items := [found], closed := true, rest := rest' }
      | .broken rest' => { items := [found], closed := false, rest := rest' }
    else
      { items := [], closed := true, rest := pastSemicolon (name :: rest)
        missing? := if name.isDelimiter .semicolon then none else some name }
termination_by tokens.length
decreasing_by
  have shorter := length_of_another _more
  have left := (variableItem_suffix name rest).length_le
  have whole := ((skipPointers_suffix _).trans (skipLayout_suffix tokens)).length_le
  simp only [_found, List.length_cons] at whole
  omega

theorem variableItems_nil {tokens : List Token} (found : skipPointers (skipLayout tokens) = []) :
    variableItems tokens = { items := [], closed := true, rest := [] } := by
  rw [variableItems]
  split <;> simp_all

theorem variableItems_name {tokens rest : List Token} {name : Token}
    (found : skipPointers (skipLayout tokens) = name :: rest) (isName : name.kind.isName = true) :
    variableItems tokens =
      match listEnd (variableItem name rest).2 with
      | .another rest' =>
        { variableItems rest' with
          toListing := (variableItems rest').toListing.cons (variableItem name rest).1 }
      | .closed rest' => { items := [(variableItem name rest).1], closed := true, rest := rest' }
      | .broken rest' =>
        { items := [(variableItem name rest).1], closed := false, rest := rest' } := by
  rw [variableItems]
  split
  · simp_all
  · rename_i name' rest' found'
    obtain ⟨rfl, rfl⟩ := List.cons.inj (found.symm.trans found')
    rw [if_pos isName]
    split <;> simp_all

theorem variableItems_missing {tokens rest : List Token} {t : Token}
    (found : skipPointers (skipLayout tokens) = t :: rest) (other : t.kind.isName = false) :
    variableItems tokens =
      { items := [], closed := true, rest := pastSemicolon (t :: rest)
        missing? := if t.isDelimiter .semicolon then none else some t } := by
  rw [variableItems]
  split <;> simp_all

theorem variableItems_suffix (tokens : List Token) : (variableItems tokens).rest <:+ tokens := by
  have front (tokens name rest) (found : skipPointers (skipLayout tokens) = name :: rest) :
      name :: rest <:+ tokens := found ▸ (skipPointers_suffix _).trans (skipLayout_suffix tokens)
  fun_induction variableItems tokens with
  | case1 => exact List.nil_suffix
  | case2 tokens name rest found _ _ rest' more _ _ ih =>
    have left := listEnd_suffix (variableItem name rest).2
    rw [more] at left
    exact ih.trans (left.trans ((variableItem_suffix name rest).trans
      ((List.suffix_cons _ _).trans (front _ _ _ found))))
  | case3 tokens name rest found _ _ rest' more | case4 tokens name rest found _ _ rest' more =>
    have left := listEnd_suffix (variableItem name rest).2
    rw [more] at left
    exact left.trans ((variableItem_suffix name rest).trans
      ((List.suffix_cons _ _).trans (front _ _ _ found)))
  | case5 tokens name rest found => exact (pastSemicolon_suffix _).trans (front _ _ _ found)

end TalAnalysis.Declaration
