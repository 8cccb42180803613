import TalAnalysis.Declaration.Extraction

namespace TalAnalysis.Checked
open Declaration

def sub? (a b : Nat) : Option Nat := if b ≤ a then some (a - b) else none

theorem sub?_of_le {a b : Nat} (h : b ≤ a) : sub? a b = some (a - b) := if_pos h

def inside? (opening closing : Delimiter) (depth : Nat) : List Token → Option Window
  | [] => some ⟨[], []⟩
  | t :: tokens => do
    if t.isDelimiter opening then return (← inside? opening closing (depth + 1) tokens).cons t
    else if t.isDelimiter closing then
      let depth ← sub? depth 1
      if depth = 0 then return ⟨[], tokens⟩
      else return (← inside? opening closing depth tokens).cons t
    else if depth = 1 ∧ t.isDelimiter .comma then inside? opening closing depth tokens
    else return (← inside? opening closing depth tokens).cons t

def between? (opening closing : Delimiter) : List Token → Option Window
  | [] => some ⟨[], []⟩
  | t :: tokens =>
    if t.isDelimiter opening then inside? opening closing 1 tokens else some ⟨[], t :: tokens⟩

def parenthesized? (tokens : List Token) : Option Window := between? .lParen .rParen tokens

def bracketed? (tokens : List Token) : Option Window := between? .lBracket .rBracket tokens

theorem inside?_eq (opening closing : Delimiter) (depth : Nat) (tokens : List Token) :
    inside? opening closing (depth + 1) tokens = some (inside opening closing depth tokens) := by
  induction tokens generalizing depth with
  | nil => rfl
  | cons t tokens ih =>
      rw [inside?, inside_cons]
      by_cases opens : t.isDelimiter opening = true
      · simp [opens, ih]
      · by_cases closes : t.isDelimiter closing = true
        · -- The bracket that opened the window counts, so one can be taken away.
          cases depth with
          | zero => simp [opens, closes, sub?]
          | succ depth => simp [opens, closes, sub?, ih]
        · by_cases comma : depth = 0 ∧ t.isDelimiter .comma = true
          · simp [opens, closes, comma, ih]
          · simp [opens, closes, comma, ih]

theorem between?_eq (opening closing : Delimiter) (tokens : List Token) :
    between? opening closing tokens = some (between opening closing tokens) := by
  cases tokens with
  | nil => rfl
  | cons t tokens =>
      rw [between?, between, inside?_eq]
      exact (apply_ite some _ _ _).symm

theorem parenthesized?_eq (tokens : List Token) :
    parenthesized? tokens = some (parenthesized tokens) := between?_eq _ _ tokens

theorem bracketed?_eq (tokens : List Token) : bracketed? tokens = some (bracketed tokens) :=
  between?_eq _ _ tokens

def namedItems? {α : Type} (item? : Token → List Token → Option (α × List Token))
    (tokens : List Token) : Option (Listing α) := do
  match fromName tokens with
  | [] => return ⟨[], false, []⟩
  | name :: rest =>
    if name.kind.isName then
      let (item, left) ← item? name rest
      match listEnd left with
      | .another rest =>
        if _nearer : rest.length < tokens.length then return (← namedItems? item? rest).cons item
        else none
      | .closed rest => return ⟨[item], true, rest⟩
      | .broken rest => return ⟨[item], false, rest⟩
    else return ⟨[], true, rest⟩
termination_by tokens.length

theorem namedItems?_eq {α : Type} {item? : Token → List Token → Option (α × List Token)}
    {item : Token → List Token → α × List Token}
    (each : ∀ name tokens, item? name tokens = some (item name tokens))
    (tail : ∀ name tokens, (item name tokens).2 <:+ tokens) (tokens : List Token) :
    namedItems? item? tokens = some (namedItems item tail tokens) := by
  fun_induction namedItems item tail tokens with
  | case1 tokens none =>
      rw [namedItems?]
      simp [none]
  | case2 tokens name rest found isName _ rest' more ih =>
      have nearer : rest'.length < tokens.length := by
        have shorter := length_of_another more
        have left := (tail name rest).length_le
        have whole := (fromName_suffix tokens).length_le
        rw [found, List.length_cons] at whole
        omega
      rw [namedItems?]
      simp [found, isName, each, more, nearer, ih]
  | case3 tokens name rest found isName _ rest' more
  | case4 tokens name rest found isName _ rest' more =>
      rw [namedItems?]
      simp [found, isName, each, more]
  | case5 tokens name rest found other =>
      rw [namedItems?]
      simp [found, other]

def defineItem? (name : Token) (tokens : List Token) : Option (DefineItem × List Token) := do
  let parameters ← parenthesized? (skipLayout tokens)
  let from? :=
    parameters.rest.dropWhile fun t => !(t.isDelimiter .equal || t.isDelimiter .semicolon)
  match from? with
  | [] => return (⟨name, parameters.inside, none, true⟩, [])
  | t :: rest =>
    if t.isDelimiter .equal then
      let body := upTo .hash rest
      return (⟨name, parameters.inside, some body.1.inside, body.2⟩, body.1.rest)
    else return (⟨name, parameters.inside, none, true⟩, t :: rest)

def defines? (tokens : List Token) : Option (Listing DefineItem) := namedItems? defineItem? tokens

theorem defineItem?_eq (name : Token) (tokens : List Token) :
    defineItem? name tokens = some (defineItem name tokens) := by
  rw [defineItem?, parenthesized?_eq, Option.bind_eq_bind, Option.bind_some]
  cases found : (parenthesized (skipLayout tokens)).rest.dropWhile
      fun t => !(t.isDelimiter .equal || t.isDelimiter .semicolon) with
  | nil => simp [defineItem_nil found]
  | cons t rest =>
      simp only [defineItem_cons found]
      exact (apply_ite some _ _ _).symm

theorem defines?_eq (tokens : List Token) : defines? tokens = some (defines tokens) :=
  namedItems?_eq defineItem?_eq defineItem_suffix tokens

def variableItem? (name : Token) (tokens : List Token) : Option (VariableItem × List Token) := do
  let referral ← parenthesized? (skipLayout tokens)
  let bounds ← bracketed? (skipLayout referral.rest)
  let initial := initial? (skipLayout bounds.rest)
  return (⟨name, initial.1⟩, initial.2)

def variableItems? (tokens : List Token) : Option Variables := do
  match skipPointers (skipLayout tokens) with
  | [] => return { items := [], closed := true, rest := [] }
  | name :: rest =>
    if name.kind.isName then
      let (item, left) ← variableItem? name rest
      match listEnd left with
      | .another rest =>
        if _nearer : rest.length < tokens.length then
          let others ← variableItems? rest
          return { others with toListing := others.toListing.cons item }
        else none
      | .closed rest => return { items := [item], closed := true, rest }
      | .broken rest => return { items := [item], closed := false, rest }
    else
      return {
        items := [], closed := true, rest := pastSemicolon (name :: rest)
        missing? := if name.isDelimiter .semicolon then none else some name }
termination_by tokens.length

theorem variableItem?_eq (name : Token) (tokens : List Token) :
    variableItem? name tokens = some (variableItem name tokens) := by
  simp only [variableItem?, parenthesized?_eq, bracketed?_eq, Option.bind_eq_bind, Option.bind_some,
    Option.pure_def, variableItem]

theorem variableItems?_eq (tokens : List Token) :
    variableItems? tokens = some (variableItems tokens) := by
  fun_induction variableItems tokens with
  | case1 tokens none =>
      rw [variableItems?]
      simp [none]
  | case2 tokens name rest found isName item rest' more others list ih =>
      have nearer : rest'.length < tokens.length := by
        have shorter := length_of_another more
        have left := (variableItem_suffix name rest).length_le
        have whole := ((skipPointers_suffix _).trans (skipLayout_suffix tokens)).length_le
        rw [found, List.length_cons] at whole
        omega
      rw [variableItems?]
      simp [found, isName, variableItem?_eq, more, nearer, ih, item, others, list]
  | case3 tokens name rest found isName item rest' more
  | case4 tokens name rest found isName item rest' more =>
      rw [variableItems?]
      simp [found, isName, variableItem?_eq, more, item]
  | case5 tokens name rest found other =>
      rw [variableItems?]
      simp [found, other]

def skipQualifier? (tokens : List Token) : Option (List Token) := do
  return skipLayout (← parenthesized? (skipLayout tokens)).rest

def procedureHeader? (tokens : List Token) : Option ProcedureHeader := do
  match skipLayout tokens with
  | [] => return ⟨none, [], []⟩
  | name :: rest =>
    if name.kind.isName then
      let parameters ← parenthesized? (skipLayout rest)
      return ⟨some name, parameters.inside, pastSemicolon parameters.rest⟩
    else return ⟨none, [], pastSemicolon (name :: rest)⟩

theorem skipQualifier?_eq (tokens : List Token) :
    skipQualifier? tokens = some (skipQualifier tokens) := by
  rw [skipQualifier?, parenthesized?_eq]
  rfl

theorem procedureHeader?_eq (tokens : List Token) :
    procedureHeader? tokens = some (procedureHeader tokens) := by
  rw [procedureHeader?, procedureHeader]
  cases skipLayout tokens with
  | nil => rfl
  | cons name rest =>
      simp only [parenthesized?_eq, Option.bind_eq_bind, Option.bind_some, Option.pure_def]
      exact (apply_ite some _ _ _).symm

def sections? (depth : Nat) : List Token → Option Window
  | [] => some ⟨[], []⟩
  | t :: tokens => do
    if t.kind.endsLine then
      match tokens with
      | [] => return ⟨[], [t]⟩
      | marker :: rest =>
        if marker.kind.marksDirective then sections? depth rest
        else return ⟨[], t :: marker :: rest⟩
    else if t.isDelimiter .lParen then sections? (depth + 1) tokens
    else if t.isDelimiter .rParen then
      let depth ← sub? depth 1
      if depth = 0 then return ⟨[], tokens⟩ else sections? depth tokens
    else if t.kind.isWord ∧ depth = 1 then return (← sections? depth tokens).cons t
    else sections? depth tokens

theorem sections?_eq (depth : Nat) (tokens : List Token) :
    sections? (depth + 1) tokens = some (sections depth tokens) := by
  fun_induction sections depth tokens with
  | case1 => rfl
  | case2 depth t ends =>
      rw [sections?.eq_def]
      simp [ends]
  | case3 depth t ends marker rest marked ih =>
      rw [sections?.eq_def]
      simp [ends, marked, ih]
  | case4 depth t ends marker rest unmarked =>
      rw [sections?.eq_def]
      simp [ends, unmarked]
  | case5 depth t tokens ends opens ih =>
      rw [sections?.eq_def]
      simp [ends, opens, ih]
  | case6 t tokens ends opens closes =>
      rw [sections?.eq_def]
      simp [ends, opens, closes, sub?]
  | case7 t tokens ends opens closes depth ih =>
      rw [sections?.eq_def]
      simp [ends, opens, closes, sub?, ih]
  | case8 depth t tokens ends opens closes word ih =>
      obtain ⟨word, rfl⟩ := word
      rw [Nat.zero_add] at ih
      rw [sections?.eq_def]
      simp [ends, opens, closes, word, ih]
  | case9 depth t tokens ends opens closes other ih =>
      rw [sections?.eq_def]
      simp [ends, opens, closes, other, ih]

def sourceItem? (t : Token) (tokens : List Token) : Option (DirectiveItem × List Token) := do
  let file := Token.joinText (tokens.takeWhile fun t => !endsFile t)
  let rest := tokens.dropWhile fun t => !endsFile t
  let list ← if opensWith rest .lParen then sections? 1 rest.tail else some ⟨[], rest⟩
  let argument? := if file.isEmpty then none else some file
  return (⟨t, Directive.spelling .source, argument?, file, list.inside⟩, list.rest)

def directiveItem? (t : Token) (tokens : List Token) : Option (DirectiveItem × List Token) :=
  if Directive.ofSpelling? t.text = some .source then sourceItem? t tokens
  else some (directiveItem t tokens)

def directiveLine? (tokens : List Token) : Option (List DirectiveItem × List Token) := do
  match tokens with
  | [] => return ([], [])
  | t :: rest =>
    if t.kind.endsLine then return ([], rest)
    else if t.kind.isWord then
      let (item, left) ← directiveItem? t rest
      if _nearer : left.length ≤ rest.length then
        let (items, left) ← directiveLine? left
        return (item :: items, left)
      else none
    else directiveLine? rest
termination_by tokens.length

theorem sourceItem?_eq (t : Token) (tokens : List Token) :
    sourceItem? t tokens = some (sourceItem t tokens) := by
  rw [sourceItem?, sourceItem, sections?_eq]
  split <;> rfl

theorem directiveItem?_eq (t : Token) (tokens : List Token) :
    directiveItem? t tokens = some (directiveItem t tokens) := by
  rw [directiveItem?, sourceItem?_eq, ← apply_ite some]
  split
  · rename_i source
    rw [directiveItem, source]
  · rfl

theorem directiveLine?_eq (tokens : List Token) :
    directiveLine? tokens = some (directiveLine tokens) := by
  fun_induction directiveLine tokens with
  | case1 =>
      rw [directiveLine?]
      rfl
  | case2 t rest ends =>
      rw [directiveLine?]
      simp [ends]
  | case3 t rest ends word _ others ih =>
      have nearer := (directiveItem_suffix t rest).length_le
      rw [directiveLine?]
      simp [ends, word, directiveItem?_eq, nearer, ih, others]
  | case4 t rest ends word ih =>
      rw [directiveLine?]
      simp [ends, word, ih]

end TalAnalysis.Checked
