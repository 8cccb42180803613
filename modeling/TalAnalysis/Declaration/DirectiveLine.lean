import TalAnalysis.Declaration.Window
import TalAnalysis.Vocabulary.Directive

namespace TalAnalysis.Declaration

/-- A directive as it is named on its line. The name is the spelling in capitals if the directive is
known. Each of `sections` names a procedure in `file`. -/
structure DirectiveItem where
  token : Token
  name : String
  argument? : Option String := none
  file : String := ""
  sections : List Token := []
deriving DecidableEq, Repr, Inhabited

/-- The tokens of an argument: up to the end of the line or, unless it takes the whole line, up to a
comma where no parenthesis is open. -/
def argument (wholeLine : Bool) (depth : Nat) : List Token → Window
  | [] => ⟨[], []⟩
  | t :: tokens =>
    if t.kind.endsLine then ⟨[], t :: tokens⟩
    else if t.isDelimiter .comma ∧ depth = 0 ∧ wholeLine = false then ⟨[], t :: tokens⟩
    else
      let depth :=
        if t.isDelimiter .lParen then depth + 1
        else if t.isDelimiter .rParen then depth - 1
        else depth
      (argument wholeLine depth tokens).cons t

/-- The words of a list of sections whose opening parenthesis has been read, with `depth` more that
opened inside; words in those do not count. The list ends with its line, unless the next token is
the mark of a directive. -/
def sections (depth : Nat) : List Token → Window
  | [] => ⟨[], []⟩
  | t :: tokens =>
    if t.kind.endsLine then
      match tokens with
      | [] => ⟨[], [t]⟩
      | marker :: rest =>
        if marker.kind.marksDirective then sections depth rest else ⟨[], t :: marker :: rest⟩
    else if t.isDelimiter .lParen then sections (depth + 1) tokens
    else if t.isDelimiter .rParen then
      match depth with
      | 0 => ⟨[], tokens⟩
      | depth + 1 => sections depth tokens
    else if t.kind.isWord ∧ depth = 0 then (sections depth tokens).cons t
    else sections depth tokens

def endsFile (t : Token) : Bool :=
  t.kind.endsLine || t.isDelimiter .lParen || t.isDelimiter .comma

def sourceItem (t : Token) (tokens : List Token) : DirectiveItem × List Token :=
  let file := Token.joinText (tokens.takeWhile fun t => !endsFile t)
  let rest := tokens.dropWhile fun t => !endsFile t
  let list := if opensWith rest .lParen then sections 0 rest.tail else ⟨[], rest⟩
  let argument? := if file.isEmpty then none else some file
  (⟨t, Directive.spelling .source, argument?, file, list.inside⟩, list.rest)

def targetItem (t : Token) (tokens : List Token) : DirectiveItem × List Token :=
  let plain : DirectiveItem := { token := t, name := Directive.spelling .target }
  match tokens with
  | [] => (plain, [])
  | next :: rest =>
    if next.kind.endsLine ∨ next.isDelimiter .comma then (plain, next :: rest)
    else ({ plain with argument? := some next.text }, rest)

def argumentItem (t : Token) (name : String) (wholeLine : Bool) (tokens : List Token) :
    DirectiveItem × List Token :=
  let window := argument wholeLine 0 tokens
  let argument? := if window.inside.isEmpty then none else some (Token.joinText window.inside)
  ({ token := t, name, argument? }, window.rest)

def directiveItem (t : Token) (tokens : List Token) : DirectiveItem × List Token :=
  match Directive.ofSpelling? t.text with
  | some .source => sourceItem t tokens
  | some .target => targetItem t tokens
  | some d =>
    match d.form with
    | .simple => ({ token := t, name := d.spelling }, tokens)
    | .complex => argumentItem t d.spelling (d == .assertion) tokens
  | none => argumentItem t t.text false tokens

theorem argument_suffix (wholeLine : Bool) (depth : Nat) (tokens : List Token) :
    (argument wholeLine depth tokens).rest <:+ tokens := by
  fun_induction argument wholeLine depth tokens with
  | case1 | case2 | case3 => exact List.suffix_refl _
  | case4 _ _ _ _ _ _ ih => exact ih.trans (List.suffix_cons _ _)

theorem sections_suffix (depth : Nat) (tokens : List Token) :
    (sections depth tokens).rest <:+ tokens := by
  fun_induction sections depth tokens with
  | case1 | case2 | case4 => exact List.suffix_refl _
  | case3 _ _ _ _ _ _ ih => exact ih.trans ((List.suffix_cons _ _).trans (List.suffix_cons _ _))
  | case6 => exact List.suffix_cons _ _
  | case5 _ _ _ _ _ ih | case7 _ _ _ _ _ _ ih | case8 _ _ _ _ _ _ _ ih | case9 _ _ _ _ _ _ _ ih =>
    exact ih.trans (List.suffix_cons _ _)

theorem sourceItem_suffix (t : Token) (tokens : List Token) :
    (sourceItem t tokens).2 <:+ tokens := by
  simp only [sourceItem]
  refine List.IsSuffix.trans ?_ (List.dropWhile_suffix fun t => !endsFile t)
  split
  · exact (sections_suffix _ _).trans (List.tail_suffix _)
  · exact List.suffix_refl _

theorem targetItem_suffix (t : Token) (tokens : List Token) :
    (targetItem t tokens).2 <:+ tokens := by
  cases tokens with
  | nil => exact List.suffix_refl _
  | cons next rest =>
    simp only [targetItem]
    split
    · exact List.suffix_refl _
    · exact List.suffix_cons _ _

theorem directiveItem_suffix (t : Token) (tokens : List Token) :
    (directiveItem t tokens).2 <:+ tokens := by
  fun_cases directiveItem t tokens with
  | case1 => exact sourceItem_suffix _ _
  | case2 => exact targetItem_suffix _ _
  | case3 => exact List.suffix_refl _
  | case4 | case5 => exact argument_suffix _ _ _

def directiveLine (tokens : List Token) : List DirectiveItem × List Token :=
  match tokens with
  | [] => ([], [])
  | t :: rest =>
    if t.kind.endsLine then ([], rest)
    else if t.kind.isWord then
      have _shorter := (directiveItem_suffix t rest).length_le
      let others := directiveLine (directiveItem t rest).2
      ((directiveItem t rest).1 :: others.1, others.2)
    else directiveLine rest
termination_by tokens.length
decreasing_by all_goals simp; try omega

theorem directiveLine_suffix (tokens : List Token) : (directiveLine tokens).2 <:+ tokens := by
  fun_induction directiveLine tokens with
  | case1 => exact List.suffix_refl _
  | case2 => exact List.suffix_cons _ _
  | case3 t rest _ _ _ _ ih =>
    exact ih.trans ((directiveItem_suffix t rest).trans (List.suffix_cons _ _))
  | case4 _ _ _ _ ih => exact ih.trans (List.suffix_cons _ _)

end TalAnalysis.Declaration
