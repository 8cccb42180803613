import TalAnalysis.Declaration.Window

namespace TalAnalysis.Declaration

def opensProcedure (t : Token) : Bool := t.isKeyword .proc || t.isKeyword .subproc

/-- The data type before these tokens is the result of a procedure. A qualifier in parentheses may
stand between; it is taken to end with the next closing one. -/
def procedureFollows (tokens : List Token) : Bool :=
  let next := skipLayout tokens
  let next :=
    if opensWith next .lParen then
      skipLayout (next.dropWhile fun t => !t.isDelimiter .rParen).tail
    else next
  (next.head?.map opensProcedure).getD false

def skipQualifier (tokens : List Token) : List Token :=
  skipLayout (parenthesized (skipLayout tokens)).rest

structure ProcedureHeader where
  name? : Option Token
  parameters : List Token
  rest : List Token
deriving DecidableEq, Repr, Inhabited

def procedureHeader (tokens : List Token) : ProcedureHeader :=
  match skipLayout tokens with
  | [] => ⟨none, [], []⟩
  | name :: rest =>
    if name.kind.isName then
      let parameters := parenthesized (skipLayout rest)
      ⟨some name, parameters.inside, pastSemicolon parameters.rest⟩
    else ⟨none, [], pastSemicolon (name :: rest)⟩

theorem skipQualifier_suffix (tokens : List Token) : skipQualifier tokens <:+ tokens :=
  (skipLayout_suffix _).trans ((parenthesized_suffix _).trans (skipLayout_suffix _))

theorem procedureHeader_suffix (tokens : List Token) :
    (procedureHeader tokens).rest <:+ tokens := by
  have front := skipLayout_suffix tokens
  rw [procedureHeader]
  cases found : skipLayout tokens with
  | nil => exact List.nil_suffix
  | cons name rest =>
    rw [found] at front
    simp only
    split
    · exact (pastSemicolon_suffix _).trans ((parenthesized_suffix _).trans
        ((skipLayout_suffix _).trans ((List.suffix_cons _ _).trans front)))
    · exact (pastSemicolon_suffix _).trans front

def parameterNames (depth : Nat) : List Token → List Token
  | [] => []
  | t :: tokens =>
    let depth :=
      if t.isDelimiter .lParen then depth + 1
      else if t.isDelimiter .rParen then depth - 1
      else depth
    if depth = 0 ∧ t.kind.isName then t :: parameterNames depth tokens
    else parameterNames depth tokens

structure StructureHeader where
  name? : Option Token
  rest : List Token
deriving DecidableEq, Repr, Inhabited

def structureHeader (tokens : List Token) : StructureHeader :=
  match skipPointers (skipLayout tokens) with
  | [] => ⟨none, []⟩
  | name :: rest =>
    if name.kind.isName then ⟨some name, pastSemicolon rest⟩
    else ⟨none, pastSemicolon (name :: rest)⟩

theorem structureHeader_suffix (tokens : List Token) :
    (structureHeader tokens).rest <:+ tokens := by
  have front := (skipPointers_suffix _).trans (skipLayout_suffix tokens)
  rw [structureHeader]
  cases found : skipPointers (skipLayout tokens) with
  | nil => exact List.nil_suffix
  | cons name rest =>
    rw [found] at front
    simp only
    split
    · exact (pastSemicolon_suffix _).trans ((List.suffix_cons _ _).trans front)
    · exact (pastSemicolon_suffix _).trans front

def bodyFollows (tokens : List Token) : Bool :=
  ((skipLayout tokens).head?.map fun t => t.isKeyword .begin).getD false

end TalAnalysis.Declaration
