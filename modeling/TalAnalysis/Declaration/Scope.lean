import TalAnalysis.Symbol.Basic

namespace TalAnalysis.Declaration

inductive ScopeKind
  | global | procedure | subprocedure | struct
deriving DecidableEq, Repr, Inhabited

/-- A scope: its name, what opened it, and the depth of the BEGIN of its body, once read. -/
structure Scope where
  name : String
  kind : ScopeKind
  bodyDepth? : Option Nat := none
deriving DecidableEq, Repr, Inhabited

namespace Scope

def global : Scope := ⟨globalContext, .global, none⟩

def awaitsBody (s : Scope) : Bool := s.kind != .global && s.bodyDepth?.isNone

def awaitsProcedureBody (s : Scope) : Bool :=
  s.awaitsBody && (s.kind == .procedure || s.kind == .subprocedure)

end Scope

def contextOf (scopes : List Scope) : String := (scopes.head?.map Scope.name).getD globalContext

def leave : List Scope → List Scope
  | _ :: outer :: scopes => outer :: scopes
  | scopes => scopes

/-- The scopes without the innermost ones of the given kinds that still wait for a body. -/
def closeBodiless (kinds : List ScopeKind) (scopes : List Scope) : List Scope :=
  scopes.dropWhile fun s => s.awaitsBody && kinds.contains s.kind

/-- What is carried from one declaration to the next: the scopes, how many BEGINs are open, and
whether a data type would open a declaration here. -/
structure State where
  scopes : List Scope := [.global]
  depth : Nat := 0
  statementStart : Bool := true
deriving DecidableEq, Repr, Inhabited

namespace State

def context (s : State) : String := contextOf s.scopes

def enter (s : State) (name : String) (kind : ScopeKind) : State :=
  { s with scopes := ⟨name, kind, none⟩ :: s.scopes }

def atStart (s : State) : State := { s with statementStart := true }

def inStatement (s : State) : State := { s with statementStart := false }

def afterList (s : State) (closed : Bool) : State := if closed then s.atStart else s

def openBlock (s : State) : State :=
  let depth := s.depth + 1
  let scopes :=
    match s.scopes with
    | scope :: outer =>
      if scope.awaitsBody then { scope with bodyDepth? := some depth } :: outer else scope :: outer
    | [] => []
  ⟨scopes, depth, true⟩

/-- The state after an END that has a BEGIN. It closes the innermost scope if the BEGIN began the
body of that scope. -/
def closeBlock (s : State) : State :=
  let scopes :=
    if (s.scopes.head?.bind Scope.bodyDepth?) = some s.depth then leave s.scopes else s.scopes
  ⟨scopes, s.depth - 1, false⟩

def bodyElsewhere (s : State) : State :=
  let scopes :=
    if (s.scopes.head?.map Scope.awaitsProcedureBody).getD false then leave s.scopes else s.scopes
  { s with scopes, statementStart := false }

end State
end TalAnalysis.Declaration
