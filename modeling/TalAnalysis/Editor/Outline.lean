import TalAnalysis.Symbol.Table
import TalAnalysis.Vocabulary.Directive

/-!
# The outline of a program

The outline shows the symbols of a table as a tree. At its top are the symbols of the global
context. A symbol that opens a context of its own (a procedure, a structure, a SOURCE directive)
has the symbols of that context below it, and a DEFINE its parameters.

Contexts are known by their names, and names may recur: a procedure may hold one of its own name,
and two procedures may open the same context. A context is shown below the first symbol that opens
it, in the order in which the tree is written down, and nowhere else.
-/

namespace TalAnalysis

inductive Outline
  | node (symbol : Symbol) (children : List Outline)
deriving Repr, Inhabited

namespace Outline

def symbol : Outline → Symbol
  | .node s _ => s

def children : Outline → List Outline
  | .node _ children => children

def opens? (s : Symbol) : Option String :=
  match s.kind, s.type with
  | .function, .procedure | .function, .subprocedure | .variable_, .struct => some s.name
  | .define, .identifier => none
  | .directive, _ =>
    if Directive.ofSpelling? s.name = some .source then s.value.text? else none
  | _, _ => none

def members (symbols : List Symbol) (context : String) : List Symbol :=
  symbols.filter fun s => s.context = context ∧ s.key.suffix = .none

def parametersOf (symbols : List Symbol) (s : Symbol) : List Symbol :=
  if s.kind = .define ∧ s.type = .identifier then
    symbols.filter fun p =>
      p.context = s.context ∧ p.key.name = s.name ∧ p.key.suffix.isParameter
  else []

/-- The trees of the symbols in `todo`, with the contexts that are still unopened afterwards. -/
def expand (symbols : List Symbol) (unopened : List String) (todo : List Symbol) :
    { result : List Outline × List String // result.2.length ≤ unopened.length } :=
  match todo with
  | [] => ⟨([], unopened), Nat.le_refl _⟩
  | s :: todo =>
    match opens? s with
    | none =>
      let others := expand symbols unopened todo
      let parameters := (parametersOf symbols s).map (node · [])
      ⟨(node s parameters :: others.1.1, others.1.2), others.2⟩
    | some context =>
      if _fresh : context ∈ unopened then
        let inner := expand symbols (unopened.erase context) (members symbols context)
        let others := expand symbols inner.1.2 todo
        ⟨(node s inner.1.1 :: others.1.1, others.1.2),
          Nat.le_trans others.2 (Nat.le_trans inner.2 (List.length_erase_le ..))⟩
      else
        let others := expand symbols unopened todo
        ⟨(node s [] :: others.1.1, others.1.2), others.2⟩
termination_by (unopened.length, todo.length)
decreasing_by
  · exact Prod.Lex.right _ (by simp)
  · have some_ := List.length_pos_of_mem _fresh
    have erased := List.length_erase_of_mem _fresh
    exact Prod.Lex.left _ _ (by omega)
  · have some_ := List.length_pos_of_mem _fresh
    have erased := List.length_erase_of_mem _fresh
    exact Prod.Lex.left _ _ (Nat.lt_of_le_of_lt inner.2 (by omega))
  · exact Prod.Lex.right _ (by simp)

def contexts (symbols : List Symbol) : List String :=
  ((symbols.filterMap opens?).eraseDups).filter (· ≠ globalContext)

def ofTable (table : SymbolTable) : List Outline :=
  (expand table.symbols (contexts table.symbols) (members table.symbols globalContext)).1.1

end Outline
end TalAnalysis
