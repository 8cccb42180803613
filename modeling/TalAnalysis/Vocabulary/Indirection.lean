import TalAnalysis.Vocabulary.Lookup

namespace TalAnalysis

inductive IndirectionCategory
  | pointer | address | baseAddress
deriving DecidableEq, Repr, Inhabited

inductive Indirection
  | standard | extended | systemGlobal | systemGlobalExtended | addressOf | baseProcedure
  | baseGlobal | baseLocal | baseSublocal | baseSystemGlobal
deriving DecidableEq, Repr, Inhabited

namespace Indirection

def spelling : Indirection → String
  | .standard => "."
  | .extended => ".EXT"
  | .systemGlobal => ".SG"
  | .systemGlobalExtended => ".SGX"
  | .addressOf => "@"
  | .baseProcedure => "'P'"
  | .baseGlobal => "'G'"
  | .baseLocal => "'L'"
  | .baseSublocal => "'S'"
  | .baseSystemGlobal => "'SG'"

def category : Indirection → IndirectionCategory
  | .standard | .extended | .systemGlobal | .systemGlobalExtended => .pointer
  | .addressOf => .address
  | .baseProcedure | .baseGlobal | .baseLocal | .baseSublocal | .baseSystemGlobal => .baseAddress

def signs : List Indirection :=
  [.extended, .systemGlobal, .systemGlobalExtended, .addressOf, .baseProcedure, .baseGlobal,
    .baseLocal, .baseSublocal, .baseSystemGlobal]

theorem mem_signs (i : Indirection) : i ∈ signs ↔ i ≠ .standard := by cases i <;> decide

def ofSpelling? (text : String) : Option Indirection :=
  if text = spelling .standard then some .standard
  else findWord? signs spelling text

end Indirection
end TalAnalysis
