namespace TalAnalysis

inductive Dialect
  | tal | pTal
deriving DecidableEq, Repr, Inhabited

def Dialect.label : Dialect → String
  | .tal => "TAL"
  | .pTal => "pTAL"

inductive Stability
  | stable | obsolete
deriving DecidableEq, Repr, Inhabited

end TalAnalysis
