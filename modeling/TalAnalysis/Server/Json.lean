namespace TalAnalysis

/-- A JSON value. The members of an object are in no particular order. -/
inductive Json
  | null
  | bool (b : Bool)
  | number (mantissa : Int) (exponent : Nat)
  | string (s : String)
  | array (items : List Json)
  | object (members : List (String × Json))
deriving Repr, Inhabited

namespace Json

def int (n : Int) : Json := .number n 0

def nat (n : Nat) : Json := .int n

def member? (name : String) : Json → Option Json
  | .object members => (members.find? fun member => member.1 == name).map Prod.snd
  | _ => none

def bool? : Json → Option Bool
  | .bool b => some b
  | _ => none

def ofMembers (members : List (String × Option Json)) : Json :=
  .object (members.filterMap fun (name, value?) => value?.map fun value => (name, value))

end Json
end TalAnalysis
