import TalAnalysis.Proofs.Declaration.Extension.Run
import TalAnalysis.Proofs.Declaration.Step

namespace TalAnalysis.Declaration

def variablePlaces (tokens : List Token) : List (List Token) :=
  match _found : skipPointers (skipLayout tokens) with
  | [] => [[]]
  | name :: rest =>
    (name :: rest) ::
      match _more : listEnd (variableItem name rest).2 with
      | .another rest' => if name.kind.isName then variablePlaces rest' else []
      | _ => []
termination_by tokens.length
decreasing_by
  have shorter := length_of_another _more
  have left := (variableItem_suffix name rest).length_le
  have whole := ((skipPointers_suffix _).trans (skipLayout_suffix tokens)).length_le
  simp only [_found, List.length_cons] at whole
  omega

variable {tokens rest rest' : List Token} {name : Token}

theorem variablePlaces_nil (none : skipPointers (skipLayout tokens) = []) :
    variablePlaces tokens = [[]] := by
  rw [variablePlaces]
  split <;> simp_all

theorem variablePlaces_cons (found : skipPointers (skipLayout tokens) = name :: rest) :
    variablePlaces tokens = (name :: rest) ::
      match listEnd (variableItem name rest).2 with
      | .another rest' => if name.kind.isName then variablePlaces rest' else []
      | _ => [] := by
  rw [variablePlaces]
  split
  · simp_all
  · rename_i found'
    obtain ⟨rfl, rfl⟩ := List.cons.inj (found.symm.trans found')
    split <;> simp_all

theorem variablePlaces_another (found : skipPointers (skipLayout tokens) = name :: rest)
    (isName : name.kind.isName = true)
    (more : listEnd (variableItem name rest).2 = .another rest') :
    variablePlaces tokens = (name :: rest) :: variablePlaces rest' := by
  rw [variablePlaces_cons found, more]
  simp only [isName, if_true]

theorem mem_variablePlaces (tokens : List Token) :
    skipPointers (skipLayout tokens) ∈ variablePlaces tokens := by
  cases found : skipPointers (skipLayout tokens) with
  | nil => exact variablePlaces_nil found ▸ List.mem_singleton_self []
  | cons name rest => exact variablePlaces_cons found ▸ List.mem_cons_self

theorem mem_variablePlaces_of_another (found : skipPointers (skipLayout tokens) = name :: rest)
    (isName : name.kind.isName = true)
    (more : listEnd (variableItem name rest).2 = .another rest') {place : List Token}
    (member : place ∈ variablePlaces rest') : place ∈ variablePlaces tokens :=
  variablePlaces_another found isName more ▸ List.mem_cons_of_mem _ member

/-- The places of the names that the step from the token `t` looks for. -/
def stepPlaces (s : State) (t : Token) (tokens : List Token) : List (List Token) :=
  match t.kind with
  | .keyword .struct => [skipPointers (skipLayout tokens)]
  | .dataType _ =>
    if s.statementStart && !procedureFollows tokens then variablePlaces (skipWidth tokens) else []
  | _ => []

def namePlaces (s : State) (tokens : List Token) : List (List Token) :=
  (steps s tokens).flatMap fun (s, t, rest) => stepPlaces s t rest

end TalAnalysis.Declaration
