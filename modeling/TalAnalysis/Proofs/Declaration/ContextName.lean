import TalAnalysis.Proofs.Declaration.Coherence
import TalAnalysis.Proofs.Editor.Outline.Opening

namespace TalAnalysis.Declaration

variable {s : State} {t : Token} {tokens all : List Token} {found : List Finding} {x : Symbol}
  {context : String}

def NamedBy (tokens : List Token) (context : String) : Prop :=
  context = globalContext ∨ ∃ t ∈ tokens, t.kind.isWord = true ∧ context = t.text

def ScopesNamed (tokens : List Token) (scopes : List Scope) : Prop :=
  ∀ scope ∈ scopes, NamedBy tokens scope.name

theorem ScopesNamed.contextOf {scopes : List Scope} (h : ScopesNamed tokens scopes) :
    NamedBy tokens (contextOf scopes) := by
  cases scopes with
  | nil => exact .inl rfl
  | cons scope outer => exact h scope List.mem_cons_self

theorem ScopesNamed.closeBodiless {scopes : List Scope} (h : ScopesNamed tokens scopes)
    (kinds : List ScopeKind) : ScopesNamed tokens (closeBodiless kinds scopes) :=
  fun scope member => h scope ((List.dropWhile_suffix _).subset member)

theorem named_of_mem_step (within : t :: tokens ⊆ all)
    (member : .symbol x ∈ (step s t tokens).findings) (declared : x.kind ≠ .directive) :
    NamedBy all x.name := by
  obtain ⟨u, read, written⟩ := (finds_of_mem member).coherent.written
  have name := written.name.resolve_right fun directive => declared directive.1
  exact .inr ⟨u, within read, written.isWord, name⟩

theorem scopes_of_marksDirective (marks : t.kind.marksDirective = true) :
    (step s t tokens).state.scopes = s.scopes := by
  unfold step
  cases kind : t.kind with
  | directive | directiveLine => rfl
  | _ => exact absurd marks (by rw [kind]; exact Bool.false_ne_true)

theorem step_scopesNamed (scopes : ScopesNamed all s.scopes) (within : t :: tokens ⊆ all) :
    ScopesNamed all (step s t tokens).state.scopes := by
  intro scope member
  by_cases marks : t.kind.marksDirective = true
  · exact scopes scope (scopes_of_marksDirective marks ▸ member)
  · rcases Outline.step_entered member with ⟨old, listed, name⟩ | ⟨y, _, listed, opening, -⟩
    · exact name ▸ scopes old listed
    · have declared : y.kind ≠ .directive := fun directive =>
        marks ((finds_of_mem listed).marksDirective directive)
      have name := (Outline.opens?_cases opening).resolve_right fun both => declared both.1
      exact name ▸ named_of_mem_step within listed declared

theorem context_of_finds (h : Finds s t tokens found x) (scopes : ScopesNamed all s.scopes)
    (named : ∀ y, .symbol y ∈ found → y.kind ≠ .directive → NamedBy all y.name) :
    NamedBy all x.context ∨ x.type = .external := by
  have here : NamedBy all s.context := scopes.contextOf
  cases h with
  | directive _ _ _ own =>
      rcases List.mem_cons.1 own with rfl | section_
      · exact .inl here
      · obtain ⟨_, -, rfl⟩ := List.mem_map.1 section_
        exact .inr rfl
  | define _ _ _ own =>
      left
      rcases DefineItem.mem_findings own with rfl | ⟨_, -, -, rfl⟩ | ⟨_, -, rfl⟩ <;> exact here
  | literal | variable_ | struct => exact .inl here
  | procedure => exact .inl (scopes.closeBodiless _).contextOf
  -- The procedure that a parameter is declared in is found in the same step.
  | parameter _ _ _ own => exact .inl (named _ own (by simp [Symbol.declaredAt]))

theorem findings_named (scopes : ScopesNamed all s.scopes) (within : tokens ⊆ all)
    (member : .symbol x ∈ findings s tokens) : NamedBy all x.context ∨ x.type = .external := by
  fun_induction findings s tokens with
  | case1 => cases member
  | case2 s t rest =>
      rename_i ih
      have later : (step s t rest).rest ⊆ all := fun u read =>
        within (List.mem_cons_of_mem t ((step_suffix s t rest).subset read))
      rcases List.mem_append.1 member with here | there
      · exact context_of_finds (finds_of_mem here) scopes fun y => named_of_mem_step within
      · exact ih (step_scopesNamed scopes within) later there

end TalAnalysis.Declaration
