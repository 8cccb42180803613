import TalAnalysis.Editor.Outline
import TalAnalysis.Proofs.Declaration.Step

namespace TalAnalysis.Outline
open Declaration

/-- The context is the global one, or the symbols open it from there on. -/
inductive Rooted (symbols : List Symbol) : String → Prop
  | global : Rooted symbols globalContext
  | inner {s : Symbol} {context : String} (member : s ∈ symbols) (opening : opens? s = some context)
      (outer : Rooted symbols s.context) : Rooted symbols context

variable {symbols symbols' : List Symbol} {s : State} {t : Token} {tokens : List Token}
  {found : List Finding} {x : Symbol} {context : String}

theorem Rooted.mono (h : Rooted symbols context) (more : symbols ⊆ symbols') :
    Rooted symbols' context := by
  induction h with
  | global => exact .global
  | inner member opening _ ih => exact .inner (more member) opening ih

theorem opens?_cases {s : Symbol} {context : String} (opening : opens? s = some context) :
    context = s.name ∨ s.kind = .directive ∧ s.value = .text context := by
  unfold opens? at opening
  split at opening
  · exact .inl (Option.some.inj opening).symm
  · exact .inl (Option.some.inj opening).symm
  · exact .inl (Option.some.inj opening).symm
  · cases opening
  · rename_i directive
    split at opening
    · refine .inr ⟨directive, ?_⟩
      generalize s.value = value at opening ⊢
      cases value with
      | text file => exact congrArg _ (Option.some.inj opening)
      | none | tokens => cases opening
    · cases opening
  · cases opening

def ScopesRooted (symbols : List Symbol) (scopes : List Scope) : Prop :=
  ∀ scope ∈ scopes, Rooted symbols scope.name

theorem ScopesRooted.mono {scopes : List Scope} (h : ScopesRooted symbols scopes)
    (more : symbols ⊆ symbols') : ScopesRooted symbols' scopes :=
  fun scope member => (h scope member).mono more

theorem ScopesRooted.contextOf {scopes : List Scope} (h : ScopesRooted symbols scopes) :
    Rooted symbols (contextOf scopes) := by
  cases scopes with
  | nil => exact .global
  | cons scope outer => exact h scope List.mem_cons_self

theorem ScopesRooted.closeBodiless {scopes : List Scope} (h : ScopesRooted symbols scopes)
    (kinds : List ScopeKind) : ScopesRooted symbols (closeBodiless kinds scopes) :=
  fun scope member => h scope ((List.dropWhile_suffix _).subset member)

theorem directiveItem_of_section {u : Token}
    (member : u ∈ (directiveItem t tokens).1.sections) :
    (directiveItem t tokens).1.name = Directive.spelling .source ∧
      ((directiveItem t tokens).1.file = "" ∨
        (directiveItem t tokens).1.argument? = some (directiveItem t tokens).1.file) := by
  revert member
  fun_cases directiveItem t tokens with
  | case1 =>
      intro _
      refine ⟨rfl, ?_⟩
      simp only [sourceItem]
      split
      · left
        simpa using ‹String.isEmpty _ = true›
      · exact .inr rfl
  | case2 =>
      fun_cases targetItem t tokens <;> (intro member; cases member)
  | case3 | case4 | case5 => intro member; cases member

theorem rooted_of_mem_directive {u : Token} (outer : Rooted symbols context)
    (own : x ∈ (directiveItem u tokens).1.symbols context)
    (all : ∀ y ∈ (directiveItem u tokens).1.symbols context, y ∈ symbols) :
    Rooted symbols x.context ∨ x.context = "" := by
  rcases List.mem_cons.1 own with rfl | section_
  · exact .inl outer
  · obtain ⟨v, listed, rfl⟩ := List.mem_map.1 section_
    obtain ⟨name, file | argument⟩ := directiveItem_of_section listed
    · exact .inr file
    · refine .inl (.inner (all _ List.mem_cons_self) ?_ outer)
      simp only [opens?, name, argument]
      rfl

theorem rooted_of_finds (h : Finds s t tokens found x)
    (scopes : ScopesRooted symbols s.scopes)
    (listed : ∀ y, .symbol y ∈ found → y ∈ symbols) :
    Rooted symbols x.context ∨ x.context = "" := by
  have here : Rooted symbols s.context := scopes.contextOf
  cases h with
  | directive _ _ _ own all =>
      exact rooted_of_mem_directive here own fun y member => listed y (all y member)
  | define _ _ _ own =>
      left
      rcases DefineItem.mem_findings own with rfl | ⟨_, -, -, rfl⟩ | ⟨_, -, rfl⟩ <;> exact here
  | literal | variable_ | struct => exact .inl here
  | procedure _ _ opens => exact .inl (scopes.closeBodiless _).contextOf
  | @parameter name u type kinds value _ _ opens own =>
      refine .inl (.inner (listed _ own) ?_ (scopes.closeBodiless kinds).contextOf)
      rcases opens with rfl | rfl <;> rfl

def Entered (s : State) (found : List Finding) (scope : Scope) : Prop :=
  (∃ old ∈ s.scopes, old.name = scope.name) ∨
    ∃ x kinds, .symbol x ∈ found ∧ opens? x = some scope.name ∧
      x.context = contextOf (closeBodiless kinds s.scopes)

theorem entered_of_mem {scope : Scope} (member : scope ∈ s.scopes) : Entered s found scope :=
  .inl ⟨scope, member, rfl⟩

theorem mem_of_mem_leave {scopes : List Scope} {scope : Scope} (member : scope ∈ leave scopes) :
    scope ∈ scopes := by
  match scopes with
  | [] | [_] => exact member
  | _ :: _ :: _ => exact List.mem_cons_of_mem _ member

theorem entered_openBlock {scope : Scope} (member : scope ∈ s.openBlock.scopes) :
    Entered s found scope := by
  rw [State.openBlock] at member
  cases scopes : s.scopes with
  | nil =>
      rw [scopes] at member
      cases member
  | cons first outer =>
      simp only [scopes] at member
      split at member
      · rcases List.mem_cons.1 member with rfl | member
        · exact .inl ⟨first, scopes ▸ List.mem_cons_self, rfl⟩
        · exact entered_of_mem (scopes ▸ List.mem_cons_of_mem first member)
      · exact entered_of_mem (scopes ▸ member)

theorem entered_closeBlock {scope : Scope} (member : scope ∈ s.closeBlock.scopes) :
    Entered s found scope := by
  simp only [State.closeBlock] at member
  split at member
  · exact entered_of_mem (mem_of_mem_leave member)
  · exact entered_of_mem member

theorem entered_bodyElsewhere {scope : Scope} (member : scope ∈ s.bodyElsewhere.scopes) :
    Entered s found scope := by
  simp only [State.bodyElsewhere] at member
  split at member
  · exact entered_of_mem (mem_of_mem_leave member)
  · exact entered_of_mem member

theorem closeBodiless_nil (scopes : List Scope) : closeBodiless [] scopes = scopes := by
  cases scopes <;> simp [closeBodiless]

theorem scopes_afterList (s : State) (closed : Bool) : (s.afterList closed).scopes = s.scopes := by
  cases closed <;> rfl

theorem entered_procedureStep {result? : Option DataType} {scope : Scope}
    (member : scope ∈ (procedureStep s result? tokens).state.scopes) :
    Entered s (procedureStep s result? tokens).findings scope := by
  cases tokens with
  | nil => exact entered_of_mem member
  | cons keyword tokens =>
      rw [procedureStep.eq_def] at member ⊢
      cases named : (procedureHeader tokens).name? with
      | none =>
          simp only [named] at member
          exact entered_of_mem ((List.dropWhile_suffix _).subset member)
      | some name =>
          simp only [named] at member ⊢
          rcases List.mem_cons.1 member with rfl | member
          · refine .inr ⟨_, _, List.mem_map.2 ⟨_, List.mem_cons_self, rfl⟩, ?_, rfl⟩
            cases keyword.isKeyword .subproc <;> rfl
          · exact entered_of_mem ((List.dropWhile_suffix _).subset member)

theorem entered_structureStep {keyword : Token} {scope : Scope}
    (member : scope ∈ (structureStep s keyword tokens).state.scopes) :
    Entered s (structureStep s keyword tokens).findings scope := by
  rw [structureStep] at member ⊢
  cases named : (structureHeader tokens).name? with
  | none =>
      simp only [named] at member
      exact entered_of_mem member
  | some name =>
      simp only [named] at member ⊢
      split at member
      · rcases List.mem_cons.1 member with rfl | member
        · refine .inr ⟨_, [], List.mem_singleton_self _, rfl, ?_⟩
          rw [closeBodiless_nil]
          rfl
        · exact entered_of_mem member
      · exact entered_of_mem member

theorem step_entered {scope : Scope} (member : scope ∈ (step s t tokens).state.scopes) :
    Entered s (step s t tokens).findings scope := by
  revert member
  unfold step
  split
  case h_6 => exact fun member => entered_of_mem (scopes_afterList s _ ▸ member)
  case h_7 => exact fun member => entered_of_mem (scopes_afterList s _ ▸ member)
  case h_8 | h_9 => exact entered_procedureStep
  case h_10 => exact entered_structureStep
  case h_11 => exact entered_openBlock
  case h_12 =>
    rw [endStep]
    split
    · exact entered_of_mem
    · exact entered_closeBlock
  case h_13 | h_14 => exact entered_bodyElsewhere
  case h_16 =>
    split
    · split
      · exact entered_procedureStep
      · exact fun member => entered_of_mem (scopes_afterList s _ ▸ member)
    · exact entered_of_mem
  all_goals exact entered_of_mem

theorem Entered.rooted {scope : Scope} (h : Entered s found scope)
    (scopes : ScopesRooted symbols s.scopes) (listed : ∀ y, .symbol y ∈ found → y ∈ symbols) :
    Rooted symbols scope.name := by
  rcases h with ⟨old, member, name⟩ | ⟨x, kinds, member, opening, context⟩
  · exact name ▸ scopes old member
  · exact .inner (listed x member) opening (context ▸ (scopes.closeBodiless kinds).contextOf)

theorem findings_rooted {before : List Symbol} (scopes : ScopesRooted before s.scopes)
    (member : .symbol x ∈ findings s tokens) :
    Rooted (before ++ (findings s tokens).filterMap Finding.symbol?) x.context ∨
      x.context = "" := by
  fun_induction findings s tokens generalizing before with
  | case1 => cases member
  | case2 s t rest =>
      rename_i ih
      let here := before ++ (step s t rest).findings.filterMap Finding.symbol?
      have more : before ⊆ here := List.subset_append_left _ _
      have listed (y : Symbol) (found : .symbol y ∈ (step s t rest).findings) : y ∈ here :=
        List.mem_append_right _ (Finding.mem_symbols.2 found)
      have within := scopes.mono more
      have later : ScopesRooted here (step s t rest).state.scopes :=
        fun scope member => (step_entered member).rooted within listed
      rw [List.filterMap_append, ← List.append_assoc]
      rcases List.mem_append.1 member with found | found
      · refine (rooted_of_finds (finds_of_mem found) within listed).imp_left fun rooted => ?_
        exact rooted.mono (List.subset_append_left _ _)
      · exact ih later found

end TalAnalysis.Outline
