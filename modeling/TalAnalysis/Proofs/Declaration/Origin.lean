import Mathlib.Data.List.TakeWhile
import TalAnalysis.Declaration.Extraction
import TalAnalysis.Proofs.Declaration.Word

namespace TalAnalysis.Declaration

variable {tokens rest : List Token} {t : Token}

theorem inside_sublist (opening closing : Delimiter) (depth : Nat) (tokens : List Token) :
    (inside opening closing depth tokens).inside.Sublist tokens := by
  fun_induction inside opening closing depth tokens with
  | case1 => exact .slnil
  | case3 => exact List.nil_sublist _
  | case5 depth t tokens opens closes separates ih => exact ih.cons t
  | case2 depth t tokens opens ih => exact ih.cons_cons t
  | case4 t tokens opens closes depth ih => exact ih.cons_cons t
  | case6 depth t tokens opens closes other ih => exact ih.cons_cons t

theorem between_sublist (opening closing : Delimiter) (tokens : List Token) :
    (between opening closing tokens).inside.Sublist tokens := by
  cases tokens with
  | nil => exact .slnil
  | cons t tokens =>
      rw [between]
      split
      · exact (inside_sublist opening closing 0 tokens).cons t
      · exact List.nil_sublist _

theorem mem_sections {depth : Nat} (member : t ∈ (sections depth tokens).inside) :
    t ∈ tokens ∧ t.kind.isWord = true := by
  fun_induction sections depth tokens with
  | case1 => cases member
  | case2 => cases member
  | case3 depth u ends marker rest marks ih =>
      exact (ih member).imp_left fun later =>
        List.mem_cons_of_mem u (List.mem_cons_of_mem marker later)
  | case4 => cases member
  | case5 depth u tokens line opens ih => exact (ih member).imp_left (List.mem_cons_of_mem u)
  | case6 => cases member
  | case7 u tokens line opens closes depth ih => exact (ih member).imp_left (List.mem_cons_of_mem u)
  | case8 depth u tokens line opens closes word ih =>
      rcases List.mem_cons.1 member with rfl | later
      · exact ⟨List.mem_cons_self, word.1⟩
      · exact (ih later).imp_left (List.mem_cons_of_mem u)
  | case9 depth u tokens line opens closes other ih =>
      exact (ih member).imp_left (List.mem_cons_of_mem u)

section Lists

variable {α : Type} {item : Token → List Token → α × List Token}
  {tail : ∀ name tokens, (item name tokens).2 <:+ tokens} {x : α}

theorem mem_namedItems (member : x ∈ (namedItems item tail tokens).items) :
    ∃ name rest, name :: rest <:+ tokens ∧ name.kind.isName = true ∧ x = (item name rest).1 := by
  fun_induction namedItems item tail tokens with
  | case1 => cases member
  | case2 tokens name rest found isName _ rest' more ih =>
      have front : name :: rest <:+ tokens := found ▸ fromName_suffix tokens
      rcases List.mem_cons.1 member with rfl | later
      · exact ⟨name, rest, front, isName, rfl⟩
      · have left : rest' <:+ (item name rest).2 := by
          have := listEnd_suffix (item name rest).2
          rwa [more] at this
        obtain ⟨name', rest'', within, isName', same⟩ := ih later
        have passed := left.trans ((tail name rest).trans (List.suffix_cons name rest))
        exact ⟨name', rest'', within.trans (passed.trans front), isName', same⟩
  | case3 tokens name rest found isName _ rest' more =>
      obtain rfl := List.mem_singleton.1 member
      exact ⟨name, rest, found ▸ fromName_suffix tokens, isName, rfl⟩
  | case4 tokens name rest found isName _ rest' more =>
      obtain rfl := List.mem_singleton.1 member
      exact ⟨name, rest, found ▸ fromName_suffix tokens, isName, rfl⟩
  | case5 => cases member

end Lists

theorem mem_variableItems {x : VariableItem} (member : x ∈ (variableItems tokens).items) :
    ∃ name rest, name :: rest <:+ tokens ∧ name.kind.isName = true ∧
      x = (variableItem name rest).1 := by
  have front {tokens rest : List Token} {name : Token}
      (found : skipPointers (skipLayout tokens) = name :: rest) : name :: rest <:+ tokens :=
    found ▸ (skipPointers_suffix _).trans (skipLayout_suffix tokens)
  fun_induction variableItems tokens with
  | case1 => cases member
  | case2 tokens name rest found isName item rest' more _ _ ih =>
      rcases List.mem_cons.1 member with rfl | later
      · exact ⟨name, rest, front found, isName, rfl⟩
      · have left : rest' <:+ (variableItem name rest).2 := by
          have := listEnd_suffix (variableItem name rest).2
          rwa [more] at this
        obtain ⟨name', rest'', within, isName', same⟩ := ih later
        have passed :=
          left.trans ((variableItem_suffix name rest).trans (List.suffix_cons name rest))
        exact ⟨name', rest'', within.trans (passed.trans (front found)), isName', same⟩
  | case3 tokens name rest found isName item rest' more =>
      obtain rfl := List.mem_singleton.1 member
      exact ⟨name, rest, front found, isName, rfl⟩
  | case4 tokens name rest found isName item rest' more =>
      obtain rfl := List.mem_singleton.1 member
      exact ⟨name, rest, front found, isName, rfl⟩
  | case5 => cases member

theorem mem_of_missing (missing : (variableItems tokens).missing? = some t) : t ∈ tokens := by
  have front {tokens rest : List Token} {name : Token}
      (found : skipPointers (skipLayout tokens) = name :: rest) : name :: rest <:+ tokens :=
    found ▸ (skipPointers_suffix _).trans (skipLayout_suffix tokens)
  fun_induction variableItems tokens with
  | case1 => cases missing
  | case2 tokens name rest found isName item rest' more _ _ ih =>
      have left : rest' <:+ (variableItem name rest).2 := by
        have := listEnd_suffix (variableItem name rest).2
        rwa [more] at this
      have passed :=
        left.trans ((variableItem_suffix name rest).trans (List.suffix_cons name rest))
      exact (passed.trans (front found)).subset (ih missing)
  | case3 => cases missing
  | case4 => cases missing
  | case5 tokens name rest found =>
      split at missing
      · cases missing
      · obtain rfl := Option.some.inj missing
        exact (front found).subset List.mem_cons_self

theorem mem_directiveLine {x : DirectiveItem} (member : x ∈ (directiveLine tokens).1) :
    ∃ t rest, t :: rest <:+ tokens ∧ t.kind.isWord = true ∧ x = (directiveItem t rest).1 := by
  fun_induction directiveLine tokens with
  | case1 => cases member
  | case2 => cases member
  | case3 t rest line word _ others ih =>
      rcases List.mem_cons.1 member with rfl | later
      · exact ⟨t, rest, List.suffix_refl _, word, rfl⟩
      · obtain ⟨t', rest', within, word', same⟩ := ih later
        have passed := (directiveItem_suffix t rest).trans (List.suffix_cons t rest)
        exact ⟨t', rest', within.trans passed, word', same⟩
  | case4 t rest line other ih =>
      obtain ⟨t', rest', within, word', same⟩ := ih member
      exact ⟨t', rest', within.trans (List.suffix_cons t rest), word', same⟩

theorem defineItem_parameters (name : Token) (tokens : List Token) :
    (defineItem name tokens).1.parameters.Sublist tokens := by
  rw [(defineItem_parts name tokens).2]
  exact (between_sublist _ _ _).trans (skipLayout_suffix tokens).sublist

theorem defineItem_body {name : Token} {body : List Token}
    (found : (defineItem name tokens).1.body? = some body) :
    body <:+: tokens ∧ ∀ t ∈ body, t.isDelimiter .hash = false := by
  have left := (List.dropWhile_suffix (l := (parenthesized (skipLayout tokens)).rest)
    fun t => !(t.isDelimiter .equal || t.isDelimiter .semicolon)).trans
      ((parenthesized_suffix _).trans (skipLayout_suffix tokens))
  revert found
  fun_cases defineItem name tokens with
  | case1 => intro found; cases found
  | case2 parameters from? t rest stop equal =>
      intro found
      obtain rfl := Option.some.inj found
      have whole : rest <:+ tokens := (List.suffix_cons t rest).trans (stop ▸ left)
      refine ⟨(List.takeWhile_prefix _).isInfix.trans whole.isInfix, fun u member => ?_⟩
      simpa using List.mem_takeWhile_imp member
  | case3 => intro found; cases found

theorem directiveItem_name (t : Token) (tokens : List Token) :
    (directiveItem t tokens).1.token = t ∧ ((directiveItem t tokens).1.name = t.text ∨
      ∃ d, Directive.ofSpelling? t.text = some d ∧
        (directiveItem t tokens).1.name = d.spelling) := by
  fun_cases directiveItem t tokens with
  | case1 known => exact ⟨rfl, .inr ⟨_, known, rfl⟩⟩
  | case2 known =>
      fun_cases targetItem t tokens <;> exact ⟨rfl, .inr ⟨_, known, rfl⟩⟩
  | case3 d _ _ known => exact ⟨rfl, .inr ⟨d, known, rfl⟩⟩
  | case4 d _ _ known => exact ⟨rfl, .inr ⟨d, known, rfl⟩⟩
  | case5 => exact ⟨rfl, .inl rfl⟩

theorem mem_directiveItem_sections {u : Token}
    (member : u ∈ (directiveItem t tokens).1.sections) : u ∈ tokens ∧ u.kind.isWord = true := by
  revert member
  fun_cases directiveItem t tokens with
  | case1 =>
      intro member
      simp only [sourceItem] at member
      split at member
      · obtain ⟨within, word⟩ := mem_sections member
        have left := List.dropWhile_suffix (l := tokens) fun t => !endsFile t
        exact ⟨left.subset ((List.tail_suffix _).subset within), word⟩
      · cases member
  | case2 =>
      fun_cases targetItem t tokens <;> (intro member; cases member)
  | case3 => intro member; cases member
  | case4 => intro member; cases member
  | case5 => intro member; cases member

theorem mem_parameterNames {depth : Nat} (member : t ∈ parameterNames depth tokens) :
    t ∈ tokens ∧ t.kind.isName = true := by
  fun_induction parameterNames depth tokens with
  | case1 => cases member
  | case2 depth u tokens deeper named ih =>
      rcases List.mem_cons.1 member with rfl | later
      · exact ⟨List.mem_cons_self, named.2⟩
      · exact (ih later).imp_left (List.mem_cons_of_mem u)
  | case3 depth u tokens deeper other ih => exact (ih member).imp_left (List.mem_cons_of_mem u)

theorem procedureHeader_name {name : Token} (named : (procedureHeader tokens).name? = some name) :
    name ∈ tokens ∧ name.kind.isName = true := by
  rw [procedureHeader] at named
  cases found : skipLayout tokens with
  | nil => simp [found] at named
  | cons u rest =>
      rw [found] at named
      simp only at named
      split at named
      · obtain rfl := Option.some.inj named
        refine ⟨(skipLayout_suffix tokens).subset (found ▸ List.mem_cons_self), ‹_›⟩
      · cases named

theorem procedureHeader_parameters (tokens : List Token) :
    (procedureHeader tokens).parameters.Sublist tokens := by
  rw [procedureHeader]
  cases found : skipLayout tokens with
  | nil => exact List.nil_sublist _
  | cons name rest =>
      simp only
      split
      · have left : rest <:+ tokens :=
          (List.suffix_cons name rest).trans (found ▸ skipLayout_suffix tokens)
        exact (between_sublist _ _ _).trans ((skipLayout_suffix rest).trans left).sublist
      · exact List.nil_sublist _

theorem structureHeader_name {name : Token} (named : (structureHeader tokens).name? = some name) :
    name ∈ tokens ∧ name.kind.isName = true := by
  rw [structureHeader] at named
  cases found : skipPointers (skipLayout tokens) with
  | nil => simp [found] at named
  | cons u rest =>
      rw [found] at named
      simp only at named
      split at named
      · obtain rfl := Option.some.inj named
        have left := (skipPointers_suffix _).trans (skipLayout_suffix tokens)
        exact ⟨left.subset (found ▸ List.mem_cons_self), ‹_›⟩
      · cases named

end TalAnalysis.Declaration
