import TalAnalysis.Analysis
import TalAnalysis.Proofs.Declaration.Layout
import TalAnalysis.Proofs.Declaration.Step
import TalAnalysis.Proofs.Lexer.Rendering

namespace TalAnalysis.Declaration

/-- The value is the text of tokens that follow one another. -/
def WrittenFrom (tokens : List Token) (value : SymbolValue) : Prop :=
  ∃ slice, slice <:+: tokens ∧ value.render = Token.joinText slice

variable {tokens tokens' : List Token} {t : Token} {x : Symbol}

theorem WrittenFrom.mono {value : SymbolValue} (h : WrittenFrom tokens value)
    (part : tokens <:+: tokens') : WrittenFrom tokens' value := by
  obtain ⟨slice, within, text⟩ := h
  exact ⟨slice, within.trans part, text⟩

theorem writtenFrom_none (tokens : List Token) : WrittenFrom tokens .none :=
  ⟨[], List.nil_infix, rfl⟩

theorem joinText_singleton (other : t.kind.isLayout = false) : Token.joinText [t] = t.text := by
  rw [Token.joinText, List.filter_cons_of_pos (by rw [other]; rfl)]
  exact (String.empty_append).trans (String.empty_append)

theorem writtenFrom_token (member : t ∈ tokens) (other : t.kind.isLayout = false) :
    WrittenFrom tokens (.text t.text) := by
  obtain ⟨before, after, rfl⟩ := List.append_of_mem member
  refine ⟨[t], ⟨before, after, ?_⟩, (joinText_singleton other).symm⟩
  rw [List.append_assoc, List.singleton_append]

theorem value_front (depth : Nat) (tokens : List Token) :
    (value depth tokens).inside <+: tokens := by
  fun_induction value depth tokens with
  | case1 => exact List.prefix_refl _
  | case2 => exact List.nil_prefix
  | case3 depth t tokens _ ih => exact (List.prefix_cons_inj t).2 ih

theorem argument_front (wholeLine : Bool) (depth : Nat) (tokens : List Token) :
    (argument wholeLine depth tokens).inside <+: tokens := by
  fun_induction argument wholeLine depth tokens with
  | case1 => exact List.prefix_refl _
  | case2 | case3 => exact List.nil_prefix
  | case4 depth t tokens _ _ _ ih => exact (List.prefix_cons_inj t).2 ih

theorem literalItem_value (name : Token) (tokens : List Token) :
    (literalItem name tokens).1.value <:+: tokens :=
  (value_front _ _).isInfix.trans ((skipEqual_suffix _).trans (skipLayout_suffix _)).isInfix

theorem initial?_within {slice : List Token} (found : (initial? tokens).1 = some slice) :
    slice <:+: tokens := by
  cases tokens with
  | nil => cases found
  | cons t tokens =>
      rw [initial?] at found
      split at found
      · obtain rfl := Option.some.inj found
        exact (value_front _ _).isInfix.trans (List.suffix_cons t tokens).isInfix
      · cases found

theorem variableItem_initial {name : Token} {slice : List Token}
    (found : (variableItem name tokens).1.initial? = some slice) : slice <:+: tokens :=
  (initial?_within found).trans <| List.IsSuffix.isInfix <| (skipLayout_suffix _).trans <|
    (bracketed_suffix _).trans <| (skipLayout_suffix _).trans <|
      (parenthesized_suffix _).trans (skipLayout_suffix _)

theorem directiveItem_argument {name : Token} {text : String}
    (found : (directiveItem name tokens).1.argument? = some text) :
    WrittenFrom tokens (.text text) ∨ ∃ u ∈ tokens, u.kind = .comment ∧ text = u.text := by
  have argument (name : Token) (spelling : String) (wholeLine : Bool)
      (found : (argumentItem name spelling wholeLine tokens).1.argument? = some text) :
      WrittenFrom tokens (.text text) ∨ ∃ u ∈ tokens, u.kind = .comment ∧ text = u.text := by
    simp only [argumentItem, Option.ite_none_left_eq_some, Option.some.injEq] at found
    exact .inl ⟨_, (argument_front _ _ _).isInfix, found.2.symm⟩
  revert found
  fun_cases directiveItem name tokens with
  | case1 =>
      intro found
      simp only [sourceItem, Option.ite_none_left_eq_some, Option.some.injEq] at found
      exact .inl ⟨_, (List.takeWhile_prefix _).isInfix, found.2.symm⟩
  | case2 =>
      intro found
      cases tokens with
      | nil => cases found
      | cons next rest =>
          rw [targetItem] at found
          split at found
          · cases found
          · rename_i other
            obtain rfl := Option.some.inj found
            have onLine : next.kind.endsLine = false :=
              Bool.eq_false_iff.2 fun ends => other (.inl ends)
            cases layout : next.kind.isLayout with
            | false => exact .inl (writtenFrom_token List.mem_cons_self layout)
            | true =>
                refine .inr ⟨next, List.mem_cons_self, ?_, rfl⟩
                rcases kind_of_isLayout layout with kind | kind | kind
                · rw [kind] at onLine
                  cases onLine
                · exact kind
                · rw [kind] at onLine
                  cases onLine
  | case3 =>
      intro found
      cases found
  | case4 | case5 => exact argument _ _ _

/-- Where the value of a symbol comes from: the tokens of its declaration, a comment that stands for
the argument of a TARGET, or the data type before the keyword of a procedure. -/
inductive ValueFrom (tokens : List Token) (x : Symbol) : Prop
  | written (slice : WrittenFrom tokens x.value)
  | comment {u : Token} (member : u ∈ tokens) (comment : u.kind = .comment)
      (value : x.value = .text u.text)
  | result (function : x.kind = .function) (d : DataType) (value : x.value = .text d.spelling)

theorem Finds.valueFrom {s : State} {found : List Finding} (h : Finds s t tokens found x) :
    ValueFrom tokens x := by
  cases h with
  | @directive name rest _ _ _ within own =>
      have part := (List.suffix_cons name rest).trans within
      rcases List.mem_cons.1 own with rfl | section_
      · simp only
        split
        · rename_i text argument
          rcases directiveItem_argument argument with slice | ⟨u, member, comment, rfl⟩
          · exact .written (slice.mono part.isInfix)
          · exact .comment (part.subset member) comment rfl
        · exact .written (writtenFrom_none _)
      · obtain ⟨u, -, rfl⟩ := List.mem_map.1 section_
        exact .written (writtenFrom_none _)
  | @literal name rest _ within =>
      have part := (List.suffix_cons name rest).trans within
      exact .written ⟨_, (literalItem_value name rest).trans part.isInfix, rfl⟩
  | @define name rest _ _ isName within own =>
      rcases DefineItem.mem_findings own with rfl | ⟨u, -, -, rfl⟩ | ⟨body, found, rfl⟩
      · rw [(defineItem_parts name rest).1]
        refine .written (writtenFrom_token (within.subset List.mem_cons_self) ?_)
        refine Bool.eq_false_iff.2 fun layout => ?_
        have noWord := not_isWord_of_isLayout layout
        rw [isWord_of_isName isName] at noWord
        cases noWord
      · exact .written (writtenFrom_none _)
      · have part := (List.suffix_cons name rest).trans within
        exact .written ⟨body, (defineItem_body found).1.trans part.isInfix, rfl⟩
  | @variable_ d name rest _ within =>
      have part := (List.suffix_cons name rest).trans within
      simp only [VariableItem.symbol]
      split
      · rename_i slice initial
        exact .written ⟨slice, (variableItem_initial initial).trans part.isInfix, rfl⟩
      · exact .written (writtenFrom_none _)
  | procedure _ _ _ result =>
      rcases result with rfl | ⟨d, rfl⟩
      · exact .written (writtenFrom_none _)
      · exact .result rfl d rfl
  | parameter => exact .written (writtenFrom_none _)
  | struct => exact .written (writtenFrom_none _)

theorem Finds.writtenFrom {s : State} {found : List Finding}
    (h : Finds s t tokens found x) (noComment : ∀ t ∈ tokens, t.kind.isComment = false)
    (other : x.kind ≠ .function) : WrittenFrom tokens x.value := by
  cases h.valueFrom with
  | written slice => exact slice
  | @comment u member comment =>
      have none := noComment u member
      rw [comment] at none
      cases none
  | result function => exact absurd function other

theorem lex_joinText (source : String) :
    let tokens := (lex source {}).tokens
    (∀ slice, slice <:+: tokens → Token.ReadFrom (Token.joinText slice) slice) ∧
      ∀ x ∈ (analyze source).symbols.symbols, x.kind ≠ .function → ∃ slice, slice <:+: tokens ∧
        x.value.render = Token.joinText slice ∧ Token.ReadFrom x.value.render slice := by
  intro tokens
  refine ⟨fun slice => readFrom_joinText, fun x member other => ?_⟩
  obtain ⟨⟨s, t, rest⟩, listed, found⟩ :=
    mem_findings (Finding.mem_symbols.1 (SymbolTable.mem_ofList member))
  have part : rest <:+ tokens := (List.suffix_cons t rest).trans (mem_steps listed)
  obtain ⟨slice, within, text⟩ := ((finds_of_mem found).writtenFrom
    (fun t member => not_isComment_of_mem (part.subset member)) other).mono part.isInfix
  exact ⟨slice, within, text, text ▸ readFrom_joinText within⟩

end TalAnalysis.Declaration
