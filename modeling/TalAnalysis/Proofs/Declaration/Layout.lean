import Mathlib.Data.List.TakeWhile
import TalAnalysis.Declaration.Extraction

namespace TalAnalysis.Declaration

def OnlyLayout (tokens : List Token) : Prop := ∀ t ∈ tokens, t.kind.isLayout = true

def significant (tokens : List Token) : List Token := tokens.filter fun t => !t.kind.isLayout

variable {tokens after : List Token}

theorem kind_of_isLayout {t : Token} (layout : t.kind.isLayout = true) :
    t.kind = .newLine ∨ t.kind = .comment ∨ t.kind = .lineComment := by
  cases kind : t.kind with
  | newLine => exact .inl rfl
  | comment => exact .inr (.inl rfl)
  | lineComment => exact .inr (.inr rfl)
  | _ => simp [kind, TokenKind.isLayout, TokenKind.isComment] at layout

theorem not_isDelimiter_of_isLayout {t : Token} (layout : t.kind.isLayout = true)
    (d : Delimiter) : t.isDelimiter d = false := by
  rw [Token.isDelimiter]
  rcases kind_of_isLayout layout with kind | kind | kind <;> rw [kind] <;> rfl

theorem not_isWord_of_isLayout {t : Token} (layout : t.kind.isLayout = true) :
    t.kind.isWord = false := by
  rcases kind_of_isLayout layout with kind | kind | kind <;> rw [kind] <;> rfl

theorem isLayout_of_endsLine {t : Token} (ends : t.kind.endsLine = true) :
    t.kind.isLayout = true := by
  cases kind : t.kind with
  | newLine => rfl
  | lineComment => rfl
  | _ => simp [kind, TokenKind.endsLine] at ends

theorem OnlyLayout.nil : OnlyLayout [] := by
  intro t member
  cases member

theorem OnlyLayout.of_suffix {rest : List Token} (layout : OnlyLayout tokens)
    (tail : rest <:+ tokens) : OnlyLayout rest :=
  fun t member => layout t (tail.subset member)

theorem skipLayout_eq_nil_iff : skipLayout tokens = [] ↔ OnlyLayout tokens :=
  List.dropWhile_eq_nil_iff

theorem OnlyLayout.dropWhile_eq_nil {ends : Token → Bool} (layout : OnlyLayout tokens)
    (other : ∀ t : Token, t.kind.isLayout = true → ends t = false) :
    tokens.dropWhile (fun t => !ends t) = [] := by
  apply List.dropWhile_eq_nil_iff.2
  intro t member
  rw [other t (layout t member), Bool.not_false]

theorem OnlyLayout.pastSemicolon_eq_nil (layout : OnlyLayout tokens) :
    pastSemicolon tokens = [] := by
  rw [pastSemicolon, layout.dropWhile_eq_nil fun t h => not_isDelimiter_of_isLayout h .semicolon]
  rfl

theorem pastSemicolon_skipLayout (tokens : List Token) :
    pastSemicolon (skipLayout tokens) = pastSemicolon tokens := by
  induction tokens with
  | nil => rfl
  | cons t tokens ih =>
      cases layout : t.kind.isLayout with
      | true =>
          have other := not_isDelimiter_of_isLayout layout .semicolon
          simpa [skipLayout, pastSemicolon, layout, other] using ih
      | false => simp [skipLayout, layout]

theorem onlyLayout_of_significant (none : significant tokens = []) : OnlyLayout tokens := by
  intro t member
  have dropped := List.filter_eq_nil_iff.1 none t member
  simpa using dropped

theorem skipLayout_of_significant {t : Token} {others : List Token}
    (first : significant tokens = t :: others) :
    ∃ rest, skipLayout tokens = t :: rest ∧ significant rest = others := by
  induction tokens with
  | nil => cases first
  | cons u tokens ih =>
      cases layout : u.kind.isLayout with
      | true =>
          rw [significant, List.filter_cons_of_neg (by simp [layout])] at first
          obtain ⟨rest, next, left⟩ := ih first
          refine ⟨rest, ?_, left⟩
          rw [skipLayout, List.dropWhile_cons_of_pos (by simp [layout])]
          exact next
      | false =>
          rw [significant, List.filter_cons_of_pos (by simp [layout])] at first
          obtain ⟨rfl, left⟩ := List.cons.inj first
          refine ⟨tokens, ?_, left⟩
          rw [skipLayout, List.dropWhile_cons_of_neg (by simp [layout])]

theorem step_of_isLayout {t : Token} (layout : t.kind.isLayout = true) (s : State)
    (tokens : List Token) : step s t tokens = ⟨[], s, tokens⟩ := by
  rcases kind_of_isLayout layout with kind | kind | kind <;> simp only [step, kind]

theorem kind_of_marksDirective {kind : TokenKind} (marks : kind.marksDirective = true) :
    kind = .directive ∨ kind = .directiveLine := by
  cases kind with
  | directive => exact .inl rfl
  | directiveLine => exact .inr rfl
  | _ => cases marks

theorem step_of_marksDirective {t : Token} (marks : t.kind.marksDirective = true) (s : State)
    (tokens : List Token) : step s t tokens = directiveStep s tokens := by
  rcases kind_of_marksDirective marks with kind | kind <;> simp only [step, kind]

theorem findings_cons (s : State) (t : Token) (tokens : List Token) :
    findings s (t :: tokens) = (step s t tokens).findings ++
      findings (step s t tokens).state (step s t tokens).rest := by
  rw [findings]

theorem findings_skipLayout (s : State) (tokens : List Token) :
    findings s (skipLayout tokens) = findings s tokens := by
  induction tokens with
  | nil => rfl
  | cons t tokens ih =>
      cases layout : t.kind.isLayout with
      | true =>
          rw [findings_cons, step_of_isLayout layout, skipLayout,
            List.dropWhile_cons_of_pos (by simp [layout])]
          exact ih
      | false => rw [skipLayout, List.dropWhile_cons_of_neg (by simp [layout])]

theorem findings_of_onlyLayout (s : State) (layout : OnlyLayout tokens) :
    findings s tokens = [] := by
  rw [← findings_skipLayout, skipLayout_eq_nil_iff.2 layout, findings]

end TalAnalysis.Declaration
