import TalAnalysis.Analysis
import TalAnalysis.Proofs.Declaration.Copy.Run
import TalAnalysis.Proofs.Lexer.Comments

namespace TalAnalysis
open Declaration

def commentsAside : TokenCopy where
  leavesOut t := t.kind.isComment
  copy := Token.unmarked
  layout t comment := by simp [TokenKind.isLayout, comment]
  kind t := by
    cases kind : t.kind with
    | directiveLine => exact .inr ⟨rfl, by rw [Token.unmarked, kind]; rfl⟩
    | _ => exact .inl (by rw [Token.unmarked, kind]; rfl)
  text _ := rfl
  gap _ _ := Iff.rfl

theorem tokens_commentsAside (tokens : List Token) :
    commentsAside.tokens tokens = withoutComments tokens := rfl

def SymbolValue.withoutComments : SymbolValue → SymbolValue
  | .none => .none
  | .text t => .text t
  | .tokens ts => .tokens (TalAnalysis.withoutComments ts)

def Symbol.withoutComments (s : Symbol) : Symbol := { s with value := s.value.withoutComments }

theorem value_commentsAside (value : SymbolValue) :
    commentsAside.value value = value.withoutComments := by
  cases value <;> rfl

/-- A symbol that is declared among comments, and the one without them. An argument of a directive
that is nothing but comments may be an empty one or none. -/
def Symbol.Uncommented (s s' : Symbol) : Prop :=
  s' = s.withoutComments ∨
    s.kind = .directive ∧ s.value = .text "" ∧ s' = { s with value := .none }

theorem uncommented_of_copies {s s' : Symbol} (h : commentsAside.SymbolCopies s s') :
    s.Uncommented s' := by
  obtain ⟨key, kind, type, name, context, ⟨t, stands, stands'⟩, value⟩ := h
  have line : s'.line = s.line := stands'.line.trans stands.line.symm
  have startColumn : s'.startColumn = s.startColumn :=
    stands'.startColumn.trans stands.startColumn.symm
  have endColumn : s'.endColumn = s.endColumn := stands'.endColumn.trans stands.endColumn.symm
  have span : s'.span = s.span := stands'.span.trans stands.span.symm
  cases s'
  rcases value with same | ⟨directive, -, empty, none⟩
  · left
    rw [value_commentsAside] at same
    simp_all [Symbol.withoutComments]
  · right
    simp_all

theorem eq_of_diagnosticCopies {d d' : Diagnostic} (h : commentsAside.DiagnosticCopies d d') :
    d = d' := by
  obtain ⟨cause, t, rfl, rfl⟩ := h
  rfl

/-- No comment may stand where it disturbs a step from the tokens. -/
theorem analyze_withoutComments (source : String) (groupNames : Bool)
    (h : commentsAside.Undisturbed {} (lex source { keepComments := true, groupNames }).tokens) :
    let kept := analyze source { keepComments := true, groupNames }
    let dropped := analyze source { keepComments := false, groupNames }
    List.Forall₂ Symbol.Uncommented kept.symbols.symbols dropped.symbols.symbols ∧
      kept.diagnostics = dropped.diagnostics := by
  have found := TokenCopy.findings_tokens h
  have symbols := TokenCopy.ofList_copies (TokenCopy.symbols_of_findings found)
  have diagnostics := (TokenCopy.diagnostics_of_findings found).imp fun _ _ =>
    eq_of_diagnosticCopies
  rw [tokens_commentsAside, withoutComments_kept] at symbols diagnostics
  refine ⟨symbols.imp fun _ _ => uncommented_of_copies, ?_⟩
  rw [List.forall₂_eq_eq_eq] at diagnostics
  exact congrArg ((lex source { keepComments := true, groupNames }).diagnostics ++ ·) diagnostics

def commentedSource : String :=
  "?TARGET TNS, SOURCE lib ! all ! (one,\n? ! x ! two)\nINT .p ! c ! := 3 -- d\n;\n" ++
    "DEFINE d =\n?x ! y ! #;\nPROC f ! g ! (a -- h\n);\nBEGIN END;"

theorem analyze_withoutComments_source :
    commentsAside.Undisturbed {} (lex commentedSource { keepComments := true }).tokens ∧
      let kept := analyze commentedSource { keepComments := true }
      let dropped := analyze commentedSource { keepComments := false }
      List.Forall₂ Symbol.Uncommented kept.symbols.symbols dropped.symbols.symbols ∧
        kept.diagnostics = dropped.diagnostics := by
  have undisturbed :
      commentsAside.Undisturbed {} (lex commentedSource { keepComments := true }).tokens := by
    decide +kernel
  exact ⟨undisturbed, analyze_withoutComments commentedSource false undisturbed⟩

def Symbol.lessComments (s : Symbol) : Symbol :=
  match s.value with
  | .tokens ts => { s with value := .tokens (ts.filter fun t => !t.kind.isComment) }
  | _ => s

/-- Among the tokens of a body, a `?` that opens its line stays apart from any other. -/
theorem analyze_define_mark :
    let source := "DEFINE d =\n?x #;"
    (analyze source { keepComments := true }).symbols.symbols.map Symbol.lessComments ≠
      (analyze source { keepComments := false }).symbols.symbols := by
  decide +kernel

end TalAnalysis
