import TalAnalysis.Analysis
import TalAnalysis.Proofs.Declaration.Copy.Run

namespace TalAnalysis

def SymbolValue.significant : SymbolValue → SymbolValue
  | .none => .none
  | .text t => .text t
  | .tokens ts => .tokens (Declaration.significant ts)

def Symbol.significant (s : Symbol) : Symbol := { s with value := s.value.significant }

namespace Declaration

def layoutAside : TokenCopy where
  leavesOut t := t.kind.isLayout
  copy := id
  layout _ layout := layout
  kind _ := .inl rfl
  text _ := rfl
  gap _ _ := Iff.rfl

theorem tokens_layoutAside (tokens : List Token) :
    layoutAside.tokens tokens = significant tokens := List.map_id _

theorem value_layoutAside (value : SymbolValue) : layoutAside.value value = value.significant := by
  cases value with
  | tokens ts => exact congrArg SymbolValue.tokens (tokens_layoutAside ts)
  | _ => rfl

theorem eq_significant_of_copies {s s' : Symbol} (h : layoutAside.SymbolCopies s s')
    (other : s.kind ≠ .directive) : s' = s.significant := by
  obtain ⟨key, kind, type, name, context, ⟨t, stands, stands'⟩, value⟩ := h
  have line : s'.line = s.line := stands'.line.trans stands.line.symm
  have startColumn : s'.startColumn = s.startColumn :=
    stands'.startColumn.trans stands.startColumn.symm
  have endColumn : s'.endColumn = s.endColumn := stands'.endColumn.trans stands.endColumn.symm
  have span : s'.span = s.span := stands'.span.trans stands.span.symm
  have value : s'.value = s.value.significant :=
    (value.resolve_right fun h => other h.1).trans (value_layoutAside s.value)
  cases s'
  simp_all [Symbol.significant]

theorem eq_map_significant {symbols symbols' : List Symbol}
    (h : List.Forall₂ layoutAside.SymbolCopies symbols symbols')
    (other : ∀ s ∈ symbols, s.kind ≠ .directive) : symbols' = symbols.map Symbol.significant := by
  induction h with
  | nil => rfl
  | cons first _ ih =>
      obtain ⟨here, later⟩ := List.forall_mem_cons.1 other
      rw [List.map_cons, eq_significant_of_copies first here, ih later]

theorem not_directive_of_mem {tokens : List Token} {s : Symbol}
    (plain : ∀ t ∈ tokens, t.kind.marksDirective = false)
    (member : s ∈ (extract tokens).symbols.symbols) : s.kind ≠ .directive := by
  intro directive
  obtain ⟨x, listed, found⟩ := mem_findings (Finding.mem_symbols.1 (SymbolTable.mem_ofList member))
  have marks := (finds_of_mem found).marksDirective directive
  have within := (mem_steps listed).subset List.mem_cons_self
  rw [plain _ within] at marks
  cases marks

/-- No layout stands where a declaration looks for a name. -/
def NamesAttached (tokens : List Token) : Prop :=
  ∀ place ∈ namePlaces {} tokens, ∀ t ∈ place.head?, t.kind.isLayout = false

instance (tokens : List Token) : Decidable (NamesAttached tokens) :=
  inferInstanceAs (Decidable (∀ place ∈ _, ∀ t ∈ _, _))

theorem extract_significant (tokens : List Token)
    (plain : ∀ t ∈ tokens, t.kind.marksDirective = false) (attached : NamesAttached tokens) :
    (extract (significant tokens)).symbols.symbols =
        (extract tokens).symbols.symbols.map Symbol.significant ∧
      (extract (significant tokens)).diagnostics = (extract tokens).diagnostics := by
  have read : ∀ x ∈ steps {} tokens, layoutAside.StepRead x.1 x.2.1 x.2.2 := by
    rintro ⟨s, t, rest⟩ listed
    refine ⟨fun marks => ?_, fun place member u first => ?_⟩
    · rw [plain t ((mem_steps listed).subset List.mem_cons_self)] at marks
      cases marks
    · exact attached place (List.mem_flatMap.2 ⟨_, listed, member⟩) u first
  have found := TokenCopy.findings_tokens_of_steps read
  have symbols := TokenCopy.ofList_copies (TokenCopy.symbols_of_findings found)
  have diagnostics := TokenCopy.diagnostics_of_findings found
  rw [tokens_layoutAside] at symbols diagnostics
  constructor
  · exact eq_map_significant symbols fun s member => not_directive_of_mem plain member
  · refine (List.forall₂_eq_eq_eq ▸ diagnostics.imp ?_ : _ = _).symm
    rintro _ _ ⟨cause, t, rfl, rfl⟩
    rfl

def spacedSource : String :=
  "LITERAL\n a\n =\n 1;\nINT\n .p\n := 3\n, q;\nSTRUCT\n .s\n (*);\nBEGIN END;\n" ++
    "DEFINE d =\nx\n#;\nPROC f\n (a\n);\nBEGIN END;"

theorem extract_significant_source :
    let tokens := (lex spacedSource {}).tokens
    ((∀ t ∈ tokens, t.kind.marksDirective = false) ∧ NamesAttached tokens) ∧
      (extract (significant tokens)).symbols.symbols =
          (extract tokens).symbols.symbols.map Symbol.significant ∧
        (extract (significant tokens)).diagnostics = (extract tokens).diagnostics := by
  intro tokens
  have plain : ∀ t ∈ tokens, t.kind.marksDirective = false := by decide +kernel
  have attached : NamesAttached tokens := by decide +kernel
  exact ⟨⟨plain, attached⟩, extract_significant tokens plain attached⟩

/-- A line end after the mark of a pointer is taken for the name, which is then missing. -/
example :
    let tokens := (lex "INT .\nx;" {}).tokens
    (extract tokens).symbols.symbols = [] ∧ (extract tokens).diagnostics.length = 1 ∧
      (extract (significant tokens)).symbols.symbols.map Symbol.name = ["x"] ∧
        (extract (significant tokens)).diagnostics = [] := by
  decide +kernel

end Declaration
end TalAnalysis
