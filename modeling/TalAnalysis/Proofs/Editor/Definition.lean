import TalAnalysis.Proofs.Editor.Range
import TalAnalysis.Proofs.Lexer.Joined

namespace TalAnalysis.SymbolTable

variable {table : SymbolTable} {name : String} {offset : Nat} {s : Symbol}

theorem mem_candidates :
    s ∈ table.candidates name ↔
      s ∈ table.symbols ∧ sameWord s.name name = true ∧ s.key.suffix ≠ .body := by
  rw [candidates, named, List.mem_filter, List.mem_filter, and_assoc, bne_iff_ne]

variable {choose : Option Symbol → Symbol → Option Symbol} {symbols : List Symbol}

theorem mem_of_foldl_choose (chooses : ∀ best s, choose best s = best ∨ choose best s = some s)
    {best : Option Symbol} (found : symbols.foldl choose best = some s) :
    best = some s ∨ s ∈ symbols := by
  induction symbols generalizing best with
  | nil => exact .inl found
  | cons first symbols ih =>
      rcases ih found with here | member
      · rcases chooses best first with same | same
        · exact .inl (same ▸ here)
        · obtain rfl := Option.some.inj (same.symm.trans here)
          exact .inr List.mem_cons_self
      · exact .inr (List.mem_cons_of_mem first member)

theorem isSome_foldl_choose (settles : ∀ best s, (choose best s).isSome = true)
    {best : Option Symbol} (h : best.isSome = true ∨ symbols ≠ []) :
    (symbols.foldl choose best).isSome = true := by
  induction symbols generalizing best with
  | nil => exact h.resolve_right (not_not_intro rfl)
  | cons first symbols ih => exact ih (.inl (settles best first))

theorem later_chooses (best : Option Symbol) (s : Symbol) :
    later best s = best ∨ later best s = some s := by
  fun_cases later best s <;> simp

theorem earlier_chooses (best : Option Symbol) (s : Symbol) :
    earlier best s = best ∨ earlier best s = some s := by
  fun_cases earlier best s <;> simp

theorem earlier_settles (best : Option Symbol) (s : Symbol) :
    (earlier best s).isSome = true := by
  fun_cases earlier best s <;> rfl

theorem mem_candidates_of_definition? (found : table.definition? name offset = some s) :
    s ∈ table.candidates name := by
  rcases Option.or_eq_some_iff.1 found with before | ⟨-, first⟩
  · have member := (mem_of_foldl_choose later_chooses before).resolve_left nofun
    exact List.mem_of_mem_filter member
  · exact (mem_of_foldl_choose earlier_chooses first).resolve_left nofun

theorem exists_definition? (member : s ∈ table.candidates name) (offset : Nat) :
    ∃ found, table.definition? name offset = some found := by
  have some : ((table.candidates name).foldl earlier none).isSome = true :=
    isSome_foldl_choose earlier_settles (.inr (List.ne_nil_of_mem member))
  rw [← Option.isSome_iff_exists, definition?, Option.isSome_or, some, Bool.or_true]

end TalAnalysis.SymbolTable

namespace TalAnalysis

theorem Symbol.WrittenAs.sameWord {s : Symbol} {t : Token} (h : s.WrittenAs t) :
    sameWord t.text s.name = true := by
  rcases h.name with same | ⟨-, d, known, same⟩
  · rw [same, sameWord_refl]
  · rw [same]
    exact Directive.ofSpelling?_eq_some_iff.1 known

theorem sameWord_trans {a b c : String} (one : sameWord a b = true) (two : sameWord b c = true) :
    sameWord a c = true :=
  sameWord_iff.2 ((sameWord_iff.1 one).trans (sameWord_iff.1 two))

end TalAnalysis

namespace TalAnalysis.Editor
open Text Server

variable {source : String} {options : LexOptions}

theorem exists_word_of_symbol {s : Symbol}
    (member : s ∈ (analyze source options).symbols.symbols) :
    ∃ t ∈ (lex source options).tokens, s.WrittenAs t := by
  have listed := Declaration.Finding.mem_symbols.1 (SymbolTable.mem_ofList member)
  exact ((Declaration.findings_coherent {} _).symbols s listed).written

theorem definitionAnswer_some {uri : String} {d : Document} {position : Position} {t : Token}
    {s : Symbol} (under : wordAt? d.source d.analysis.tokens position = some t)
    (found : d.analysis.symbols.definition? t.text t.span.start = some s) :
    definitionAnswer uri d position = .definition uri (rangeOf d.source s.span) := by
  rw [definitionAnswer, under]
  simp only [found]

theorem definitionAnswer_none {uri : String} {d : Document} {position : Position} {t : Token}
    (under : wordAt? d.source d.analysis.tokens position = some t)
    (absent : d.analysis.symbols.definition? t.text t.span.start = none) :
    definitionAnswer uri d position = .nothing := by
  rw [definitionAnswer, under]
  simp only [absent]

theorem exists_of_definitionAnswer {uri uri' : String} {d : Document} {position : Position}
    {range : TextRange} (answered : definitionAnswer uri d position = .definition uri' range) :
    uri' = uri ∧ ∃ t, wordAt? d.source d.analysis.tokens position = some t ∧
      ∃ s, d.analysis.symbols.definition? t.text t.span.start = some s ∧
        range = rangeOf d.source s.span := by
  cases under : wordAt? d.source d.analysis.tokens position with
  | none => simp [definitionAnswer, under] at answered
  | some t =>
      cases found : d.analysis.symbols.definition? t.text t.span.start with
      | none =>
          rw [definitionAnswer_none under found] at answered
          cases answered
      | some s =>
          rw [definitionAnswer_some under found] at answered
          obtain ⟨rfl, rfl⟩ := Answer.definition.inj answered
          exact ⟨rfl, t, rfl, s, found, rfl⟩

/-- The range in an answer fits in words of 32 bits if the source has less than 2³² bytes. -/
theorem fitsWord_definitionAnswer {uri uri' : String} {d : Document} {position : Position}
    {range : TextRange} (answered : definitionAnswer uri d position = .definition uri' range)
    (small : byteLength d.source.toList < UInt32.size) :
    range.start.FitsWord ∧ range.stop.FitsWord := by
  obtain ⟨-, t, -, s, -, rfl⟩ := exists_of_definitionAnswer answered
  exact rangeOf_fitsWord small s.span

theorem definition_sameWord (source : String) (options : LexOptions) (uri : String)
    (version : Int) (position : Position) :
    let d : Document := ⟨source, version, analyze source options⟩
    (∀ uri' range, definitionAnswer uri d position = .definition uri' range →
      uri' = uri ∧ ∃ t, wordAt? source d.analysis.tokens position = some t ∧
        ∃ name ∈ d.analysis.tokens, name.kind.isWord = true ∧ range = rangeOf source name.span ∧
          ∃ start stop text, offsetAt? source range.start = some start ∧
            offsetAt? source range.stop = some stop ∧ name.span = ⟨start, stop⟩ ∧
            slice? source.toList start stop = some text ∧
            sameSpelling text t.text.toList = true) ∧
    ∀ t, wordAt? source d.analysis.tokens position = some t →
      ∀ s ∈ d.analysis.symbols.symbols, s.key.suffix ≠ .body → sameWord s.name t.text = true →
        ∃ range, definitionAnswer uri d position = .definition uri range := by
  intro d
  constructor
  · intro uri' range answered
    obtain ⟨rfl, t, under, s, found, rfl⟩ := exists_of_definitionAnswer answered
    obtain ⟨listed, named, -⟩ :=
      SymbolTable.mem_candidates.1 (SymbolTable.mem_candidates_of_definition? found)
    obtain ⟨name, member, written⟩ := exists_word_of_symbol listed
    have range := (covers_token member).denotes
    refine ⟨rfl, t, under, name, member, written.isWord, by rw [written.span], ?_⟩
    rw [written.span]
    exact ⟨_, _, name.text.toList, range.start, range.stop, rfl, slice?_token member,
      sameWord_trans written.sameWord named⟩
  · intro t under s listed noBody named
    obtain ⟨found, defined⟩ := SymbolTable.exists_definition?
      (SymbolTable.mem_candidates.2 ⟨listed, named, noBody⟩) t.span.start
    exact ⟨rangeOf source found.span, definitionAnswer_some under defined⟩

theorem definition_sameWord_directive :
    let source := "?list\nCALL LIST;"
    let d : Document := ⟨source, 1, analyze source {}⟩
    ∃ t range, wordAt? source d.analysis.tokens ⟨1, 6⟩ = some t ∧ t.text = "LIST" ∧
      definitionAnswer "file" d ⟨1, 6⟩ = .definition "file" range ∧
      ∃ name ∈ d.analysis.tokens, name.kind.isWord = true ∧ range = rangeOf source name.span ∧
        ∃ start stop text, offsetAt? source range.start = some start ∧
          offsetAt? source range.stop = some stop ∧
          slice? source.toList start stop = some text ∧
          sameSpelling text "LIST".toList = true := by
  intro source d
  have same := definition_sameWord source {} "file" 1 ⟨1, 6⟩
  have ⟨word, under, reads⟩ : ∃ t, wordAt? source d.analysis.tokens ⟨1, 6⟩ = some t ∧
      t.text = "LIST" :=
    ⟨⟨.name "LIST", "LIST", ⟨11, 15⟩, 1, 5, 9⟩, by decide +kernel, rfl⟩
  have ⟨s, listed, noBody, named⟩ : ∃ s ∈ d.analysis.symbols.symbols, s.key.suffix ≠ .body ∧
      sameWord s.name word.text = true := by
    rw [reads]
    decide +kernel
  obtain ⟨range, answered⟩ := same.2 word under s listed noBody named
  obtain ⟨-, t, here, name, member, isWord, shown, start, stop, text, first, last, -, written,
    spelled⟩ := same.1 "file" range answered
  obtain rfl := Option.some.inj (under.symm.trans here)
  rw [reads] at spelled
  exact ⟨word, range, under, reads, answered, name, member, isWord, shown, start, stop, text, first,
    last, written, spelled⟩

end TalAnalysis.Editor
