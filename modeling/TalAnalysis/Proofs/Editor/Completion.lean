import TalAnalysis.Editor.Completion
import TalAnalysis.Proofs.Declaration.Coherence

namespace TalAnalysis.Editor

variable {seen : List (List Char)} {symbols : List Symbol} {s : Symbol} {kind : CompletionKind}

def mayList (s : Symbol) : Bool :=
  s.kind ≠ .directive && !(s.kind = .define && (s.type = .parameter || s.type = .body))

def listedAs (s : Symbol) : CompletionKind :=
  if s.kind = .function then .function
  else if s.type = .struct then .struct
  else if s.kind = .variable_ then .variable_
  else .constant

theorem completionKind?_eq (fits : s.kind.Has s.type) :
    completionKind? s = if mayList s then some (listedAs s) else none := by
  rw [completionKind?, mayList, listedAs]
  generalize s.kind = kind at fits
  generalize s.type = type at fits
  cases fits <;> rfl

theorem completionSymbols_sublist (seen : List (List Char)) (symbols : List Symbol) :
    ((completionSymbols seen symbols).map Prod.fst).Sublist
      (symbols.filter fun s => (completionKind? s).isSome) := by
  fun_induction completionSymbols seen symbols with
  | case1 => exact .slnil
  | case2 seen s symbols none ih =>
      rw [List.filter_cons_of_neg (by simp [none])]
      exact ih
  | case3 seen s symbols kind some name had ih =>
      rw [List.filter_cons_of_pos (by simp [some])]
      exact ih.cons s
  | case4 seen s symbols kind some name new ih =>
      rw [List.filter_cons_of_pos (by simp [some])]
      exact ih.cons_cons s

theorem of_mem_completionSymbols (member : (s, kind) ∈ completionSymbols seen symbols) :
    completionKind? s = some kind ∧ Text.foldCase s.name.toList ∉ seen := by
  fun_induction completionSymbols seen symbols with
  | case1 => cases member
  | case2 seen first symbols none ih => exact ih member
  | case3 seen first symbols own some name had ih => exact ih member
  | case4 seen first symbols own some name new ih =>
      cases member with
      | head => exact ⟨some, by simpa using new⟩
      | tail _ later => exact (ih later).imp_right List.not_mem_of_not_mem_cons

theorem apart_completionSymbols (seen : List (List Char)) (symbols : List Symbol) :
    (completionSymbols seen symbols).Pairwise fun p q => sameWord p.1.name q.1.name = false := by
  fun_induction completionSymbols seen symbols with
  | case1 => exact .nil
  | case2 seen s symbols none ih => exact ih
  | case3 seen s symbols kind some name had ih => exact ih
  | case4 seen s symbols kind some name new ih =>
      refine .cons (fun p later => Bool.eq_false_iff.2 fun same => ?_) ih
      have unseen := (of_mem_completionSymbols later).2
      exact unseen (sameWord_iff.1 same ▸ List.mem_cons_self)

theorem exists_completionSymbols (listed : s ∈ symbols) (some : (completionKind? s).isSome = true)
    (unseen : Text.foldCase s.name.toList ∉ seen) :
    ∃ p ∈ completionSymbols seen symbols, sameWord s.name p.1.name = true := by
  fun_induction completionSymbols seen symbols with
  | case1 => cases listed
  | case2 seen first symbols none ih =>
      cases listed with
      | head => simp [none] at some
      | tail _ later => exact ih later unseen
  | case3 seen first symbols own known name had ih =>
      cases listed with
      | head => exact absurd (by simpa using had) unseen
      | tail _ later => exact ih later unseen
  | case4 seen first symbols own known name new ih =>
      by_cases same : Text.foldCase s.name.toList = name
      · exact ⟨_, List.mem_cons_self, sameWord_iff.2 same⟩
      · cases listed with
        | head => exact absurd rfl same
        | tail _ later =>
            obtain ⟨p, found, sameName⟩ := ih later (by simp [same, unseen])
            exact ⟨p, List.mem_cons_of_mem _ found, sameName⟩

theorem find?_of_completionSymbols (member : (s, kind) ∈ completionSymbols seen symbols) :
    (symbols.filter fun other => (completionKind? other).isSome).find?
      (fun other => sameWord s.name other.name) = some s := by
  fun_induction completionSymbols seen symbols with
  | case1 => cases member
  | case2 seen first symbols none ih =>
      rw [List.filter_cons_of_neg (by simp [none])]
      exact ih member
  | case3 seen first symbols own known name had ih =>
      -- The name of `first` has had its turn, and that of `s` has not.
      have other : ¬ sameWord s.name first.name = true := fun same => by
        have unseen := (of_mem_completionSymbols member).2
        exact unseen (sameWord_iff.1 same ▸ by simpa using had)
      rw [List.filter_cons_of_pos (by simp [known]), List.find?_cons, Bool.eq_false_iff.2 other]
      exact ih member
  | case4 seen first symbols own known name new ih =>
      rw [List.filter_cons_of_pos (by simp [known])]
      cases member with
      | head => exact List.find?_cons_of_pos (sameWord_refl _)
      | tail _ later =>
          have other : ¬ sameWord s.name first.name = true := fun same => by
            have unseen := (of_mem_completionSymbols later).2
            exact unseen (sameWord_iff.1 same ▸ List.mem_cons_self)
          rw [List.find?_cons, Bool.eq_false_iff.2 other]
          exact ih later

theorem completions_off_directiveLine {source : String} {position : Position} (table : SymbolTable)
    (off : onDirectiveLine? source
      ((offsetAt? source position).getD (Text.byteLength source.toList)) ≠ some true) :
    completions source table position = vocabularyCompletions ++ symbolCompletions table := by
  refine if_neg fun answer => off ?_
  rwa [Option.getD_eq_iff, or_iff_left (by simp)] at answer

/-- Off the directive lines, the reserved words and the standard functions are followed by the first
declaration of each name, in whatever case the name is written. -/
theorem completions_declared_once (program : String) (options : LexOptions) (source : String)
    (position : Position) (off : onDirectiveLine? source
      ((offsetAt? source position).getD (Text.byteLength source.toList)) ≠ some true) :
    let table := (analyze program options).symbols
    let mayBeListed := table.symbols.filter mayList
    ∃ listed : List Symbol, completions source table position =
        Keyword.all.map (fun k => ⟨k.spelling, .keyword, none⟩) ++
        StandardFunction.all.map (fun f => ⟨f.name, .function, some f.summary⟩) ++
        listed.map (fun s => ⟨s.name, listedAs s, some (table.detail s)⟩) ∧
      listed.Sublist mayBeListed ∧
      listed.Pairwise (fun s other => sameWord s.name other.name = false) ∧
      (∀ s ∈ mayBeListed, ∃ first ∈ listed, sameWord s.name first.name = true) ∧
      ∀ s ∈ listed, mayBeListed.find? (fun other => sameWord s.name other.name) = some s := by
  intro table mayBeListed
  have kinds (s) (member : s ∈ table.symbols) :
      completionKind? s = if mayList s then some (listedAs s) else none :=
    completionKind?_eq ((Declaration.extract_coherent _).1 s member).type
  have same : (table.symbols.filter fun s => (completionKind? s).isSome) = mayBeListed := by
    refine List.filter_congr fun s member => ?_
    rw [kinds s member]
    cases mayList s <;> rfl
  let turns := completionSymbols [] table.symbols
  have within : (turns.map Prod.fst).Sublist mayBeListed :=
    same ▸ completionSymbols_sublist [] table.symbols
  refine ⟨turns.map Prod.fst, ?_, within, ?_, ?_, ?_⟩
  · rw [completions_off_directiveLine table off, vocabularyCompletions, symbolCompletions,
      List.map_map]
    refine congrArg _ (List.map_congr_left ?_)
    rintro ⟨s, kind⟩ member
    have listed := List.mem_filter.1 (within.subset (List.mem_map_of_mem member))
    have own := (of_mem_completionSymbols member).1
    rw [kinds s listed.1, if_pos listed.2] at own
    rw [← Option.some.inj own]
    rfl
  · exact List.pairwise_map.2 (apart_completionSymbols [] table.symbols)
  · intro s member
    rw [← same, List.mem_filter] at member
    obtain ⟨p, listed, sameName⟩ := exists_completionSymbols member.1 member.2 List.not_mem_nil
    exact ⟨p.1, List.mem_map_of_mem listed, sameName⟩
  · intro s member
    obtain ⟨p, listed, rfl⟩ := List.mem_map.1 member
    exact same ▸ find?_of_completionSymbols listed

theorem completions_declared_once_after_parameter :
    let source := "DEFINE d(p) = p #;\nINT P;"
    let table := (analyze source {}).symbols
    table.symbols.map Symbol.name = ["d", "p", "d", "P"] ∧
      (table.symbols.filter mayList).map Symbol.name = ["d", "P"] ∧
      ∃ listed : List Symbol, completions source table ⟨1, 0⟩ =
          Keyword.all.map (fun k => ⟨k.spelling, .keyword, none⟩) ++
          StandardFunction.all.map (fun f => ⟨f.name, .function, some f.summary⟩) ++
          listed.map (fun s => ⟨s.name, listedAs s, some (table.detail s)⟩) ∧
        listed.Sublist (table.symbols.filter mayList) ∧
        ∀ s ∈ table.symbols.filter mayList,
          ∃ first ∈ listed, sameWord s.name first.name = true := by
  intro source table
  obtain ⟨listed, completions, within, -, all, -⟩ := completions_declared_once source {} source
    ⟨1, 0⟩ (by decide +kernel)
  exact ⟨by decide +kernel, by decide +kernel, listed, completions, within, all⟩

end TalAnalysis.Editor
