import TalAnalysis.Analysis
import TalAnalysis.Proofs.Declaration.Coherence
import TalAnalysis.Proofs.Declaration.Joined.Run
import TalAnalysis.Proofs.Symbol.Table

namespace TalAnalysis
open Declaration

def SymbolTable.directiveKeys (table : SymbolTable) : List SymbolKey :=
  (table.symbols.filter Symbol.isRegistered).map Symbol.key

/-- No two keys with the name of a directive are one when their contexts are cut to the first word.
-/
def SymbolTable.StaysApart (table : SymbolTable) : Prop :=
  ∀ key ∈ table.keys, ∀ other ∈ table.keys, key.suffix = .none → namesDirective key.name = true →
    key.shortened = other.shortened → key = other

instance (table : SymbolTable) : Decidable table.StaysApart :=
  inferInstanceAs (Decidable (∀ key ∈ table.keys, ∀ other ∈ table.keys, _ → _))

theorem Symbol.Coherent.isRegistered {tokens : List Token} {x : Symbol} (h : x.Coherent tokens) :
    x.isRegistered = (x.keyedLikeDirective && x.kind == .directive) := by
  have fits := h.suffix
  rw [Symbol.isRegistered, Symbol.keyedLikeDirective]
  cases suffix : x.key.suffix with
  | none =>
      rw [suffix] at fits
      rw [show x.key.name = x.name from fits, beq_self_eq_true, Bool.true_and, Bool.and_comm]
  | parameter q =>
      rw [suffix] at fits
      rw [fits.2.1]
      rfl
  | body =>
      rw [suffix] at fits
      rw [fits.2.1]
      rfl

theorem filter_isRegistered {tokens : List Token} {symbols : List Symbol}
    (coherent : ∀ x ∈ symbols, x.Coherent tokens) :
    symbols.filter Symbol.isRegistered =
      (symbols.filter Symbol.keyedLikeDirective).filter fun x => x.kind == .directive := by
  rw [List.filter_filter]
  refine List.filter_congr fun x member => ?_
  rw [(coherent x member).isRegistered, Bool.and_comm]

theorem map_key_joins {symbols symbols' : List Symbol}
    (h : List.Forall₂ Symbol.Joins symbols symbols') :
    (symbols.filter fun x => x.kind == .directive).map Symbol.key =
      ((symbols'.filter fun x => x.kind == .directive).map Symbol.key).map SymbolKey.shortened := by
  induction h with
  | nil => rfl
  | @cons x y symbols symbols' first others ih =>
      rw [List.filter_cons, List.filter_cons, first.kind]
      split
      · rw [List.map_cons, List.map_cons, List.map_cons, ih, first.key]
      · exact ih

namespace Declaration

def directivesFound (tokens : List Token) : List SymbolKey :=
  (Finding.registered (findings {} tokens)).map Symbol.key

variable {plain joined : List Token}

theorem directivesFound_joins (h : Token.Joins plain joined)
    (safe : ∀ x ∈ steps {} joined, JoinsSafely x.1 x.2.1 x.2.2) :
    directivesFound plain = (directivesFound joined).map SymbolKey.shortened := by
  have found := (findings_joins h safe).1
  rw [directivesFound, directivesFound, List.map_map, ← List.forall₂_eq_eq_eq,
    List.forall₂_map_left_iff, List.forall₂_map_right_iff]
  exact found.imp fun _ _ same => same.key

theorem directiveKeys_eq (tokens : List Token) : (extract tokens).symbols.directiveKeys =
    ((SymbolTable.ofList (Finding.keyed (findings {} tokens))).symbols.filter
      fun x => x.kind == .directive).map Symbol.key := by
  rw [SymbolTable.directiveKeys, filter_isRegistered (extract_coherent tokens).1]
  have entries : (extract tokens).symbols.symbols.filter Symbol.keyedLikeDirective =
      (SymbolTable.ofList (Finding.keyed (findings {} tokens))).symbols :=
    SymbolTable.filter_ofList (fun key => key.suffix == .none && namesDirective key.name) _
  rw [entries]

theorem key_mem_of_keyed {tokens : List Token} {x : Symbol}
    (member : x ∈ Finding.keyed (findings {} tokens)) : x.key ∈ (extract tokens).symbols.keys := by
  rw [extract, SymbolTable.keys_ofList, List.mem_eraseDups]
  exact List.mem_map_of_mem (List.mem_of_mem_filter member)

theorem directiveKeys_joins (h : Token.Joins plain joined)
    (safe : ∀ x ∈ steps {} joined, JoinsSafely x.1 x.2.1 x.2.2)
    (declares : ∀ x ∈ steps {} joined, DeclaresApart x.1 x.2.1 x.2.2)
    (apart : (extract joined).symbols.StaysApart) :
    (extract plain).symbols.directiveKeys =
      (extract joined).symbols.directiveKeys.map SymbolKey.shortened := by
  rw [directiveKeys_eq, directiveKeys_eq]
  have found := (findings_joins h safe).2 declares
  have listed : List.Forall₂ (fun x y => y ∈ Finding.keyed (findings {} joined) ∧ x.Joins y)
      (Finding.keyed (findings {} plain)) (Finding.keyed (findings {} joined)) :=
    ((List.forall₂_and_left _ _).2 ⟨fun _ member => member, found.flip⟩).flip
  refine map_key_joins ((SymbolTable.ofList_rel ?_ listed).imp fun _ _ both => both.2)
  rintro x y x' y' ⟨own, joins⟩ ⟨own', joins'⟩
  rw [joins.key, joins'.key]
  refine ⟨fun same => ?_, fun same => by rw [same]⟩
  have keyed := List.of_mem_filter own
  rw [Symbol.keyedLikeDirective, Bool.and_eq_true_iff] at keyed
  exact apart _ (key_mem_of_keyed own) _ (key_mem_of_keyed own') (eq_of_beq keyed.1) keyed.2 same

theorem apart_of_mem_findings (declares : ∀ x ∈ steps {} joined, DeclaresApart x.1 x.2.1 x.2.2)
    {x : Symbol} (member : .symbol x ∈ findings {} joined) : x.Apart := by
  obtain ⟨step, listed, found⟩ := mem_findings member
  exact (declares step listed).symbols x (Finding.mem_symbols.2 found)

theorem not_spaced_of_apart {x : Symbol} (apart : x.Apart) (other : x.kind ≠ .directive)
    (keyed : x.keyedLikeDirective = true) : spaced x.key.context = false := by
  rw [Symbol.keyedLikeDirective, Bool.and_eq_true_iff] at keyed
  obtain ⟨bare, known⟩ := keyed
  have single := not_spaced_of_namesDirective known
  refine Bool.eq_false_iff.2 fun several => ?_
  have unknown := apart other (eq_of_beq bare) (.inr several) _ x.firstWord_mem_unjoinedNames
  rw [firstWord_of_not_spaced single, known] at unknown
  cases unknown

theorem not_spaced_of_keyed (declares : ∀ x ∈ steps {} joined, DeclaresApart x.1 x.2.1 x.2.2)
    (outside : ∀ key ∈ (extract joined).symbols.directiveKeys, spaced key.context = false)
    {key : SymbolKey} (listed : key ∈ (extract joined).symbols.keys) (bare : key.suffix = .none)
    (known : namesDirective key.name = true) : spaced key.context = false := by
  obtain ⟨x, entry, rfl⟩ := List.mem_map.1 listed
  have keyed : x.keyedLikeDirective = true := by
    rw [Symbol.keyedLikeDirective, bare, known]
    rfl
  by_cases directive : x.kind = .directive
  · have coherent := (extract_coherent joined).1 x entry
    refine outside x.key (List.mem_map_of_mem (List.mem_filter.2 ⟨entry, ?_⟩))
    rw [coherent.isRegistered, keyed, directive]
    rfl
  · have found := Finding.mem_symbols.1 (SymbolTable.mem_ofList entry)
    exact not_spaced_of_apart (apart_of_mem_findings declares found) directive keyed

theorem directiveKeys_same (h : Token.Joins plain joined)
    (safe : ∀ x ∈ steps {} joined, JoinsSafely x.1 x.2.1 x.2.2)
    (declares : ∀ x ∈ steps {} joined, DeclaresApart x.1 x.2.1 x.2.2)
    (outside : ∀ key ∈ (extract joined).symbols.directiveKeys, spaced key.context = false) :
    (extract plain).symbols.directiveKeys = (extract joined).symbols.directiveKeys := by
  have cut {key : SymbolKey} (single : spaced key.context = false) : key.shortened = key := by
    rw [SymbolKey.shortened, firstWord_of_not_spaced single]
  rw [directiveKeys_joins h safe declares]
  · exact (List.map_congr_left fun key member => cut (outside key member)).trans (List.map_id _)
  · intro key listed other listed' bare known same
    have bare' : other.suffix = .none := (congrArg SymbolKey.suffix same).symm.trans bare
    have name : key.name = other.name := (congrArg SymbolKey.name same :)
    rwa [cut (not_spaced_of_keyed declares outside listed bare known),
      cut (not_spaced_of_keyed declares outside listed' bare' (name ▸ known))] at same

end Declaration

/-- Where nothing on a directive line is joined with the name of a directive, and no joined name
moves the end of what it stands in, the same known directives are found in the same order, in
contexts that have only the first word of a name when names are not joined. If nothing else takes
their keys only with names joined or only without, the table has them alike, and has them all under
the same keys where none of them stands in a context with a joined name. The name right after the
mark of a directive is never joined. -/
theorem analyze_directives_joined (source : String) (keepComments : Bool)
    (free : ∀ before t after,
      (lex source { keepComments, groupNames := false }).tokens = before ++ t :: after →
        t.JoinsAfter before → ¬ t.Overruns source.toList)
    (safe : ∀ x ∈ steps {} (lex source { keepComments, groupNames := true }).tokens,
      JoinsSafely x.1 x.2.1 x.2.2) :
    let plain := analyze source { keepComments, groupNames := false }
    let joined := analyze source { keepComments, groupNames := true }
    directivesFound plain.tokens = (directivesFound joined.tokens).map SymbolKey.shortened ∧
      ((∀ x ∈ steps {} joined.tokens, DeclaresApart x.1 x.2.1 x.2.2) →
        (joined.symbols.StaysApart →
          plain.symbols.directiveKeys = joined.symbols.directiveKeys.map SymbolKey.shortened) ∧
        ((∀ key ∈ joined.symbols.directiveKeys, spaced key.context = false) →
          plain.symbols.directiveKeys = joined.symbols.directiveKeys)) ∧
      ∀ before t after, joined.tokens = before ++ t :: after →
        Lookback.ofTokens before = .afterMarker → t.isJoined = false := by
  have tokens := lex_joins source keepComments free
  refine ⟨directivesFound_joins tokens safe, fun declares => ?_, fun _ _ _ =>
    not_isJoined_after_mark⟩
  exact ⟨directiveKeys_joins tokens safe declares, directiveKeys_same tokens safe declares⟩

def joinedSource : String :=
  "?NOLIST, SECTION(my part)\n?TARGET my name\nPROC the job (my item);\nFORWARD;\n" ++
    "DEFINE the sum (a = b) = a + b #;\nINT my item := 3, other;\n?LIST"

theorem analyze_directives_joined_source :
    let plain := analyze joinedSource { groupNames := false }
    let joined := analyze joinedSource { groupNames := true }
    (∀ t ∈ plain.tokens, ¬ t.Overruns joinedSource.toList) ∧
      (∀ x ∈ steps {} joined.tokens, JoinsSafely x.1 x.2.1 x.2.2) ∧
      (∀ x ∈ steps {} joined.tokens, DeclaresApart x.1 x.2.1 x.2.2) ∧
      joined.symbols.StaysApart ∧
      joined.symbols.directiveKeys = ["NOLIST", "SECTION", "TARGET", "LIST"].map (⟨"Global", ·, .none⟩) ∧
      directivesFound plain.tokens = (directivesFound joined.tokens).map SymbolKey.shortened ∧
      plain.symbols.directiveKeys = joined.symbols.directiveKeys.map SymbolKey.shortened ∧
      plain.symbols.directiveKeys = joined.symbols.directiveKeys ∧
      ∀ before t after, joined.tokens = before ++ t :: after →
        Lookback.ofTokens before = .afterMarker → t.isJoined = false := by
  intro plain joined
  have all : (∀ t ∈ plain.tokens, ¬ t.Overruns joinedSource.toList) ∧
      (∀ x ∈ steps {} joined.tokens, JoinsSafely x.1 x.2.1 x.2.2) ∧
      (∀ x ∈ steps {} joined.tokens, DeclaresApart x.1 x.2.1 x.2.2) ∧
      joined.symbols.StaysApart ∧
      joined.symbols.directiveKeys =
        ["NOLIST", "SECTION", "TARGET", "LIST"].map (⟨"Global", ·, .none⟩) := by
    decide +kernel
  obtain ⟨free, safe, declares, apart, listed⟩ := all
  have outside : ∀ key ∈ joined.symbols.directiveKeys, spaced key.context = false := by
    rw [listed]
    decide
  have fits (before : List Token) (t : Token) (after : List Token)
      (cut : plain.tokens = before ++ t :: after) (_ : t.JoinsAfter before) :
      ¬ t.Overruns joinedSource.toList :=
    free t (cut ▸ List.mem_append_right before List.mem_cons_self)
  obtain ⟨found, tables, mark⟩ := analyze_directives_joined joinedSource false fits safe
  obtain ⟨cut, same⟩ := tables declares
  exact ⟨free, safe, declares, apart, listed, found, cut apart, same outside, mark⟩

/-- A later name on the line is joined with its argument, and so names no directive. -/
example :
    let source := "?NOLIST, COLUMNS wide"
    (analyze source { groupNames := false }).symbols.directiveKeys =
        ["NOLIST", "COLUMNS"].map (⟨"Global", ·, .none⟩) ∧
      (analyze source { groupNames := true }).symbols.directiveKeys =
        ["NOLIST"].map (⟨"Global", ·, .none⟩) := by
  decide +kernel

end TalAnalysis
