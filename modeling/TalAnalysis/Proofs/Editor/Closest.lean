import Mathlib.Data.List.Induction
import TalAnalysis.Proofs.Declaration.Order
import TalAnalysis.Proofs.Editor.Definition
import TalAnalysis.Proofs.Lexer.Reading

namespace TalAnalysis.SymbolTable

variable {table : SymbolTable} {name : String} {offset : Nat} {s : Symbol} {symbols : List Symbol}

/-- A choice made from the left by a total preorder: what stands before the chosen symbol gives way
to it, and it is kept before what stands after it. -/
theorem exists_foldl_choose (choose : Option Symbol → Symbol → Option Symbol)
    (keeps : Symbol → Symbol → Prop)
    (chooses : ∀ b s, keeps b s ∧ choose (some b) s = some b ∨
      ¬keeps b s ∧ choose (some b) s = some s)
    (trans : ∀ {a b c}, keeps a b → keeps b c → keeps a c)
    (cotrans : ∀ {a b c}, ¬keeps a b → ¬keeps b c → ¬keeps a c)
    (first : Symbol) (symbols : List Symbol) :
    ∃ before s after, first :: symbols = before ++ s :: after ∧
      symbols.foldl choose (some first) = some s ∧
        (∀ u ∈ before, ¬keeps u s) ∧ ∀ u ∈ after, keeps s u := by
  induction symbols using List.reverseRecOn with
  | nil => exact ⟨[], first, [], rfl, rfl, List.forall_mem_nil _, List.forall_mem_nil _⟩
  | append_singleton symbols last ih =>
      obtain ⟨before, b, after, cut, best, giveWay, kept⟩ := ih
      rw [← List.cons_append, cut, List.foldl_append, best, List.foldl_cons, List.foldl_nil]
      rcases chooses b last with ⟨stays, same⟩ | ⟨leaves, same⟩
      · refine ⟨before, b, after ++ [last], by simp, same, giveWay, fun u member => ?_⟩
        rcases List.mem_append.1 member with listed | here
        · exact kept u listed
        · exact List.mem_singleton.1 here ▸ stays
      · refine ⟨before ++ b :: after, last, [], rfl, same, fun u member => ?_,
          List.forall_mem_nil _⟩
        rcases List.mem_append.1 member with listed | listed
        · exact cotrans (giveWay u listed) leaves
        · rcases List.mem_cons.1 listed with rfl | listed
          · exact leaves
          · exact fun stays => leaves (trans (kept u listed) stays)

theorem exists_foldl_later (some : symbols ≠ []) :
    ∃ before s after, symbols = before ++ s :: after ∧ symbols.foldl later none = .some s ∧
      (∀ u ∈ before, u.span.start ≤ s.span.start) ∧ ∀ u ∈ after, u.span.start < s.span.start := by
  obtain ⟨first, symbols, rfl⟩ := List.exists_cons_of_ne_nil some
  have chosen := exists_foldl_choose later (fun b s => s.span.start < b.span.start)
    (fun b s => by rw [later]; split <;> simp_all) (fun one two => two.trans one)
    (fun one two => by omega) first symbols
  simp only [Nat.not_lt] at chosen
  exact chosen

theorem exists_foldl_earlier (some : symbols ≠ []) :
    ∃ before s after, symbols = before ++ s :: after ∧ symbols.foldl earlier none = .some s ∧
      (∀ u ∈ before, s.span.start < u.span.start) ∧ ∀ u ∈ after, s.span.start ≤ u.span.start := by
  obtain ⟨first, symbols, rfl⟩ := List.exists_cons_of_ne_nil some
  have chosen := exists_foldl_choose earlier (fun b s => b.span.start ≤ s.span.start)
    (fun b s => by rw [earlier]; split <;> simp_all) Nat.le_trans
    (fun one two => by omega) first symbols
  simp only [Nat.not_le] at chosen
  exact chosen

theorem definition?_of_preceding
    (some : (table.candidates name).filter (fun s => s.span.start ≤ offset) ≠ []) :
    table.definition? name offset =
      ((table.candidates name).filter fun s => s.span.start ≤ offset).foldl later none := by
  obtain ⟨_, _, _, -, chosen, -⟩ := exists_foldl_later some
  rw [definition?, chosen, Option.some_or]

theorem definition?_of_none_preceding
    (none : (table.candidates name).filter (fun s => s.span.start ≤ offset) = []) :
    table.definition? name offset = (table.candidates name).foldl earlier .none := by
  rw [definition?, none, List.foldl_nil, Option.none_or]

theorem definition?_eq_none :
    table.definition? name offset = none ↔ table.candidates name = [] := by
  constructor
  · intro none
    refine List.eq_nil_iff_forall_not_mem.2 fun s member => ?_
    obtain ⟨found, defined⟩ := exists_definition? member offset
    cases none.symm.trans defined
  · intro none
    rw [definition?, none]
    rfl

theorem definition?_start
    (distinct : ∀ u ∈ table.candidates name, u.span.start = s.span.start → u = s)
    (member : s ∈ table.candidates name) :
    table.definition? name s.span.start = some s := by
  have here : s ∈ (table.candidates name).filter fun u => u.span.start ≤ s.span.start :=
    List.mem_filter.2 ⟨member, decide_eq_true (Nat.le_refl _)⟩
  obtain ⟨before, u, after, cut, chosen, atMost, below⟩ :=
    exists_foldl_later (List.ne_nil_of_mem here)
  have found : u ∈ (table.candidates name).filter fun u => u.span.start ≤ s.span.start :=
    cut ▸ List.mem_append_right before List.mem_cons_self
  obtain ⟨listed, preceding⟩ := List.mem_filter.1 found
  rw [definition?_of_preceding (List.ne_nil_of_mem here), chosen]
  refine congrArg some (distinct u listed (Nat.le_antisymm (of_decide_eq_true preceding) ?_))
  rw [cut] at here
  rcases List.mem_append.1 here with listed | listed
  · exact atMost s listed
  · rcases List.mem_cons.1 listed with rfl | listed
    · exact Nat.le_refl _
    · exact (below s listed).le

end TalAnalysis.SymbolTable

namespace TalAnalysis

theorem nodup_token_starts (source : String) (options : LexOptions) :
    ((lex source options).tokens.map fun t => t.span.start).Nodup := by
  refine List.pairwise_map.2 ((apart_tokens source options).imp_of_mem ?_)
  intro t u member _ apart same
  have nonempty := start_lt_stop_token member
  omega

variable {source : String} {options : LexOptions} {s u : Symbol}

theorem eq_of_start (member : s ∈ (analyze source options).symbols.symbols)
    (noBody : s.key.suffix ≠ .body) (member' : u ∈ (analyze source options).symbols.symbols)
    (noBody' : u.key.suffix ≠ .body) (same : s.span.start = u.span.start) : s = u := by
  have inOrder := Declaration.findings_inOrder {} (lex source options).tokens
  rw [Declaration.InOrder, List.map_nil, List.append_nil,
    Declaration.Finding.places_eq] at inOrder
  have distinct := (inOrder.map Span.start).nodup
    (by simpa only [List.map_map, Function.comp_def] using nodup_token_starts source options)
  rw [List.map_map] at distinct
  have listed {x : Symbol} (member : x ∈ (analyze source options).symbols.symbols)
      (noBody : x.key.suffix ≠ .body) :
      x ∈ ((Declaration.findings {} (lex source options).tokens).filterMap
        Declaration.Finding.symbol?).filter fun x => x.key.suffix != .body :=
    List.mem_filter.2 ⟨SymbolTable.mem_ofList member, bne_iff_ne.2 noBody⟩
  exact List.inj_on_of_nodup_map distinct (listed member noBody) (listed member' noBody') same

theorem nodup_starts (source : String) (options : LexOptions) :
    (((analyze source options).symbols.symbols.filter fun s => s.key.suffix != .body).map
      fun s => s.span.start).Nodup := by
  have listed {x : Symbol}
      (member : x ∈ (analyze source options).symbols.symbols.filter
        fun s => s.key.suffix != .body) := List.mem_filter.1 member
  refine List.Nodup.map_on (fun s member u member' same => ?_) ?_
  · exact eq_of_start (listed member).1 (bne_iff_ne.1 (listed member).2) (listed member').1
      (bne_iff_ne.1 (listed member').2) same
  · exact ((SymbolTable.nodup_keys_ofList _).of_map _).filter _

/-- The symbol found for a name at an offset is, among those of that name that are no body, the last
one to start there or before, or else the first one to start. In the table of an analysis those
start at places of their own, and each is found at its own place. -/
theorem definition?_closest :
    (∀ (table : SymbolTable) (name : String) (offset : Nat),
      let entries := table.symbols.filter fun s => sameWord s.name name && s.key.suffix != .body
      let preceding := entries.filter fun s => s.span.start ≤ offset
      (table.definition? name offset = none ↔ entries = []) ∧
      (preceding ≠ [] → ∃ before s after, preceding = before ++ s :: after ∧
        table.definition? name offset = some s ∧
          (∀ u ∈ before, u.span.start ≤ s.span.start) ∧
            ∀ u ∈ after, u.span.start < s.span.start) ∧
      (preceding = [] → entries ≠ [] → ∃ before s after, entries = before ++ s :: after ∧
        table.definition? name offset = some s ∧
          (∀ u ∈ before, s.span.start < u.span.start) ∧
            ∀ u ∈ after, s.span.start ≤ u.span.start)) ∧
    ∀ (source : String) (options : LexOptions),
      let table := (analyze source options).symbols
      ((table.symbols.filter fun s => s.key.suffix != .body).map fun s => s.span.start).Nodup ∧
      ∀ s ∈ table.symbols, s.key.suffix ≠ .body →
        table.definition? s.name s.span.start = some s := by
  constructor
  · intro table name offset entries
    have same : entries = table.candidates name := by
      rw [SymbolTable.candidates, SymbolTable.named, List.filter_filter]
      simp only [entries, Bool.and_comm]
    rw [same]
    refine ⟨SymbolTable.definition?_eq_none, fun some => ?_, fun none some => ?_⟩
    · rw [SymbolTable.definition?_of_preceding some]
      exact SymbolTable.exists_foldl_later some
    · rw [SymbolTable.definition?_of_none_preceding none]
      exact SymbolTable.exists_foldl_earlier some
  · refine fun source options => ⟨nodup_starts source options, fun s member noBody => ?_⟩
    refine SymbolTable.definition?_start (fun u found same => ?_)
      (SymbolTable.mem_candidates.2 ⟨member, sameWord_refl s.name, noBody⟩)
    obtain ⟨member', -, noBody'⟩ := SymbolTable.mem_candidates.1 found
    exact eq_of_start member' noBody' member noBody same

end TalAnalysis
