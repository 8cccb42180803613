import Mathlib.Data.List.Perm.Subperm
import TalAnalysis.Proofs.Declaration.Coherence
import TalAnalysis.Proofs.Editor.Outline.Expansion

namespace TalAnalysis.Outline
open Declaration

variable {symbols : List Symbol} {s p : Symbol} {c : String}

theorem keyed_extract (tokens : List Token) : Keyed (extract tokens).symbols.symbols where
  distinct := SymbolTable.nodup_keys_ofList _
  context s member :=
    ((findings_coherent {} tokens).symbols s
      (Finding.mem_symbols.1 (SymbolTable.mem_ofList member))).context
  own s member plain := by
    have fits := ((findings_coherent {} tokens).symbols s
      (Finding.mem_symbols.1 (SymbolTable.mem_ofList member))).suffix
    rwa [plain] at fits
  part s member other := by
    have fits := ((findings_coherent {} tokens).symbols s
      (Finding.mem_symbols.1 (SymbolTable.mem_ofList member))).suffix
    cases suffix : s.key.suffix with
    | none => exact absurd suffix other
    | parameter q =>
        rw [suffix] at fits
        exact ⟨fits.2.1, by rw [fits.2.2]; decide⟩
    | body =>
        rw [suffix] at fits
        exact ⟨fits.2.1, by rw [fits.2.2.1]; decide⟩

theorem nodup_eraseDups {α : Type} [DecidableEq α] (xs : List α) : xs.eraseDups.Nodup := by
  match xs with
  | [] => exact List.nodup_nil
  | x :: xs =>
      have fewer := List.length_filter_le (fun y => !y == x) xs
      rw [List.eraseDups_cons, List.nodup_cons]
      exact ⟨by simp, nodup_eraseDups _⟩
termination_by xs.length
decreasing_by exact Nat.lt_succ_of_le fewer

theorem nodup_contexts (symbols : List Symbol) : (contexts symbols).Nodup :=
  (nodup_eraseDups _).filter _

theorem mem_contexts : c ∈ contexts symbols ↔
    c ≠ globalContext ∧ ∃ s ∈ symbols, opens? s = some c := by
  simp [contexts, and_comm]

namespace Keyed

theorem nodup (keyed : Keyed symbols) : symbols.Nodup := keyed.distinct.of_map _

theorem eq_of_key (keyed : Keyed symbols) (member : s ∈ symbols) (member' : p ∈ symbols)
    (same : s.key = p.key) : s = p :=
  List.inj_on_of_nodup_map keyed.distinct member member' same

theorem key_eq (keyed : Keyed symbols) (member : s ∈ symbols) (plain : s.key.suffix = .none) :
    s.key = ⟨s.context, s.name, .none⟩ := by
  rw [← keyed.context s member, ← keyed.own s member plain, ← plain]

theorem nodup_members (keyed : Keyed symbols) {opened : List String} (distinct : opened.Nodup) :
    (opened.flatMap (members symbols)).Nodup := by
  refine List.nodup_flatMap.2 ⟨fun c _ => keyed.nodup.filter _, ?_⟩
  refine List.Pairwise.imp ?_ distinct
  intro c c' other s here there
  exact other ((mem_members.1 here).2.1.symm.trans (mem_members.1 there).2.1)

theorem nodup_withParameters (keyed : Keyed symbols) {todo : List Symbol} (distinct : todo.Nodup)
    (listed : ∀ s ∈ todo, s ∈ symbols ∧ s.key.suffix = .none) :
    (todo.flatMap fun s => s :: parametersOf symbols s).Nodup := by
  have apart {s p : Symbol} (member : s ∈ todo) {s' : Symbol}
      (parameter : p ∈ parametersOf symbols s') : s ≠ p := by
    rintro rfl
    have part := suffix_ne_of_isParameter (mem_parametersOf.1 parameter).2.2.2.2
    exact part (listed s member).2
  refine List.nodup_flatMap.2 ⟨fun s member => List.nodup_cons.2 ⟨fun own => ?_, ?_⟩, ?_⟩
  · exact apart member own rfl
  · rw [parametersOf]
    split
    · exact keyed.nodup.filter _
    · exact List.nodup_nil
  · refine distinct.imp_of_mem ?_
    intro s s' member member' other p here there
    rcases List.mem_cons.1 here with rfl | here
    · rcases List.mem_cons.1 there with rfl | there
      · exact other rfl
      · exact apart member there rfl
    · rcases List.mem_cons.1 there with rfl | there
      · exact apart member' here rfl
      · -- A parameter names its DEFINE, and there is one symbol of that key.
        obtain ⟨-, -, context, name, -⟩ := mem_parametersOf.1 here
        obtain ⟨-, -, context', name', -⟩ := mem_parametersOf.1 there
        obtain ⟨within, plain⟩ := listed s member
        obtain ⟨within', plain'⟩ := listed s' member'
        refine other (keyed.eq_of_key within within' ?_)
        rw [keyed.key_eq within plain, keyed.key_eq within' plain', ← context, ← name, context',
          name']

end Keyed

theorem ofTable_expands (table : SymbolTable) :
    ∃ left, Expands table.symbols (contexts table.symbols) (members table.symbols globalContext)
      (ofTable table) left :=
  ⟨_, expand_expands _ _ _⟩

theorem mem_of_mem_flatMap {opened_ : List String}
    (member : s ∈ (opened_.flatMap (members symbols)).flatMap
      fun s => s :: parametersOf symbols s) : s ∈ symbols := by
  obtain ⟨base, listed, own⟩ := List.mem_flatMap.1 member
  obtain ⟨c, -, within⟩ := List.mem_flatMap.1 listed
  rcases List.mem_cons.1 own with rfl | parameter
  · exact (mem_members.1 within).1
  · exact (mem_parametersOf.1 parameter).2.1

theorem ofTable_perm {table : SymbolTable} (keyed : Keyed table.symbols) :
    ∃ opened_ : List String, (globalContext :: opened_).Nodup ∧
      (∀ c, c ∈ opened_ ↔ c ≠ globalContext ∧ opened (ofTable table) c = true) ∧
      (shown (ofTable table)).Perm
        (((globalContext :: opened_).flatMap (members table.symbols)).flatMap fun s =>
          s :: parametersOf table.symbols s) := by
  obtain ⟨left, expands⟩ := ofTable_expands table
  have distinct := nodup_contexts table.symbols
  obtain ⟨opened_, contexts_, shown_⟩ := expands.perm
  obtain ⟨distinct_, -, apart⟩ := List.nodup_append.1 (contexts_.nodup_iff.1 distinct)
  have member_iff (c : String) : c ∈ opened_ ↔
      c ∈ contexts table.symbols ∧ opened (ofTable table) c = true := by
    have left_iff : c ∈ left ↔ c ∈ contexts table.symbols ∧ opened (ofTable table) c = false := by
      rw [expands.left_eq keyed distinct, List.mem_filter, Bool.not_eq_true']
    have either : c ∈ contexts table.symbols ↔ c ∈ opened_ ∨ c ∈ left := by
      rw [contexts_.mem_iff, List.mem_append]
    have never : c ∈ opened_ → c ∉ left := fun here there => apart c here c there rfl
    cases opens : opened (ofTable table) c <;> simp_all
  refine ⟨opened_, List.nodup_cons.2 ⟨fun global => ?_, distinct_⟩, fun c => ?_, shown_⟩
  · exact (mem_contexts.1 ((member_iff _).1 global).1).1 rfl
  · rw [member_iff, mem_contexts]
    refine ⟨fun h => ⟨h.1.1, h.2⟩, fun ⟨other, opens⟩ => ⟨⟨other, ?_⟩, opens⟩⟩
    obtain ⟨s, member, opening⟩ := opened_iff.1 opens
    have listed : s ∈ ((globalContext :: opened_).flatMap (members table.symbols)).flatMap
        fun s => s :: parametersOf table.symbols s := shown_.mem_iff.1 member
    exact ⟨s, mem_of_mem_flatMap listed, opening⟩

theorem shown_subset {table : SymbolTable} (keyed : Keyed table.symbols)
    (member : s ∈ shown (ofTable table)) : s ∈ table.symbols := by
  obtain ⟨opened_, -, -, shown_⟩ := ofTable_perm keyed
  exact mem_of_mem_flatMap (shown_.mem_iff.1 member)

theorem nodup_shown {table : SymbolTable} (keyed : Keyed table.symbols) :
    (shown (ofTable table)).Nodup := by
  obtain ⟨opened_, distinct, -, shown_⟩ := ofTable_perm keyed
  refine shown_.nodup_iff.2 (keyed.nodup_withParameters (keyed.nodup_members distinct) ?_)
  intro s member
  obtain ⟨c, -, listed⟩ := List.mem_flatMap.1 member
  exact ⟨(mem_members.1 listed).1, (mem_members.1 listed).2.2⟩

theorem ofTable_children {table : SymbolTable} (keyed : Keyed table.symbols)
    {before after : List Outline} {n : Outline}
    (split : nodes (ofTable table) = before ++ n :: after) :
    n.children.map symbol =
      match opens? n.symbol with
      | none => parametersOf table.symbols n.symbol
      | some c =>
        if c ≠ globalContext ∧ ∀ m ∈ before, opens? m.symbol ≠ some c then members table.symbols c
        else [] := by
  obtain ⟨left, expands⟩ := ofTable_expands table
  have listed : n.symbol ∈ table.symbols := by
    apply shown_subset keyed
    exact mem_shown.2 ⟨n, by simp [split], rfl⟩
  rw [expands.children keyed (nodup_contexts table.symbols) split, symbolsBelow]
  cases opening : opens? n.symbol with
  | none => rfl
  | some c =>
      have known : c ∈ contexts table.symbols ↔ c ≠ globalContext :=
        mem_contexts.trans (and_iff_left ⟨_, listed, opening⟩)
      simp only [known]

/-- What belongs below a node: the symbols of the context that it names, or the parameters of a
DEFINE, in the order of the symbols. -/
structure ChildrenFit (symbols : List Symbol) (n : Outline) : Prop where
  ordered : (n.children.map symbol).Sublist symbols
  scope : n.symbol.type = .procedure ∨ n.symbol.type = .subprocedure ∨ n.symbol.type = .struct →
    ∀ s ∈ n.children.map symbol, s.key.suffix = .none ∧ s.context = n.symbol.name
  define : n.symbol.type = .identifier →
    n.children.map symbol = symbols.filter fun p =>
      p.context = n.symbol.context ∧ p.key.name = n.symbol.name ∧ p.key.suffix.isParameter
  source : Directive.ofSpelling? n.symbol.name = some .source → n.symbol.type = .directive →
    ∀ s ∈ n.children.map symbol, s.key.suffix = .none ∧ n.symbol.value = .text s.context
  other : opens? n.symbol = none → n.symbol.type ≠ .identifier → n.children = []

theorem mem_children {table : SymbolTable} (keyed : Keyed table.symbols) {n : Outline}
    (node : n ∈ nodes (ofTable table)) (opening : opens? n.symbol = some c)
    (member : s ∈ n.children.map symbol) : s.key.suffix = .none ∧ s.context = c := by
  obtain ⟨before, after, split⟩ := List.append_of_mem node
  rw [ofTable_children keyed split, opening] at member
  simp only at member
  split at member
  · exact (mem_members.1 member).2.symm
  · cases member

theorem children_of_closed {table : SymbolTable} (keyed : Keyed table.symbols) {n : Outline}
    (node : n ∈ nodes (ofTable table)) (closed : opens? n.symbol = none) :
    n.children.map symbol = parametersOf table.symbols n.symbol := by
  obtain ⟨before, after, split⟩ := List.append_of_mem node
  rw [ofTable_children keyed split, closed]

theorem ordered_children {table : SymbolTable} (keyed : Keyed table.symbols) {n : Outline}
    (node : n ∈ nodes (ofTable table)) : (n.children.map symbol).Sublist table.symbols := by
  obtain ⟨before, after, split⟩ := List.append_of_mem node
  rw [ofTable_children keyed split]
  split
  · rw [parametersOf]
    split
    · exact List.filter_sublist
    · exact List.nil_sublist _
  · split
    · exact List.filter_sublist
    · exact List.nil_sublist _

theorem kind_of_identifier {kind : SymbolKind} (has : kind.Has .identifier) : kind = .define := by
  cases has
  rfl

theorem kind_of_directive {kind : SymbolKind} (has : kind.Has .directive) : kind = .directive := by
  cases has
  rfl

theorem opens?_scope (has : s.kind.Has s.type)
    (scope : s.type = .procedure ∨ s.type = .subprocedure ∨ s.type = .struct) :
    opens? s = some s.name := by
  cases kind : s.kind <;> cases type : s.type <;> simp_all [opens?] <;> cases has

theorem childrenFit (tokens : List Token) {n : Outline}
    (node : n ∈ nodes (ofTable (extract tokens).symbols)) :
    ChildrenFit (extract tokens).symbols.symbols n := by
  have keyed := keyed_extract tokens
  have listed := shown_subset keyed (mem_shown.2 ⟨n, node, rfl⟩)
  have has := ((findings_coherent {} tokens).symbols _
    (Finding.mem_symbols.1 (SymbolTable.mem_ofList listed))).type
  exact {
    ordered := ordered_children keyed node
    scope := fun scope s member => mem_children keyed node (opens?_scope has scope) member
    define := by
      intro type
      have kind : n.symbol.kind = .define := by
        rw [type] at has
        exact kind_of_identifier has
      rw [children_of_closed keyed node (opens?_define kind), parametersOf, if_pos ⟨kind, type⟩]
    source := by
      intro known type s member
      rw [type] at has
      have opening : opens? n.symbol = n.symbol.value.text? := by
        simp only [opens?, kind_of_directive has, known, if_true]
      cases value : n.symbol.value with
      | text text =>
          rw [value, SymbolValue.text?] at opening
          obtain ⟨plain, context⟩ := mem_children keyed node opening member
          exact ⟨plain, by rw [context]⟩
      | none | tokens =>
          have closed : opens? n.symbol = Option.none := by rw [opening, value]; rfl
          rw [children_of_closed keyed node closed, parametersOf, if_neg (by simp [type])] at member
          cases member
    other := by
      intro closed type
      have none := children_of_closed keyed node closed
      rw [parametersOf, if_neg (fun define => type define.2)] at none
      exact List.map_eq_nil_iff.1 none }

/-- The outline ends, as a list of trees; it has no more nodes than the table has symbols. -/
theorem ofTable_shape (tokens : List Token) :
    let table := (extract tokens).symbols
    let trees := ofTable table
    trees.map symbol =
        table.symbols.filter (fun s => s.context = globalContext ∧ s.key.suffix = .none) ∧
      ((shown trees).map Symbol.key).Nodup ∧ (∀ s ∈ shown trees, s ∈ table.symbols) ∧
      (shown trees).length ≤ table.size ∧ (∀ n ∈ nodes trees, ChildrenFit table.symbols n) ∧
      ∀ before n after c, nodes trees = before ++ n :: after → opens? n.symbol = some c →
        n.children.map symbol =
          if c ≠ globalContext ∧ ∀ m ∈ before, opens? m.symbol ≠ some c then
            members table.symbols c
          else [] := by
  intro table trees
  have keyed := keyed_extract tokens
  have subset (s : Symbol) (member : s ∈ shown trees) : s ∈ table.symbols :=
    shown_subset keyed member
  have distinct : (shown trees).Nodup := nodup_shown keyed
  refine ⟨?_, ?_, subset, (List.Nodup.subperm distinct subset).length_le,
    fun n => childrenFit tokens, ?_⟩
  · obtain ⟨left, expands⟩ := ofTable_expands table
    exact expands.roots
  · refine (List.nodup_map_iff_inj_on distinct).2 fun s here p there same => ?_
    exact keyed.eq_of_key (subset s here) (subset p there) same
  · intro before n after c split opening
    rw [ofTable_children keyed split, opening]

end TalAnalysis.Outline
