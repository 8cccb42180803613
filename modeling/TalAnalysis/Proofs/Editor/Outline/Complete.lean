import TalAnalysis.Analysis
import TalAnalysis.Proofs.Editor.Outline.Opening
import TalAnalysis.Proofs.Editor.Outline.Shape

/-!
# What an outline shows

* `ofTable_complete`: the outline of a source shows what is declared in a context that is not
  `Lost`. A context is lost with the symbol that opens it, when a later declaration takes its place
  in the table.
-/

namespace TalAnalysis.Outline
open Declaration

/-- What opens the context, or one around it, has been replaced by a symbol that does not. What a
SOURCE directive names without a file is in a context that nothing opens. -/
inductive Lost (declared kept : List Symbol) : String → Prop
  | fileless : Lost declared kept ""
  | replaced {s : Symbol} {context : String} (member : s ∈ declared)
      (opening : opens? s = some context) (other : context ≠ globalContext)
      (gone : ∀ e ∈ kept, e.key = s.key → opens? e ≠ some context) : Lost declared kept context
  | within {s : Symbol} {context : String} (member : s ∈ declared)
      (opening : opens? s = some context) (other : context ≠ globalContext)
      (outer : Lost declared kept s.context) : Lost declared kept context

variable {declared kept : List Symbol} {c : String} {table : SymbolTable}

theorem eq_of_lost
    (stays : ∀ s ∈ declared, ∀ c ∈ opens? s,
      s.context ≠ "" ∧ ∃ e ∈ kept, e.key = s.key ∧ opens? e = some c)
    (lost : Lost declared kept c) : c = "" := by
  induction lost with
  | fileless => rfl
  | @replaced s c member opening other gone =>
      obtain ⟨-, e, listed, key, opens⟩ := stays s member c opening
      exact absurd opens (gone e listed key)
  | @within s c member opening other outer ih => exact absurd ih (stays s member c opening).1

theorem rooted_of_not_lost (rooted : Rooted declared c) (lost : ¬ Lost declared kept c)
    (contexts : ∀ s ∈ declared, s.key.context = s.context)
    (contexts' : ∀ s ∈ kept, s.key.context = s.context) : Rooted kept c := by
  induction rooted with
  | global => exact .global
  | @inner s c member opening outer ih =>
      by_cases global : c = globalContext
      · exact global ▸ .global
      have outer' : Rooted kept s.context :=
        ih fun outer => lost (.within member opening global outer)
      by_contra none
      refine lost (.replaced member opening global fun e listed key opens => none ?_)
      refine .inner listed opens ?_
      rwa [← contexts' e listed, key, contexts s member]

theorem opened_of_rooted (keyed : Keyed table.symbols) (rooted : Rooted table.symbols c) :
    (c ≠ globalContext → opened (ofTable table) c = true) ∧
      ∀ s ∈ members table.symbols c, s ∈ shown (ofTable table) := by
  obtain ⟨opened_, -, opened_iff_, shown_⟩ := ofTable_perm keyed
  have members_shown {c : String} (known : c ≠ globalContext → opened (ofTable table) c = true)
      (s : Symbol) (member : s ∈ members table.symbols c) : s ∈ shown (ofTable table) := by
    have listed : c ∈ globalContext :: opened_ := by
      by_cases global : c = globalContext
      · exact global ▸ List.mem_cons_self
      · exact List.mem_cons_of_mem _ ((opened_iff_ c).2 ⟨global, known global⟩)
    refine shown_.mem_iff.2 (List.mem_flatMap.2 ⟨s, ?_, List.mem_cons_self⟩)
    exact List.mem_flatMap.2 ⟨c, listed, member⟩
  have known : c ≠ globalContext → opened (ofTable table) c = true := by
    induction rooted with
    | global => exact fun other => absurd rfl other
    | @inner s c listed opening _ ih =>
        intro _
        have plain := keyed.suffix_eq_of_opens? listed opening
        exact opened_iff.2 ⟨s, members_shown ih s (mem_members.2 ⟨listed, rfl, plain⟩), opening⟩
  exact ⟨known, members_shown known⟩

theorem exists_first {trees : List Outline} (opens : opened trees c = true) :
    ∃ before n after, nodes trees = before ++ n :: after ∧ opens? n.symbol = some c ∧
      ∀ m ∈ before, opens? m.symbol ≠ some c := by
  obtain ⟨s, member, opening⟩ := opened_iff.1 opens
  obtain ⟨n, node, rfl⟩ := mem_shown.1 member
  cases found : (nodes trees).find? fun m => opens? m.symbol = some c with
  | none => simpa [opening] using List.find?_eq_none.1 found n node
  | some first =>
      obtain ⟨opens, before, after, split, others⟩ := List.find?_eq_some_iff_append.1 found
      exact ⟨before, first, after, split, by simpa using opens, by simpa using others⟩

theorem mem_nodes {trees : List Outline} {n : Outline} (member : n ∈ trees) : n ∈ nodes trees := by
  induction trees with
  | nil => cases member
  | cons first rest ih =>
      obtain ⟨s, children⟩ := first
      rw [nodes_cons]
      rcases List.mem_cons.1 member with rfl | later
      · exact List.mem_cons_self
      · exact List.mem_cons_of_mem _ (List.mem_append_right _ (ih later))

theorem mem_nodes_of_child {trees : List Outline} {n child : Outline} (node : n ∈ nodes trees)
    (below : child ∈ n.children) : child ∈ nodes trees := by
  induction trees using nodes.induct with
  | case1 => simp at node
  | case2 s children rest inner later =>
      rw [nodes_cons] at node ⊢
      apply List.mem_cons_of_mem
      rcases List.mem_cons.1 node with rfl | node
      · exact List.mem_append_left _ (mem_nodes below)
      · rcases List.mem_append.1 node with node | node
        · exact List.mem_append_left _ (inner node)
        · exact List.mem_append_right _ (later node)

/-- What is declared in a context that is not lost is shown: in the global context at the top, in
others below the first symbol that opens the context, and the parameters of a DEFINE below it. -/
theorem ofTable_complete (source : String) (options : LexOptions) :
    let declared := (findings {} (lex source options).tokens).filterMap Finding.symbol?
    let table := (analyze source options).symbols
    let trees := ofTable table
    (∀ s ∈ table.symbols, s.key.suffix = .none → ¬ Lost declared table.symbols s.context →
      s ∈ shown trees ∧
        (s.context ≠ globalContext → ∃ n ∈ nodes trees, opens? n.symbol = some s.context ∧
          n.children.map symbol = members table.symbols s.context)) ∧
      ∀ p ∈ table.symbols, p.key.suffix.isParameter → ¬ Lost declared table.symbols p.context →
        ∀ d ∈ table.symbols, d.key = { p.key with suffix := .none } → d.type = .identifier →
          p ∈ shown trees ∧ ∃ n ∈ nodes trees, n.symbol = d ∧ p ∈ n.children.map symbol := by
  intro declared table trees
  have keyed : Keyed table.symbols := keyed_extract (lex source options).tokens
  have coherent := findings_coherent {} (lex source options).tokens
  have start : ScopesRooted [] ({} : State).scopes :=
    fun scope member => List.mem_singleton.1 member ▸ .global
  have rooted (s : Symbol) (member : s ∈ table.symbols)
      (kept : ¬ Lost declared table.symbols s.context) : Rooted table.symbols s.context := by
    have found := Finding.mem_symbols.1 (SymbolTable.mem_ofList member)
    have once : Rooted declared s.context := by
      rcases findings_rooted start found with rooted | fileless
      · exact rooted
      · exact absurd (fileless ▸ .fileless) kept
    refine rooted_of_not_lost once kept (fun s member => ?_) keyed.context
    exact (coherent.symbols s (Finding.mem_symbols.1 member)).context
  have shown_ (s : Symbol) (member : s ∈ table.symbols) (plain : s.key.suffix = .none)
      (kept : ¬ Lost declared table.symbols s.context) : s ∈ shown trees :=
    (opened_of_rooted keyed (rooted s member kept)).2 s (mem_members.2 ⟨member, rfl, plain⟩)
  constructor
  · intro s member plain kept
    refine ⟨shown_ s member plain kept, fun inner => ?_⟩
    have opens := (opened_of_rooted keyed (rooted s member kept)).1 inner
    obtain ⟨before, n, after, split, opening, first⟩ := exists_first opens
    refine ⟨n, split ▸ List.mem_append_right _ List.mem_cons_self, opening, ?_⟩
    rw [ofTable_children keyed split, opening]
    exact if_pos ⟨inner, first⟩
  · intro p member parameter kept d listed key type
    have plain : d.key.suffix = .none := by rw [key]
    have context : p.context = d.context := by
      rw [← keyed.context p member, ← keyed.context d listed, key]
    obtain ⟨n, node, rfl⟩ := mem_shown.1 (shown_ d listed plain (context ▸ kept))
    have has := (coherent.symbols _ (Finding.mem_symbols.1 (SymbolTable.mem_ofList listed))).type
    have kind : n.symbol.kind = .define := kind_of_identifier (type ▸ has)
    have below : p ∈ n.children.map symbol := by
      rw [children_of_closed keyed node (opens?_define kind)]
      refine mem_parametersOf.2 ⟨⟨kind, type⟩, member, context, ?_, parameter⟩
      rw [← keyed.own _ listed plain, key]
    obtain ⟨child, below', rfl⟩ := List.mem_map.1 below
    exact ⟨mem_shown.2 ⟨child, mem_nodes_of_child node below', rfl⟩, n, node, rfl, below⟩

def outlinedSource : String :=
  "?SOURCE lib (f)\nDEFINE d(a) = a #;\nPROC p(x);\nBEGIN\nSTRUCT s;\nBEGIN INT z; END;\nEND;"

theorem ofTable_complete_source :
    let declared := (findings {} (lex outlinedSource {}).tokens).filterMap Finding.symbol?
    let table := (analyze outlinedSource {}).symbols
    (∀ s ∈ table.symbols, ¬ Lost declared table.symbols s.context) ∧
      (∀ s ∈ table.symbols, s.key.suffix = .none → s ∈ shown (ofTable table)) ∧
        ∀ p ∈ table.symbols, p.key.suffix.isParameter → p ∈ shown (ofTable table) := by
  intro declared table
  have ⟨stays, named, defines⟩ :
      (∀ s ∈ declared, ∀ c ∈ opens? s,
        s.context ≠ "" ∧ ∃ e ∈ table.symbols, e.key = s.key ∧ opens? e = some c) ∧
      (∀ s ∈ table.symbols, s.context ≠ "") ∧
      ∀ p ∈ table.symbols, p.key.suffix.isParameter → ∃ d ∈ table.symbols,
        d.key = { p.key with suffix := .none } ∧ d.type = .identifier := by
    decide +kernel
  have kept (s : Symbol) (member : s ∈ table.symbols) : ¬ Lost declared table.symbols s.context :=
    fun lost => named s member (eq_of_lost stays lost)
  have complete := ofTable_complete outlinedSource {}
  refine ⟨kept, fun s member plain => (complete.1 s member plain (kept s member)).1, ?_⟩
  intro p member parameter
  obtain ⟨d, listed, key, type⟩ := defines p member parameter
  exact (complete.2 p member parameter (kept p member) d listed key type).1

end TalAnalysis.Outline
