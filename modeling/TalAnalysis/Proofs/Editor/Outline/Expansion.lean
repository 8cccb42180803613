import Mathlib.Data.List.Dedup
import Mathlib.Data.List.Nodup
import TalAnalysis.Editor.Outline

namespace TalAnalysis.Outline

def nodes : List Outline → List Outline
  | [] => []
  | .node s children :: rest => .node s children :: (nodes children ++ nodes rest)

def shown (trees : List Outline) : List Symbol := (nodes trees).map symbol

@[simp] theorem symbol_node (s : Symbol) (below : List Outline) : (node s below).symbol = s := rfl

@[simp] theorem children_node (s : Symbol) (below : List Outline) :
    (node s below).children = below := rfl

@[simp] theorem nodes_nil : nodes [] = [] := by rw [nodes]

@[simp] theorem nodes_cons (s : Symbol) (children rest : List Outline) :
    nodes (.node s children :: rest) = .node s children :: (nodes children ++ nodes rest) := by
  rw [nodes]

@[simp] theorem shown_nil : shown [] = [] := by simp [shown]

@[simp] theorem shown_cons (s : Symbol) (children rest : List Outline) :
    shown (.node s children :: rest) = s :: (shown children ++ shown rest) := by
  simp [shown]

theorem mem_shown {trees : List Outline} {s : Symbol} :
    s ∈ shown trees ↔ ∃ n ∈ nodes trees, n.symbol = s := List.mem_map

def opened (trees : List Outline) (context : String) : Bool :=
  (shown trees).any fun s => opens? s == some context

theorem opened_iff {trees : List Outline} {context : String} :
    opened trees context = true ↔ ∃ s ∈ shown trees, opens? s = some context := by
  simp [opened]

theorem not_opened_iff {trees : List Outline} {context : String} :
    (!opened trees context) = true ↔ ∀ m ∈ nodes trees, opens? m.symbol ≠ some context := by
  simp [opened, shown]

@[simp] theorem opened_nil (context : String) : opened [] context = false := by simp [opened]

@[simp] theorem opened_cons (s : Symbol) (children rest : List Outline) (context : String) :
    opened (.node s children :: rest) context =
      (opens? s == some context || (opened children context || opened rest context)) := by
  simp [opened]

def leaves (symbols : List Symbol) : List Outline := symbols.map (node · [])

@[simp] theorem nodes_leaves (symbols : List Symbol) : nodes (leaves symbols) = leaves symbols := by
  induction symbols with
  | nil => exact nodes_nil
  | cons s symbols ih =>
      simp only [leaves, List.map_cons] at ih ⊢
      rw [nodes_cons, nodes_nil, List.nil_append, ih]

@[simp] theorem symbol_leaves (symbols : List Symbol) : (leaves symbols).map symbol = symbols := by
  rw [leaves, List.map_map]
  exact List.map_id symbols

@[simp] theorem shown_leaves (symbols : List Symbol) : shown (leaves symbols) = symbols := by
  rw [shown, nodes_leaves, symbol_leaves]

/-- The trees of some symbols, from the contexts that are unopened before to those that are left. -/
inductive Expands (symbols : List Symbol) :
    List String → List Symbol → List Outline → List String → Prop
  | nil (unopened : List String) : Expands symbols unopened [] [] unopened
  | plain {unopened left : List String} {s : Symbol} {todo : List Symbol} {trees : List Outline}
      (closed : opens? s = none) (others : Expands symbols unopened todo trees left) :
      Expands symbols unopened (s :: todo) (node s (leaves (parametersOf symbols s)) :: trees) left
  | fresh {unopened between left : List String} {s : Symbol} {todo : List Symbol}
      {below trees : List Outline} {context : String} (opening : opens? s = some context)
      (unopened_ : context ∈ unopened)
      (inner : Expands symbols (unopened.erase context) (members symbols context) below between)
      (others : Expands symbols between todo trees left) :
      Expands symbols unopened (s :: todo) (node s below :: trees) left
  | stale {unopened left : List String} {s : Symbol} {todo : List Symbol} {trees : List Outline}
      {context : String} (opening : opens? s = some context) (opened : context ∉ unopened)
      (others : Expands symbols unopened todo trees left) :
      Expands symbols unopened (s :: todo) (node s [] :: trees) left

theorem expand_expands (symbols : List Symbol) (unopened : List String) (todo : List Symbol) :
    Expands symbols unopened todo (expand symbols unopened todo).1.1
      (expand symbols unopened todo).1.2 := by
  match todo with
  | [] =>
      rw [expand]
      exact .nil unopened
  | s :: todo =>
      rw [expand]
      split
      · exact .plain ‹_› (expand_expands symbols unopened todo)
      · rename_i context opening
        split
        · rename_i fresh
          have fewer : (unopened.erase context).length < unopened.length := by
            rw [List.length_erase_of_mem fresh]
            exact Nat.sub_lt (List.length_pos_of_mem fresh) Nat.one_pos
          have left := Nat.lt_of_le_of_lt
            (expand symbols (unopened.erase context) (members symbols context)).2 fewer
          exact .fresh opening fresh
            (expand_expands symbols (unopened.erase context) (members symbols context))
            (expand_expands symbols _ todo)
        · exact .stale opening ‹_› (expand_expands symbols unopened todo)
termination_by (unopened.length, todo.length)
decreasing_by
  · exact Prod.Lex.right _ (Nat.lt_succ_self _)
  · exact Prod.Lex.right _ (Nat.lt_succ_self _)
  · exact Prod.Lex.left _ _ fewer
  · exact Prod.Lex.left _ _ left

/-- What is needed of symbols for their outline: a symbol agrees with its key, no two have the same
key, and the parts of a DEFINE are no DEFINE themselves. -/
structure Keyed (symbols : List Symbol) : Prop where
  distinct : (symbols.map Symbol.key).Nodup
  context : ∀ s ∈ symbols, s.key.context = s.context
  own : ∀ s ∈ symbols, s.key.suffix = .none → s.key.name = s.name
  part : ∀ s ∈ symbols, s.key.suffix ≠ .none → s.kind = .define ∧ s.type ≠ .identifier

variable {symbols : List Symbol} {unopened left : List String} {todo : List Symbol}
  {trees : List Outline} {s : Symbol} {c : String}

/-- The symbols that belong below a node: those of the context that it opens, if that is unopened
and no node before opens it, or the parameters of a DEFINE. -/
def symbolsBelow (symbols : List Symbol) (unopened : List String) (before : List Outline)
    (n : Outline) : List Symbol :=
  match opens? n.symbol with
  | none => parametersOf symbols n.symbol
  | some c =>
    if c ∈ unopened ∧ ∀ m ∈ before, opens? m.symbol ≠ some c then members symbols c else []

theorem symbolsBelow_congr {unopened' : List String} {before before' : List Outline} {n : Outline}
    (same : ∀ c, (c ∈ unopened ∧ ∀ m ∈ before, opens? m.symbol ≠ some c) ↔
      c ∈ unopened' ∧ ∀ m ∈ before', opens? m.symbol ≠ some c) :
    symbolsBelow symbols unopened before n = symbolsBelow symbols unopened' before' n := by
  simp only [symbolsBelow, same]

theorem mem_members : s ∈ members symbols c ↔
    s ∈ symbols ∧ s.context = c ∧ s.key.suffix = .none := by
  simp [members]

theorem mem_parametersOf {p : Symbol} : p ∈ parametersOf symbols s ↔
    (s.kind = .define ∧ s.type = .identifier) ∧ p ∈ symbols ∧
      p.context = s.context ∧ p.key.name = s.name ∧ p.key.suffix.isParameter = true := by
  rw [parametersOf]
  split <;> simp_all

theorem opens?_define (define : s.kind = .define) : opens? s = none := by
  rw [opens?]
  split <;> simp_all

theorem parametersOf_of_opens? (opening : opens? s = some c) : parametersOf symbols s = [] := by
  rw [parametersOf, if_neg]
  rintro ⟨define, -⟩
  rw [opens?_define define] at opening
  cases opening

theorem suffix_ne_of_isParameter (parameter : s.key.suffix.isParameter = true) :
    s.key.suffix ≠ .none := by
  intro none
  rw [none] at parameter
  cases parameter

theorem split_append {α : Type} {y : α} {xs ys before after : List α}
    (split : xs ++ ys = before ++ y :: after) :
    (∃ after', xs = before ++ y :: after') ∨
      ∃ before', before = xs ++ before' ∧ ys = before' ++ y :: after := by
  rcases List.append_eq_append_iff.1 split with ⟨before', rfl, later⟩ | ⟨middle, rfl, rest⟩
  · exact .inr ⟨before', rfl, later⟩
  · rcases List.cons_eq_append_iff.1 rest with ⟨rfl, rfl⟩ | ⟨after', rfl, -⟩
    · exact .inr ⟨[], by simp, rfl⟩
    · exact .inl ⟨after', rfl⟩

namespace Keyed

variable {p : Symbol}

theorem opens?_parameter (h : Keyed symbols) (member : p ∈ parametersOf symbols s) :
    opens? p = none := by
  obtain ⟨-, listed, -, -, parameter⟩ := mem_parametersOf.1 member
  exact opens?_define (h.part p listed (suffix_ne_of_isParameter parameter)).1

theorem opened_parameters (h : Keyed symbols) (s : Symbol) (context : String) :
    opened (leaves (parametersOf symbols s)) context = false := by
  rw [Bool.eq_false_iff, ne_eq, opened_iff, shown_leaves]
  rintro ⟨p, member, opening⟩
  rw [h.opens?_parameter member] at opening
  cases opening

theorem parametersOf_parameter (h : Keyed symbols) (member : p ∈ parametersOf symbols s) :
    parametersOf symbols p = [] := by
  obtain ⟨-, listed, -, -, parameter⟩ := mem_parametersOf.1 member
  rw [parametersOf, if_neg]
  exact fun define => (h.part p listed (suffix_ne_of_isParameter parameter)).2 define.2

theorem suffix_eq_of_opens? (h : Keyed symbols) (member : s ∈ symbols)
    (opening : opens? s = some c) : s.key.suffix = .none := by
  by_contra part
  rw [opens?_define (h.part s member part).1] at opening
  cases opening

end Keyed

namespace Expands

theorem roots (h : Expands symbols unopened todo trees left) : trees.map symbol = todo := by
  induction h with
  | nil => rfl
  | plain _ _ ih | fresh _ _ _ _ _ ih | stale _ _ _ ih => rw [List.map_cons, ih, symbol_node]

theorem left_eq (h : Expands symbols unopened todo trees left) (keyed : Keyed symbols)
    (distinct : unopened.Nodup) : left = unopened.filter fun c => !opened trees c := by
  induction h with
  | nil unopened => simp
  | plain closed _ ih =>
      rw [ih distinct]
      refine List.filter_congr fun c _ => ?_
      simp [closed, keyed.opened_parameters]
  | @fresh unopened between left s todo below trees context opening _ _ _ inner others =>
      have between_eq := inner (distinct.erase context)
      rw [others (between_eq ▸ (distinct.erase context).filter _), between_eq,
        distinct.erase_eq_filter, List.filter_filter, List.filter_filter]
      refine List.filter_congr fun c _ => ?_
      have turned : (c != context) = !(some context == some c) := by
        rw [bne, Bool.beq_comm]
        rfl
      rw [opened_cons, opening, Bool.not_or, Bool.not_or, turned, Bool.and_comm,
        Bool.and_comm (!opened trees c)]
  | @stale unopened left s todo trees context opening opened _ ih =>
      rw [ih distinct]
      refine List.filter_congr fun c member => ?_
      have other : context ≠ c := fun same => opened (same ▸ member)
      simp [opening, other]

theorem children (h : Expands symbols unopened todo trees left) (keyed : Keyed symbols)
    (distinct : unopened.Nodup) {before after : List Outline} {n : Outline}
    (split : nodes trees = before ++ n :: after) :
    n.children.map symbol = symbolsBelow symbols unopened before n := by
  induction h generalizing before after n with
  | nil => simp at split
  | @plain unopened left s todo trees closed _ ih =>
      rw [nodes_cons, nodes_leaves] at split
      rcases List.cons_eq_append_iff.1 split with ⟨rfl, ⟨⟩⟩ | ⟨before, rfl, rest⟩
      · rw [symbolsBelow, symbol_node, closed, children_node, symbol_leaves]
      rcases split_append rest with ⟨after, own⟩ | ⟨before, rfl, later⟩
      · have parameter : n ∈ leaves (parametersOf symbols s) := by simp [own]
        obtain ⟨p, member, rfl⟩ := List.mem_map.1 parameter
        rw [symbolsBelow, symbol_node, keyed.opens?_parameter member,
          keyed.parametersOf_parameter member]
        rfl
      · rw [ih distinct later]
        refine symbolsBelow_congr fun c => ?_
        have parameters : ∀ m ∈ leaves (parametersOf symbols s), opens? m.symbol ≠ some c := by
          rw [← nodes_leaves, ← not_opened_iff, keyed.opened_parameters, Bool.not_false]
        simp only [List.forall_mem_cons, List.forall_mem_append, symbol_node, closed, ne_eq,
          reduceCtorEq, not_false_eq_true, true_and, iff_true_intro parameters]
  | @fresh unopened between left s todo below trees context opening member inner _ ih others =>
      have between_eq := inner.left_eq keyed (distinct.erase context)
      have other (c : String) : some context ≠ some c ↔ c ≠ context := by
        rw [ne_comm, ne_eq, Option.some_inj]
      rw [nodes_cons] at split
      rcases List.cons_eq_append_iff.1 split with ⟨rfl, ⟨⟩⟩ | ⟨before, rfl, rest⟩
      · simp [symbolsBelow, opening, inner.roots, member]
      rcases split_append rest with ⟨after, own⟩ | ⟨before, rfl, later⟩
      · rw [ih (distinct.erase context) own]
        refine symbolsBelow_congr fun c => ?_
        simp only [distinct.mem_erase_iff, List.forall_mem_cons, symbol_node, opening, other]
        tauto
      · rw [others (between_eq ▸ (distinct.erase context).filter _) later]
        refine symbolsBelow_congr fun c => ?_
        simp only [between_eq, List.mem_filter, not_opened_iff, distinct.mem_erase_iff,
          List.forall_mem_cons, List.forall_mem_append, symbol_node, opening, other]
        tauto
  | @stale unopened left s todo trees context opening opened _ ih =>
      rw [nodes_cons, nodes_nil, List.nil_append] at split
      rcases List.cons_eq_append_iff.1 split with ⟨rfl, ⟨⟩⟩ | ⟨before, rfl, later⟩
      · simp [symbolsBelow, opening, opened]
      · rw [ih distinct later]
        refine symbolsBelow_congr fun c => ?_
        simp only [List.forall_mem_cons, symbol_node, opening]
        refine and_congr_right fun member => ?_
        have other : some context ≠ some c := fun same => opened (Option.some.inj same ▸ member)
        exact (and_iff_right other).symm

theorem perm (h : Expands symbols unopened todo trees left) :
    ∃ opened : List String, unopened.Perm (opened ++ left) ∧
      (shown trees).Perm ((todo ++ opened.flatMap (members symbols)).flatMap fun s =>
        s :: parametersOf symbols s) := by
  induction h with
  | nil => exact ⟨[], .refl _, by simp⟩
  | @plain unopened left s todo trees closed _ ih =>
      obtain ⟨opened, contexts, nodes⟩ := ih
      refine ⟨opened, contexts, ?_⟩
      rw [shown_cons, shown_leaves, List.cons_append, List.flatMap_cons, List.cons_append]
      exact (nodes.append_left _).cons s
  | @fresh unopened between left s todo below trees context opening member _ _ inner others =>
      obtain ⟨opened, contexts, nodes⟩ := inner
      obtain ⟨opened', contexts', nodes'⟩ := others
      refine ⟨context :: (opened ++ opened'), ?_, ?_⟩
      · have erased := (List.perm_cons_erase member).trans (contexts.cons context)
        refine erased.trans (.cons context ?_)
        have within := contexts'.append_left opened
        rwa [← List.append_assoc] at within
      · rw [shown_cons, List.cons_append, List.flatMap_cons, parametersOf_of_opens? opening]
        refine .cons s ?_
        refine (nodes.append nodes').trans (List.perm_iff_count.2 fun x => ?_)
        simp only [List.flatMap_append, List.flatMap_cons, List.count_append, List.append_eq,
          List.count_nil]
        omega
  | @stale unopened left s todo trees context opening _ _ ih =>
      obtain ⟨opened, contexts, nodes⟩ := ih
      refine ⟨opened, contexts, ?_⟩
      rw [shown_cons, shown_nil, List.cons_append, List.flatMap_cons,
        parametersOf_of_opens? opening]
      exact nodes.cons s

end Expands
end TalAnalysis.Outline
