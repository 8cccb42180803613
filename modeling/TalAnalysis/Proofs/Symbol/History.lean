import Mathlib.Data.List.DropRight
import Mathlib.Data.List.Induction
import TalAnalysis.Symbol.Index

/-!
# The history of a symbol table

A table is what the insertions since its last clearing make of an empty one (`toTable_run`). So it
holds each key that was inserted since then, in the order of their first insertion, with the symbol
of their last (`run_lastWins`).
-/

namespace TalAnalysis

inductive TableStep
  | insert (s : Symbol)
  | clear

def TableStep.inserted? : TableStep → Option Symbol
  | .insert s => some s
  | .clear => none

def sinceClear (steps : List TableStep) : List Symbol :=
  (steps.rtakeWhile fun step => step.inserted?.isSome).filterMap TableStep.inserted?

theorem sinceClear_concat_insert (steps : List TableStep) (s : Symbol) :
    sinceClear (steps ++ [.insert s]) = sinceClear steps ++ [s] := by
  rw [sinceClear, List.rtakeWhile_concat_pos _ _ _ rfl, List.filterMap_append]
  rfl

theorem sinceClear_concat_clear (steps : List TableStep) :
    sinceClear (steps ++ [.clear]) = [] := by
  rw [sinceClear, List.rtakeWhile_concat_neg _ _ _ Bool.false_ne_true, List.filterMap_nil]

def lastWith? (inserted : List Symbol) (key : SymbolKey) : Option Symbol :=
  inserted.reverse.find? fun s => s.key == key

/-- For each key, in the order in which they first come up, the last symbol that has it. -/
def lastWins (inserted : List Symbol) : List Symbol :=
  (inserted.map Symbol.key).eraseDups.filterMap (lastWith? inserted)

def SymbolTable.take (table : SymbolTable) : TableStep → SymbolTable
  | .insert s => table.insert s
  | .clear => empty

theorem SymbolTable.filterMap_get?_keys {table : SymbolTable} (distinct : table.keys.Nodup) :
    table.keys.filterMap table.get? = table.symbols := by
  rw [keys, List.filterMap_map]
  calc
    table.symbols.filterMap (table.get? ∘ Symbol.key) = table.symbols.filterMap some :=
      List.filterMap_congr fun s member => get?_key distinct member
    _ = table.symbols := List.filterMap_some

theorem SymbolTable.symbols_ofList (inserted : List Symbol) :
    (ofList inserted).symbols = lastWins inserted := by
  rw [← filterMap_get?_keys (nodup_keys_ofList inserted), keys_ofList, lastWins]
  exact congrArg (List.filterMap · _) (funext (get?_ofList inserted))

namespace IndexedTable

def take (table : IndexedTable) : TableStep → IndexedTable
  | .insert s => (table.insert s).2
  | .clear => table.clear

def run (steps : List TableStep) : IndexedTable := steps.foldl take empty

theorem toTable_take (table : IndexedTable) (step : TableStep) :
    (table.take step).toTable = table.toTable.take step := by
  cases step with
  | insert s => exact table.toTable_insert s
  | clear => rfl

theorem toTable_run (steps : List TableStep) :
    (run steps).toTable = SymbolTable.ofList (sinceClear steps) := by
  induction steps using List.reverseRecOn with
  | nil => rfl
  | append_singleton steps step ih =>
      rw [run, List.foldl_concat, ← run, toTable_take, ih]
      cases step with
      | insert s =>
          rw [sinceClear_concat_insert, SymbolTable.ofList, SymbolTable.ofList, List.foldl_concat]
          rfl
      | clear =>
          rw [sinceClear_concat_clear]
          rfl

theorem get?_run (steps : List TableStep) (key : SymbolKey) :
    (run steps).get? key = lastWith? (sinceClear steps) key := by
  rw [← get?_toTable, toTable_run, SymbolTable.get?_ofList, lastWith?]

/-- What the table holds and answers after any steps, in terms of the insertions alone. Without the
index, the steps lead to the same table. -/
theorem run_lastWins (steps : List TableStep) :
    let table := run steps
    let inserted := sinceClear steps
    table.entries.toList = lastWins inserted ∧
      (lastWins inserted).map Symbol.key = (inserted.map Symbol.key).eraseDups ∧
      (∀ key, table.get? key = lastWith? inserted key) ∧
      (∀ s, (table.insert s).1 = lastWith? inserted s.key) ∧
      table.size = (lastWins inserted).length ∧
      table.isEmpty = (lastWins inserted).isEmpty ∧
      (∀ name, table.firstNamed? name = (lastWins inserted).find? fun s => sameWord s.name name) ∧
      (∀ name, (table.named name).toList =
        (lastWins inserted).filter fun s => sameWord s.name name) ∧
      steps.foldl SymbolTable.take .empty = table.toTable := by
  intro table inserted
  have entries : table.entries.toList = lastWins inserted := by
    rw [← SymbolTable.symbols_ofList, ← toTable_run]
    rfl
  refine ⟨entries, ?_, get?_run steps, fun s => (insert_fst table s).trans (get?_run steps s.key),
    ?_, ?_, ?_, ?_, ?_⟩
  · rw [← SymbolTable.symbols_ofList, ← SymbolTable.keys, SymbolTable.keys_ofList]
  · rw [← entries, Array.length_toList, size]
  · rw [← entries, isEmpty, Array.isEmpty_toList]
  · intro name
    rw [← entries, Array.find?_toList, firstNamed?]
  · intro name
    rw [← entries, named, Array.toList_filter]
  · change steps.foldl SymbolTable.take empty.toTable = (steps.foldl take empty).toTable
    exact List.foldl_hom toTable fun table step => (toTable_take table step).symm

end IndexedTable
end TalAnalysis
