import Std.Data.HashMap.Lemmas
import TalAnalysis.Symbol.Table

namespace TalAnalysis

deriving instance Hashable for KeySuffix, SymbolKey

structure IndexedTable where
  entries : Array Symbol
  slots : Std.HashMap SymbolKey Nat
  /-- The slot of a key is the place of the one symbol that has the key. -/
  exact : ∀ key slot, slots[key]? = some slot ↔ entries[slot]?.map Symbol.key = some key

namespace IndexedTable

variable {table : IndexedTable} {s : Symbol} {key : SymbolKey} {slot : Nat}

/-! ## Slots -/

theorem slot_lt (found : table.slots[key]? = some slot) : slot < table.entries.size := by
  obtain ⟨_, here, _⟩ := Option.map_eq_some_iff.1 ((table.exact key slot).1 found)
  exact (Array.getElem?_eq_some_iff.1 here).1

def held (table : IndexedTable) (found : table.slots[key]? = some slot) : Symbol :=
  have := slot_lt found
  table.entries[slot]

theorem key_held (found : table.slots[key]? = some slot) : (table.held found).key = key := by
  have here := (table.exact key slot).1 found
  rwa [Array.getElem?_eq_getElem (slot_lt found), Option.map_some, Option.some_inj] at here

theorem slots_key (inside : slot < table.entries.size) :
    table.slots[table.entries[slot].key]? = some slot := by
  rw [table.exact, Array.getElem?_eq_getElem inside, Option.map_some]

theorem key_ne_of_absent (absent : table.slots[key]? = none) :
    ∀ s ∈ table.entries.toList, s.key ≠ key := by
  rintro s member rfl
  obtain ⟨slot, inside, rfl⟩ := Array.mem_iff_getElem.1 (Array.mem_toList_iff.1 member)
  rw [slots_key inside] at absent
  cases absent

/-! ## Operations -/

def empty : IndexedTable where
  entries := #[]
  slots := ∅
  exact := by simp

def clear (_table : IndexedTable) : IndexedTable := empty

def size (table : IndexedTable) : Nat := table.entries.size

def isEmpty (table : IndexedTable) : Bool := table.entries.isEmpty

def get? (table : IndexedTable) (key : SymbolKey) : Option Symbol :=
  match found : table.slots[key]? with
  | some _ => some (table.held found)
  | none => none

def firstNamed? (table : IndexedTable) (name : String) : Option Symbol :=
  table.entries.find? fun s => sameWord s.name name

def named (table : IndexedTable) (name : String) : Array Symbol :=
  table.entries.filter fun s => sameWord s.name name

def replace (table : IndexedTable) (s : Symbol) (found : table.slots[s.key]? = some slot) :
    IndexedTable where
  entries := table.entries.set slot s (slot_lt found)
  slots := table.slots
  exact := by
    intro key other
    rw [table.exact]
    by_cases here : slot = other
    · obtain rfl := here
      rw [(table.exact s.key slot).1 found, Array.getElem?_set_self, Option.map_some]
    · rw [Array.getElem?_set_ne _ here]

def append (table : IndexedTable) (s : Symbol) (absent : table.slots[s.key]? = none) :
    IndexedTable where
  entries := table.entries.push s
  slots := table.slots.insert s.key table.entries.size
  exact := by
    intro key other
    rw [Std.HashMap.getElem?_insert, Array.getElem?_push]
    by_cases same : s.key = key <;> by_cases last : other = table.entries.size
    · simp [same, last]
    · obtain rfl := same
      have elsewhere : table.entries[other]?.map Symbol.key ≠ some s.key := by
        rw [Ne, ← table.exact, absent]
        exact Option.some_ne_none other ∘ Eq.symm
      simp [last, elsewhere, Ne.symm last]
    · obtain rfl := last
      have outside : table.slots[key]? ≠ some table.entries.size :=
        fun found => Nat.lt_irrefl _ (slot_lt found)
      simp [same, outside]
    · simpa [same, last] using table.exact key other

def insert (table : IndexedTable) (s : Symbol) : Option Symbol × IndexedTable :=
  match found : table.slots[s.key]? with
  | some _ => (some (table.held found), table.replace s found)
  | none => (none, table.append s found)

theorem insert_fst (table : IndexedTable) (s : Symbol) : (table.insert s).1 = table.get? s.key := by
  unfold insert get?
  split <;> rfl

/-! ## The plain table -/

def toTable (table : IndexedTable) : SymbolTable := ⟨table.entries.toList⟩

theorem nodup_keys (table : IndexedTable) : table.toTable.keys.Nodup := by
  rw [SymbolTable.keys, List.Nodup, List.pairwise_iff_getElem]
  intro i j first second before same
  simp only [toTable, List.length_map, Array.length_toList, List.getElem_map,
    Array.getElem_toList] at first second same
  have slot := slots_key first
  rw [same, slots_key second, Option.some_inj] at slot
  omega

theorem get?_toTable (table : IndexedTable) (key : SymbolKey) :
    table.toTable.get? key = table.get? key := by
  unfold get?
  split
  · rename_i found
    have member : table.held found ∈ table.toTable.symbols :=
      Array.mem_toList_iff.2 (Array.getElem_mem (slot_lt found))
    simpa only [key_held found] using SymbolTable.get?_key table.nodup_keys member
  · rename_i absent
    rw [SymbolTable.get?, List.find?_eq_none]
    simpa [toTable] using key_ne_of_absent absent

theorem toTable_replace (found : table.slots[s.key]? = some slot) :
    (table.replace s found).toTable = table.toTable.insert s := by
  have inside : slot < table.entries.toList.length := slot_lt found
  have apart : ∀ other ∈ table.entries.toList.take slot, other.key ≠ s.key := by
    intro other member same
    obtain ⟨i, before, rfl⟩ := List.mem_take_iff_getElem.1 member
    have earlier : table.slots[table.entries.toList[i].key]? = some i :=
      slots_key (Nat.lt_of_lt_of_le before (Nat.min_le_right ..))
    rw [same, found, Option.some_inj] at earlier
    omega
  have same : table.entries.toList[slot].key = s.key := key_held found
  refine congrArg SymbolTable.mk ?_
  calc
    (table.entries.set slot s (slot_lt found)).toList
        = table.entries.toList.take slot ++ s :: table.entries.toList.drop (slot + 1) := by
          rw [Array.toList_set, List.set_eq_take_append_cons_drop, if_pos inside]
    _ = table.entries.toList.take slot ++
          SymbolTable.put s (table.entries.toList.drop slot) := by
          rw [List.drop_eq_getElem_cons inside, SymbolTable.put, if_pos same]
    _ = SymbolTable.put s table.entries.toList := by
          rw [← SymbolTable.put_append apart, List.take_append_drop]

theorem toTable_append (absent : table.slots[s.key]? = none) :
    (table.append s absent).toTable = table.toTable.insert s := by
  have last := SymbolTable.put_append (key_ne_of_absent absent) []
  rw [List.append_nil] at last
  refine congrArg SymbolTable.mk ?_
  rw [append, Array.toList_push]
  exact last.symm

theorem toTable_insert (table : IndexedTable) (s : Symbol) :
    (table.insert s).2.toTable = table.toTable.insert s := by
  unfold insert
  split
  · rename_i found
    exact toTable_replace found
  · rename_i absent
    exact toTable_append absent

end IndexedTable
end TalAnalysis
