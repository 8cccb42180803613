import TalAnalysis.Symbol.Basic

/-!
# The symbol table

The symbols of a program in the order in which their keys were first declared. A later declaration
of a key takes the place of the earlier one.

* `get?_insert`: after an insertion, the key stands for the new symbol, and every other key for what
  it stood for.
* `keys_insert`: an insertion adds a new key at the end and leaves the order of the others.
-/

namespace TalAnalysis

structure SymbolTable where
  symbols : List Symbol := []
deriving DecidableEq, Repr, Inhabited

namespace SymbolTable

def empty : SymbolTable := {}

def size (table : SymbolTable) : Nat := table.symbols.length

def isEmpty (table : SymbolTable) : Bool := table.symbols.isEmpty

def keys (table : SymbolTable) : List SymbolKey := table.symbols.map Symbol.key

/-- A list of symbols with `s` in the place of the first symbol of the same key, or at the end. -/
def put (s : Symbol) : List Symbol → List Symbol
  | [] => [s]
  | other :: rest => if other.key = s.key then s :: rest else other :: put s rest

def insert (table : SymbolTable) (s : Symbol) : SymbolTable := ⟨put s table.symbols⟩

def ofList (symbols : List Symbol) : SymbolTable := symbols.foldl insert empty

def get? (table : SymbolTable) (key : SymbolKey) : Option Symbol :=
  table.symbols.find? fun s => s.key == key

def named (table : SymbolTable) (name : String) : List Symbol :=
  table.symbols.filter fun s => sameWord s.name name

def firstNamed? (table : SymbolTable) (name : String) : Option Symbol :=
  table.symbols.find? fun s => sameWord s.name name

theorem put_append {s : Symbol} {front : List Symbol} (apart : ∀ other ∈ front, other.key ≠ s.key)
    (back : List Symbol) : put s (front ++ back) = front ++ put s back := by
  induction front with
  | nil => rfl
  | cons first front ih =>
    obtain ⟨other, apart⟩ := List.forall_mem_cons.1 apart
    rw [List.cons_append, put, if_neg other, ih apart, List.cons_append]

theorem get?_insert (table : SymbolTable) (s : Symbol) (key : SymbolKey) :
    (table.insert s).get? key = if s.key = key then some s else table.get? key := by
  obtain ⟨symbols⟩ := table
  simp only [insert, get?]
  induction symbols with
  | nil => by_cases h : s.key = key <;> simp [put, h]
  | cons other rest ih =>
    rw [put]
    by_cases same : other.key = s.key
    · rw [if_pos same]
      by_cases h : s.key = key <;> simp [h, same]
    · rw [if_neg same]
      by_cases h : other.key = key
      · have apart : s.key ≠ key := fun e => same (h.trans e.symm)
        simp [h, apart]
      · simp [h, ih]

theorem keys_insert (table : SymbolTable) (s : Symbol) :
    (table.insert s).keys = if s.key ∈ table.keys then table.keys else table.keys ++ [s.key] := by
  obtain ⟨symbols⟩ := table
  simp only [insert, keys]
  induction symbols with
  | nil => simp [put]
  | cons other rest ih =>
    rw [put]
    by_cases same : other.key = s.key
    · simp [same]
    · have apart : s.key ≠ other.key := Ne.symm same
      rw [if_neg same, List.map_cons, ih]
      by_cases member : s.key ∈ rest.map Symbol.key <;> simp [member, apart]

theorem nodup_keys_insert {table : SymbolTable} (h : table.keys.Nodup) (s : Symbol) :
    (table.insert s).keys.Nodup := by
  rw [keys_insert]
  split
  · exact h
  · rename_i fresh
    refine List.nodup_append.2 ⟨h, by simp, ?_⟩
    rintro a member b here rfl
    exact fresh (List.mem_singleton.1 here ▸ member)

theorem keys_foldl_insert (symbols : List Symbol) {table : SymbolTable}
    (distinct : table.keys.eraseDups = table.keys) :
    (symbols.foldl insert table).keys = (table.keys ++ symbols.map Symbol.key).eraseDups := by
  induction symbols generalizing table with
  | nil => rw [List.map_nil, List.append_nil, distinct]; rfl
  | cons s symbols ih =>
    rw [List.foldl_cons]
    by_cases known : s.key ∈ table.keys
    · have same : (table.insert s).keys = table.keys := by rw [keys_insert, if_pos known]
      rw [ih (by rw [same, distinct]), same, List.eraseDups_append, List.eraseDups_append]
      simp [List.removeAll, known]
    · have more : (table.insert s).keys = table.keys ++ [s.key] := by rw [keys_insert, if_neg known]
      rw [ih, more, List.append_assoc]
      · rfl
      · rw [more, List.eraseDups_append, distinct]
        simp [List.removeAll, known, List.eraseDups_cons]

theorem keys_ofList (symbols : List Symbol) :
    (ofList symbols).keys = (symbols.map Symbol.key).eraseDups := keys_foldl_insert symbols rfl

theorem get?_foldl_insert (symbols : List Symbol) (table : SymbolTable) (key : SymbolKey) :
    (symbols.foldl insert table).get? key =
      (symbols.reverse.find? fun s => s.key == key).or (table.get? key) := by
  induction symbols generalizing table with
  | nil => rfl
  | cons s symbols ih =>
    rw [List.foldl_cons, ih, get?_insert, List.reverse_cons, List.find?_append, Option.or_assoc]
    by_cases same : s.key = key <;> simp [same]

theorem get?_ofList (symbols : List Symbol) (key : SymbolKey) :
    (ofList symbols).get? key = symbols.reverse.find? fun s => s.key == key := by
  rw [ofList, get?_foldl_insert]
  exact Option.or_none

theorem mem_insert {table : SymbolTable} {s other : Symbol}
    (h : other ∈ (table.insert s).symbols) : other = s ∨ other ∈ table.symbols := by
  obtain ⟨symbols⟩ := table
  simp only [insert] at h ⊢
  induction symbols with
  | nil => exact .inl (List.mem_singleton.1 h)
  | cons first rest ih =>
    rw [put] at h
    split at h
    · exact (List.mem_cons.1 h).imp_right (List.mem_cons_of_mem first)
    · rcases List.mem_cons.1 h with rfl | later
      · exact .inr List.mem_cons_self
      · exact (ih later).imp_right (List.mem_cons_of_mem first)

theorem mem_foldl_insert {symbols : List Symbol} {table : SymbolTable} {s : Symbol}
    (h : s ∈ (symbols.foldl insert table).symbols) : s ∈ table.symbols ∨ s ∈ symbols := by
  induction symbols generalizing table with
  | nil => exact .inl h
  | cons first symbols ih =>
    rcases ih h with inserted | later
    · rcases mem_insert inserted with rfl | before
      · exact .inr List.mem_cons_self
      · exact .inl before
    · exact .inr (List.mem_cons_of_mem first later)

theorem mem_ofList {symbols : List Symbol} {s : Symbol} (h : s ∈ (ofList symbols).symbols) :
    s ∈ symbols :=
  (mem_foldl_insert h).resolve_left List.not_mem_nil

theorem nodup_keys_foldl_insert (symbols : List Symbol) {table : SymbolTable}
    (distinct : table.keys.Nodup) : (symbols.foldl insert table).keys.Nodup := by
  induction symbols generalizing table with
  | nil => exact distinct
  | cons s symbols ih => exact ih (nodup_keys_insert distinct s)

theorem nodup_keys_ofList (symbols : List Symbol) : (ofList symbols).keys.Nodup :=
  nodup_keys_foldl_insert symbols List.nodup_nil

theorem get?_key {table : SymbolTable} {s : Symbol} (distinct : table.keys.Nodup)
    (member : s ∈ table.symbols) : table.get? s.key = some s := by
  obtain ⟨symbols⟩ := table
  simp only [keys, get?] at *
  induction symbols with
  | nil => cases member
  | cons first rest ih =>
    rw [List.map_cons, List.nodup_cons] at distinct
    rcases List.mem_cons.1 member with rfl | later
    · exact List.find?_cons_of_pos (beq_self_eq_true s.key)
    · have other : first.key ≠ s.key := fun same => distinct.1 (same ▸ List.mem_map_of_mem later)
      rw [List.find?_cons_of_neg (by simpa using other), ih distinct.2 later]

end SymbolTable
end TalAnalysis
