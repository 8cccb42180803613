import Mathlib.Data.List.Forall2
import Mathlib.Data.List.Induction
import TalAnalysis.Symbol.Table

namespace TalAnalysis.SymbolTable

variable {s other : Symbol} {symbols : List Symbol}

theorem put_put (same : other.key = s.key) (symbols : List Symbol) :
    put s (put other symbols) = put s symbols := by
  induction symbols with
  | nil => simp [put, same]
  | cons first rest ih => by_cases h : first.key = s.key <;> simp [put, same, h, ih]

theorem put_comm (known : s.key ∈ symbols.map Symbol.key) (apart : other.key ≠ s.key) :
    put s (put other symbols) = put other (put s symbols) := by
  induction symbols with
  | nil => cases known
  | cons first rest ih =>
      by_cases here : first.key = s.key
      · simp [put, here, apart.symm]
      · have later : s.key ∈ rest.map Symbol.key :=
          (List.mem_cons.1 known).resolve_left fun same => here same.symm
        by_cases there : first.key = other.key <;> simp [put, here, there, apart, ih later]

theorem mem_keys_insert (table : SymbolTable) (s : Symbol) : s.key ∈ (table.insert s).keys := by
  rw [keys_insert]
  split
  · assumption
  · exact List.mem_append_right _ (List.mem_singleton.2 rfl)

theorem foldl_insert_comm {table : SymbolTable} (known : s.key ∈ table.keys)
    (apart : ∀ other ∈ symbols, other.key ≠ s.key) :
    (symbols.foldl insert table).insert s = symbols.foldl insert (table.insert s) := by
  induction symbols generalizing table with
  | nil => rfl
  | cons other symbols ih =>
      obtain ⟨away, apart⟩ := List.forall_mem_cons.1 apart
      have still : s.key ∈ (table.insert other).keys := by
        rw [keys_insert]
        split
        · exact known
        · exact List.mem_append_left _ known
      have swap : (table.insert other).insert s = (table.insert s).insert other :=
        congrArg SymbolTable.mk (put_comm known away)
      rw [List.foldl_cons, ih still apart, swap, List.foldl_cons]

theorem foldl_insert_put {table : SymbolTable} (distinct : (symbols.map Symbol.key).Nodup) :
    (put s symbols).foldl insert table = (symbols.foldl insert table).insert s := by
  induction symbols generalizing table with
  | nil => rfl
  | cons other symbols ih =>
      rw [List.map_cons, List.nodup_cons] at distinct
      rw [put]
      split
      · -- The symbol takes the place of `other`, whose key is in the table from here on. Whether
        -- it does so now or at the end makes no difference to the keys between.
        rename_i same
        have known : s.key ∈ (table.insert other).keys := same ▸ mem_keys_insert table other
        have apart : ∀ x ∈ symbols, x.key ≠ s.key := by
          intro x member same'
          exact distinct.1 (List.mem_map.2 ⟨x, member, same'.trans same.symm⟩)
        have replaced : (table.insert other).insert s = table.insert s :=
          congrArg SymbolTable.mk (put_put same table.symbols)
        rw [List.foldl_cons, List.foldl_cons, foldl_insert_comm known apart, replaced]
      · exact ih distinct.2

theorem foldl_insert_ofList (symbols : List Symbol) (table : SymbolTable) :
    (ofList symbols).symbols.foldl insert table = symbols.foldl insert table := by
  induction symbols using List.reverseRecOn with
  | nil => rfl
  | append_singleton symbols s ih =>
      have last : (ofList (symbols ++ [s])).symbols = put s (ofList symbols).symbols := by
        rw [ofList, List.foldl_append]
        rfl
      rw [last, foldl_insert_put (nodup_keys_ofList symbols), ih, List.foldl_append]
      rfl

theorem filter_put (keeps : SymbolKey → Bool) (s : Symbol) (symbols : List Symbol) :
    (put s symbols).filter (fun x => keeps x.key) =
      if keeps s.key then put s (symbols.filter fun x => keeps x.key)
      else symbols.filter fun x => keeps x.key := by
  induction symbols with
  | nil => cases keep : keeps s.key <;> simp [put, keep]
  | cons first rest ih =>
      rw [put]
      by_cases same : first.key = s.key
      · cases keep : keeps s.key <;> simp [put, same, keep]
      · rw [if_neg same, List.filter_cons, ih]
        cases keep : keeps s.key <;> cases first_ : keeps first.key <;>
          simp [put, same, first_]

theorem filter_foldl_insert (keeps : SymbolKey → Bool) (symbols : List Symbol)
    (table : SymbolTable) :
    (symbols.foldl insert table).symbols.filter (fun x => keeps x.key) =
      ((symbols.filter fun x => keeps x.key).foldl insert
        ⟨table.symbols.filter fun x => keeps x.key⟩).symbols := by
  induction symbols generalizing table with
  | nil => rfl
  | cons s symbols ih =>
      rw [List.foldl_cons, ih, insert, filter_put, List.filter_cons]
      split <;> rfl

theorem filter_ofList (keeps : SymbolKey → Bool) (symbols : List Symbol) :
    (ofList symbols).symbols.filter (fun x => keeps x.key) =
      (ofList (symbols.filter fun x => keeps x.key)).symbols :=
  filter_foldl_insert keeps symbols empty

theorem foldl_insert_replace {done old : List Symbol}
    (fits : old.map Symbol.key <+: symbols.map Symbol.key)
    (distinct : ((done ++ symbols).map Symbol.key).Nodup) :
    symbols.foldl insert ⟨done ++ old⟩ = ⟨done ++ symbols⟩ := by
  induction symbols generalizing done old with
  | nil =>
      rw [List.map_nil, List.prefix_nil, List.map_eq_nil_iff] at fits
      rw [fits]
      rfl
  | cons s symbols ih =>
      have apart : ∀ other ∈ done, other.key ≠ s.key := by
        rw [List.map_append, List.nodup_append] at distinct
        exact fun other member =>
          distinct.2.2 _ (List.mem_map_of_mem member) _ (by simp)
      have further : (((done ++ [s]) ++ symbols).map Symbol.key).Nodup := by
        simpa using distinct
      have placed : ∃ left, left.map Symbol.key <+: symbols.map Symbol.key ∧
          put s (done ++ old) = (done ++ [s]) ++ left := by
        cases old with
        | nil =>
            refine ⟨[], List.nil_prefix, ?_⟩
            rw [put_append apart, List.append_nil]
            rfl
        | cons first left =>
            rw [List.map_cons, List.map_cons, List.cons_prefix_cons] at fits
            refine ⟨left, fits.2, ?_⟩
            rw [put_append apart, put, if_pos fits.1, List.append_assoc]
            rfl
      obtain ⟨left, fits, placed⟩ := placed
      rw [List.foldl_cons, insert, placed, ih fits further, List.append_assoc]
      rfl

theorem ofList_append_of_keys {earlier : List Symbol}
    (fits : (ofList earlier).keys <+: (ofList symbols).keys) :
    ofList (earlier ++ symbols) = ofList symbols := by
  have distinct : (([] ++ (ofList symbols).symbols).map Symbol.key).Nodup :=
    nodup_keys_ofList symbols
  rw [ofList, List.foldl_append, ← ofList, ← foldl_insert_ofList symbols]
  exact @foldl_insert_replace _ [] _ fits distinct

section Related

variable {R : Symbol → Symbol → Prop} {symbols' : List Symbol} {s' : Symbol}

theorem put_rel (alike : ∀ x y x' y', R x x' → R y y' → (x.key = y.key ↔ x'.key = y'.key))
    (h : List.Forall₂ R symbols symbols') (own : R s s') :
    List.Forall₂ R (put s symbols) (put s' symbols') := by
  induction h with
  | nil => exact .cons own .nil
  | @cons first first' _ _ related rest ih =>
      have same := alike first s first' s' related own
      by_cases here : first.key = s.key
      · rw [put, put, if_pos here, if_pos (same.1 here)]
        exact .cons own rest
      · rw [put, put, if_neg here, if_neg (mt same.2 here)]
        exact .cons related ih

theorem ofList_rel (alike : ∀ x y x' y', R x x' → R y y' → (x.key = y.key ↔ x'.key = y'.key))
    (h : List.Forall₂ R symbols symbols') :
    List.Forall₂ R (ofList symbols).symbols (ofList symbols').symbols := by
  refine List.rel_foldl (P := fun table table' : SymbolTable =>
    List.Forall₂ R table.symbols table'.symbols) ?_ .nil h
  intro table table' same s s' own
  exact put_rel alike same own

end Related

end TalAnalysis.SymbolTable
