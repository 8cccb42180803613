import TalAnalysis.Text.Character

namespace TalAnalysis

variable {α : Type}

def findWord? (items : List α) (spelling : α → String) (word : String) : Option α :=
  items.find? fun item => sameWord word (spelling item)

def DistinctWords (items : List α) (spelling : α → String) : Prop :=
  (items.map fun item => Text.foldCase (spelling item).toList).Nodup

instance (items : List α) (spelling : α → String) : Decidable (DistinctWords items spelling) :=
  inferInstanceAs (Decidable (List.Nodup _))

theorem sameWord_iff {a b : String} :
    sameWord a b = true ↔ Text.foldCase a.toList = Text.foldCase b.toList := Text.sameSpelling_iff

theorem findWord?_eq_none_iff {items : List α} {spelling : α → String} {word : String} :
    findWord? items spelling word = none ↔
      ∀ item ∈ items, sameWord word (spelling item) = false := by
  simp [findWord?]

theorem findWord?_eq_some_iff {items : List α} {spelling : α → String} {word : String} {item : α}
    (distinct : DistinctWords items spelling) :
    findWord? items spelling word = some item ↔
      item ∈ items ∧ sameWord word (spelling item) = true := by
  induction items with
  | nil => simp [findWord?]
  | cons first items ih =>
    obtain ⟨apart, distinct⟩ := List.nodup_cons.1 distinct
    simp only [findWord?, List.find?_cons, List.mem_cons]
    cases found : sameWord word (spelling first) with
    | true =>
      simp only [Option.some.injEq]
      constructor
      · rintro rfl; exact ⟨.inl rfl, found⟩
      · rintro ⟨rfl | member, same⟩
        · rfl
        · have folded := (sameWord_iff.1 same).symm.trans (sameWord_iff.1 found)
          exact absurd (List.mem_map.2 ⟨item, member, folded⟩) apart
    | false =>
      refine (ih distinct).trans ⟨fun ⟨member, same⟩ => ⟨.inr member, same⟩, ?_⟩
      rintro ⟨rfl | member, same⟩
      · simp [found] at same
      · exact ⟨member, same⟩

theorem findWord?_congr {items : List α} {spelling : α → String} {a b : String}
    (same : sameWord a b = true) : findWord? items spelling a = findWord? items spelling b := by
  simp only [findWord?]
  congr 1
  funext item
  simp only [sameWord, Text.sameSpelling, sameWord_iff.1 same]

end TalAnalysis
