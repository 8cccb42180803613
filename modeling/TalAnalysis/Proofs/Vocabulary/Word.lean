import TalAnalysis.Token.Basic
import TalAnalysis.Vocabulary.Directive
import TalAnalysis.Vocabulary.StandardFunction

namespace TalAnalysis

variable {α : Type}

theorem sameWord_iff_toLower {a b : String} : sameWord a b = true ↔ a.toLower = b.toLower := by
  show _ ↔ a.map Char.toLower = b.map Char.toLower
  rw [sameWord_iff, ← String.toList_inj, String.toList_map, String.toList_map]
  rfl

/-- The look-up `find?` finds an item for a word exactly if the word is the spelling of the item,
whatever the case of their ASCII letters, and the case of the word does not count. -/
structure FindsWords (isItem : α → Prop) (spelling : α → String) (find? : String → Option α) :
    Prop where
  found_iff : ∀ word item,
    find? word = some item ↔ isItem item ∧ word.toLower = (spelling item).toLower
  ignoresCase : ∀ word word', word.toLower = word'.toLower → find? word = find? word'

namespace FindsWords

variable {isItem : α → Prop} {spelling : α → String} {find? : String → Option α}

theorem of_sameWord (found : ∀ word item,
    find? word = some item ↔ isItem item ∧ sameWord word (spelling item) = true) :
    FindsWords isItem spelling find? := by
  simp only [sameWord_iff_toLower] at found
  refine ⟨found, fun word word' same => Option.ext fun item => ?_⟩
  rw [found, found, same]

theorem keyword : FindsWords (fun _ => True) Keyword.spelling Keyword.ofSpelling? :=
  of_sameWord fun word k => by rw [Keyword.ofSpelling?_eq_some_iff, true_and]

theorem dataType : FindsWords (fun _ => True) DataType.spelling DataType.ofSpelling? :=
  of_sameWord fun word t => by rw [DataType.ofSpelling?_eq_some_iff, true_and]

theorem operator : FindsWords (fun o => o.isWord = true) Operator.spelling Operator.ofWord? :=
  of_sameWord fun _ _ => Operator.ofWord?_eq_some_iff

theorem directive : FindsWords (fun _ => True) Directive.spelling Directive.ofSpelling? :=
  of_sameWord fun word d => by rw [Directive.ofSpelling?_eq_some_iff, true_and]

theorem standardFunction :
    FindsWords (· ∈ StandardFunction.all) StandardFunction.name StandardFunction.ofName? :=
  of_sameWord fun _ _ => StandardFunction.ofName?_eq_some_iff

theorem eq_bind (finds : FindsWords isItem spelling find?) {ofKeyword? : Keyword → Option α}
    (spelled : ∀ k item, ofKeyword? k = some item → isItem item ∧ k.spelling = spelling item)
    (reserved : ∀ item, isItem item → ∃ k, ofKeyword? k = some item) (word : String) :
    find? word = (Keyword.ofSpelling? word).bind ofKeyword? := by
  refine Option.ext fun item => ?_
  rw [finds.found_iff, Option.bind_eq_some_iff]
  constructor
  · rintro ⟨isItem, same⟩
    obtain ⟨k, told⟩ := reserved item isItem
    have spelling := (spelled k item told).2
    exact ⟨k, (keyword.found_iff word k).2 ⟨trivial, spelling ▸ same⟩, told⟩
  · rintro ⟨k, found, told⟩
    obtain ⟨isItem, spelling⟩ := spelled k item told
    exact ⟨isItem, spelling ▸ ((keyword.found_iff word k).1 found).2⟩

end FindsWords

namespace DataType

theorem keyword_of_ofKeyword? {k : Keyword} {t : DataType} (told : ofKeyword? k = some t) :
    t.keyword = k := by
  have same := List.find?_some told
  exact eq_of_beq same

theorem ofKeyword?_keyword (t : DataType) : ofKeyword? t.keyword = some t := by
  cases t <;> rfl

theorem ofSpelling?_eq_bind (word : String) :
    ofSpelling? word = (Keyword.ofSpelling? word).bind ofKeyword? := by
  refine FindsWords.dataType.eq_bind (fun k t told => ⟨trivial, ?_⟩) (fun t _ => ?_) word
  · rw [← keyword_of_ofKeyword? told, spelling_keyword]
  · exact ⟨t.keyword, ofKeyword?_keyword t⟩

end DataType

namespace Operator

theorem spelling_of_ofKeyword? {k : Keyword} {o : Operator} (told : ofKeyword? k = some o) :
    o.isWord = true ∧ k.spelling = o.spelling := by
  cases k <;> cases told <;> exact ⟨rfl, rfl⟩

theorem exists_ofKeyword? {o : Operator} (isWord : o.isWord = true) :
    ∃ k, ofKeyword? k = some o := by
  have listed : ∀ o ∈ words, ∃ k ∈ Keyword.all, ofKeyword? k = some o := by decide +kernel
  obtain ⟨k, -, told⟩ := listed o (List.mem_filter.2 ⟨mem_all o, isWord⟩)
  exact ⟨k, told⟩

theorem ofWord?_eq_bind (word : String) :
    ofWord? word = (Keyword.ofSpelling? word).bind ofKeyword? :=
  FindsWords.operator.eq_bind (fun _ _ => spelling_of_ofKeyword?) (fun _ => exists_ofKeyword?) word

end Operator

/-- What a reserved word stands for: a data type or an operator if it is one, or else itself. -/
def TokenKind.ofKeyword (k : Keyword) : TokenKind :=
  match DataType.ofKeyword? k with
  | some t => .dataType t
  | none =>
    match Operator.ofKeyword? k with
    | some o => .operator o
    | none => .keyword k

theorem TokenKind.ofWord_eq (word : String) :
    ofWord word = ((Keyword.ofSpelling? word).map ofKeyword).getD (.name word) := by
  rw [ofWord, DataType.ofSpelling?_eq_bind, Operator.ofWord?_eq_bind]
  cases Keyword.ofSpelling? word with
  | none => rfl
  | some k => rfl

/-- A word stands for what the reserved word stands for that it spells, or else for a name. Every
vocabulary of words is looked up by spelling, in any case. -/
theorem ofWord_refines_keyword :
    (∀ word, TokenKind.ofWord word =
      match Keyword.ofSpelling? word with
      | some k => .ofKeyword k
      | none => .name word) ∧
    FindsWords (fun _ => True) Keyword.spelling Keyword.ofSpelling? ∧
    FindsWords (fun _ => True) DataType.spelling DataType.ofSpelling? ∧
    FindsWords (fun o => o.isWord = true) Operator.spelling Operator.ofWord? ∧
    FindsWords (fun _ => True) Directive.spelling Directive.ofSpelling? ∧
    FindsWords (· ∈ StandardFunction.all) StandardFunction.name StandardFunction.ofName? := by
  refine ⟨fun word => ?_, .keyword, .dataType, .operator, .directive, .standardFunction⟩
  rw [TokenKind.ofWord_eq]
  cases Keyword.ofSpelling? word with
  | none => rfl
  | some k => rfl

end TalAnalysis
