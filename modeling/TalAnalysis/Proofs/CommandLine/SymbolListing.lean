import TalAnalysis.Proofs.CommandLine.Shown
import TalAnalysis.Proofs.CommandLine.TokenListing
import TalAnalysis.Proofs.Declaration.Directive.Line

namespace TalAnalysis
open Declaration

variable {source : String} {options : LexOptions} {s : Symbol} {text : String}

def Symbol.fields (s : Symbol) : List String :=
  [s.key.render, s.kind.label, s.type.label, placeText s.line s.startColumn s.endColumn] ++
    if s.value = .none then [] else ["= " ++ s.value.render]

theorem symbolLine_eq (s : Symbol) : symbolLine s = "\t".intercalate s.fields ++ "\n" := by
  have opening : "\t= " = "\t" ++ "= " := rfl
  rw [symbolLine, Symbol.fields]
  cases s.value with
  | none =>
      simp [String.intercalate_cons_cons, String.intercalate_singleton, String.append_assoc]
  | text | tokens =>
      simp only [reduceCtorEq, if_false, List.cons_append, List.nil_append,
        String.intercalate_cons_cons, String.intercalate_singleton, String.append_assoc, opening]

/-- The text shows no string and no comment that parts lines or columns. -/
def ShowsFields (tokens : List Token) (text : String) : Prop :=
  ∀ t ∈ tokens, (∃ contents, t.kind = .string contents) ∨ t.kind = .comment →
    t.text.toList <:+: text.toList → IsField t.text

theorem isField_of_shownBy (shown : ShownBy (lex source options).tokens text)
    (fields : ShowsFields (lex source options).tokens text) : IsField text := by
  have other {c : Char} (noSpace : c ≠ ' ') (separates : c ∈ separators)
      (inField : ∀ field, IsField field → c ∉ field.toList) : c ∉ text.toList := by
    intro member
    obtain ⟨t, listed, onLine, inside, whole⟩ := (shown c member).resolve_left noSpace
    by_cases free : (∃ contents, t.kind = .string contents) ∨ t.kind = .comment
    · exact inField t.text (fields t listed free whole) inside
    · obtain ⟨noString, noComment⟩ := not_or.1 free
      exact not_mem_text_of_separates listed onLine (not_exists.1 noString) noComment separates
        inside
  exact ⟨other (by decide) (by decide) fun _ h => h.1, other (by decide) (by decide) fun _ h => h.2⟩

theorem isField_of_isWord {t : Token} (member : t ∈ (lex source options).tokens)
    (isWord : t.kind.isWord = true) : IsField t.text := by
  have other {kind : TokenKind} (noWord : kind.isWord = false) : t.kind ≠ kind := by
    rintro rfl
    rw [isWord] at noWord
    cases noWord
  exact isField_of_token member (endsLine_of_isWord isWord) (fun _ => other rfl) (other rfl)

theorem isField_name (found : .symbol s ∈ findings {} (lex source options).tokens) :
    IsField s.name := by
  have directives : ∀ d ∈ Directive.all, IsField d.spelling := by decide
  rcases shown_name found with ⟨t, member, isWord, same⟩ | ⟨d, same⟩
  · exact same ▸ isField_of_isWord member isWord
  · exact same ▸ directives d (Directive.mem_all d)

theorem isField_context (found : .symbol s ∈ findings {} (lex source options).tokens)
    (fields : ShowsFields (lex source options).tokens s.context) : IsField s.context := by
  have start : Outline.ScopesRooted [] ({} : State).scopes :=
    fun scope member => List.mem_singleton.1 member ▸ .global
  rcases Outline.findings_rooted start found with rooted | none
  · rcases Outline.shown_of_rooted rooted with same | ⟨x, found, same⟩ | shown
    · exact same ▸ by decide
    · exact same ▸ isField_name found
    · exact isField_of_shownBy shown fields
  · exact none ▸ by decide

theorem isField_value (found : .symbol s ∈ findings {} (lex source options).tokens)
    (fields : ShowsFields (lex source options).tokens s.value.render) :
    IsField s.value.render := by
  rcases shown_value found with shown | ⟨-, d, value⟩
  · exact isField_of_shownBy shown fields
  · exact value ▸ d.isField_spelling

theorem isField_key (found : .symbol s ∈ findings {} (lex source options).tokens)
    (context : IsField s.context) : IsField s.key.render := by
  have coherent := findings_coherent {} (lex source options).tokens
  have own := coherent.symbols s found
  obtain ⟨base, listed, name⟩ := coherent.exists_name found
  rw [SymbolKey.render, own.context, name]
  refine ((context.append (by decide)).append (isField_name listed)).append ?_
  cases suffix : s.key.suffix with
  | none | body => decide
  | parameter p =>
      have fits := own.suffix
      rw [suffix] at fits
      exact IsField.append (by decide) (fits.1 ▸ isField_name found)

theorem SymbolKind.isField_label (kind : SymbolKind) : IsField kind.label := by
  cases kind <;> decide

theorem SymbolType.isField_label (type : SymbolType) : IsField type.label := by
  cases type with
  | typed d => exact d.isField_spelling
  | _ => decide

theorem Symbol.isField_of_mem_fields (found : .symbol s ∈ findings {} (lex source options).tokens)
    (context : ShowsFields (lex source options).tokens s.context)
    (value : ShowsFields (lex source options).tokens s.value.render) :
    ∀ field ∈ s.fields, IsField field := by
  intro field own
  rcases List.mem_append.1 own with front | last
  · simp only [List.mem_cons, List.not_mem_nil, or_false] at front
    rcases front with rfl | rfl | rfl | rfl
    · exact isField_key found (isField_context found context)
    · exact s.kind.isField_label
    · exact s.type.isField_label
    · exact isField_place _ _ _
  · split at last
    · cases last
    · obtain rfl := List.mem_singleton.1 last
      exact IsField.append (by decide) (isField_value found value)

theorem lists_symbolListing_iff {symbols : List Symbol} :
    Lists (symbolListing symbols) (symbols.map Symbol.fields) ↔
      ∀ s ∈ symbols, ∀ field ∈ s.fields, IsField field :=
  lists_map_iff symbolLine_eq (fun _ => List.cons_ne_nil _ _) symbols

theorem Symbol.isField_shown {tokens : List Token} (found : .symbol s ∈ findings {} tokens)
    (fields : ∀ field ∈ s.fields, IsField field) : IsField s.context ∧ IsField s.value.render := by
  have own := ((findings_coherent {} tokens).symbols s found).context
  constructor
  · refine (fields s.key.render List.mem_cons_self).of_part ?_
    rw [SymbolKey.render, own, String.append_assoc, String.append_assoc, String.toList_append]
    exact (List.prefix_append _ _).isInfix
  · by_cases none : s.value = .none
    · exact none ▸ by decide
    · refine IsField.of_part (fields ("= " ++ s.value.render) ?_) ?_
      · rw [Symbol.fields, if_neg none]
        exact List.mem_append_right _ (List.mem_singleton_self _)
      · rw [String.toList_append]
        exact (List.suffix_append _ _).isInfix

/-- The listing of the symbols of a source is in rows, of four fields or, with a value, of five, and
has a line feed to each symbol, just if no string and no comment that stands whole in a value or a
context holds a tab or a line feed. -/
theorem symbolListing_lists (source : String) (options : LexOptions) :
    let tokens := (lex source options).tokens
    let symbols := (analyze source options).symbols.symbols
    let listing := symbolListing symbols
    (Lists listing (symbols.map fun s =>
        [s.key.render, s.kind.label, s.type.label, placeText s.line s.startColumn s.endColumn] ++
          if s.value = .none then [] else ["= " ++ s.value.render]) ∧
      listing.toList.count '\n' = symbols.length) ↔
    ∀ s ∈ symbols, ∀ t ∈ tokens, (∃ contents, t.kind = .string contents) ∨ t.kind = .comment →
      t.text.toList <:+: s.context.toList ∨ t.text.toList <:+: s.value.render.toList →
        IsField t.text := by
  intro tokens symbols listing
  have found {s : Symbol} (member : s ∈ symbols) : .symbol s ∈ findings {} tokens :=
    Finding.mem_symbols.1 (SymbolTable.mem_ofList member)
  constructor
  · rintro ⟨lists, -⟩ s member t - - shown
    obtain ⟨context, value⟩ :=
      Symbol.isField_shown (found member) (lists_symbolListing_iff.1 lists s member)
    exact shown.elim context.of_part value.of_part
  · intro fields
    have lists : Lists listing (symbols.map Symbol.fields) := by
      refine lists_symbolListing_iff.2 fun s member => ?_
      exact Symbol.isField_of_mem_fields (found member)
        (fun t listed free shown => fields s member t listed free (.inl shown))
        fun t listed free shown => fields s member t listed free (.inr shown)
    exact ⟨lists, lists.count_lineFeed.trans (List.length_map _)⟩

example : let symbols := (analyze "LITERAL s = \"a\nb\";").symbols.symbols
    symbols.length = 1 ∧ (symbolListing symbols).toList.count '\n' = 2 := by
  decide +kernel

end TalAnalysis
