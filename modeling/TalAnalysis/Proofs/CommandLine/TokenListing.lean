import Mathlib.Logic.Function.Basic
import TalAnalysis.Proofs.CommandLine.Rows
import TalAnalysis.Proofs.Lexer.Reading

namespace TalAnalysis

variable {source : String} {options : LexOptions} {t : Token}

def Token.fields (t : Token) : List String :=
  [placeText t.line t.startColumn t.endColumn, t.kind.describe, Text.quoted t.text]

theorem tokenLine_eq (t : Token) : tokenLine t = "\t".intercalate t.fields ++ "\n" := by
  simp only [tokenLine, Token.fields, String.intercalate_cons_cons, String.intercalate_singleton,
    String.append_assoc]

theorem Keyword.isField_spelling (k : Keyword) : IsField k.spelling := by
  have listed : ∀ k ∈ all, IsField k.spelling := by decide
  exact listed k (mem_all k)

theorem DataType.isField_spelling (t : DataType) : IsField t.spelling :=
  t.spelling_keyword ▸ t.keyword.isField_spelling

theorem TokenKind.isField_describe {kind : TokenKind} (name : ∀ n, kind = .name n → IsField n) :
    IsField kind.describe := by
  have operators : ∀ o ∈ Operator.all, IsField o.spelling := by decide
  have delimiters : ∀ d ∈ Delimiter.all, IsField d.spelling := by decide
  cases kind with
  | keyword k => exact IsField.append (by decide) k.isField_spelling
  | dataType t => exact IsField.append (by decide) t.isField_spelling
  | operator o => exact IsField.append (by decide) (operators o (Operator.mem_all o))
  | indirection i => exact IsField.append (by decide) (by cases i <;> decide)
  | delimiter d => exact IsField.append (by decide) (delimiters d (Delimiter.mem_all d))
  | name n => exact IsField.append (by decide) (name n rfl)
  | number value => exact IsField.append (by decide) (isField_int value)
  | string contents => exact IsField.append (by decide) (isField_quoted contents)
  | directive | directiveLine | newLine | comment | lineComment => decide

theorem isField_of_token (member : t ∈ (lex source options).tokens)
    (onLine : t.kind.endsLine = false) (noString : ∀ contents, t.kind ≠ .string contents)
    (noComment : t.kind ≠ .comment) : IsField t.text :=
  ⟨not_mem_text_of_separates member onLine noString noComment (by decide),
    not_mem_text_of_separates member onLine noString noComment (by decide)⟩

theorem Token.isField_of_mem_fields (member : t ∈ (lex source options).tokens) :
    ∀ field ∈ t.fields, IsField field := by
  have described : IsField t.kind.describe := TokenKind.isField_describe fun n named => by
    rw [← text_of_name member named]
    exact isField_of_token member (by rw [named]; rfl) (by simp [named]) (by simp [named])
  intro field own
  simp only [Token.fields, List.mem_cons, List.not_mem_nil, or_false] at own
  rcases own with rfl | rfl | rfl
  · exact isField_place _ _ _
  · exact described
  · exact isField_quoted _

theorem splitOn_place (line start stop : Nat) :
    let columns := Nat.toDigits 10 start ++ '-' :: Nat.toDigits 10 stop
    (placeText line start stop).toList.splitOn ':' = [Nat.toDigits 10 line, columns] ∧
      columns.splitOn '-' = [Nat.toDigits 10 start, Nat.toDigits 10 stop] := by
  intro columns
  have noDigit {c : Char} (other : c.isDigit = false) (n : Nat) : c ∉ Nat.toDigits 10 n :=
    fun member => Bool.eq_false_iff.1 other
      (Nat.isDigit_of_mem_toDigits (by decide) (by decide) member)
  have place : (placeText line start stop).toList =
      [':'].intercalate [Nat.toDigits 10 line, columns] := by simp [placeText, columns]
  have within : columns = ['-'].intercalate [Nat.toDigits 10 start, Nat.toDigits 10 stop] := by
    simp [columns]
  constructor
  · rw [place, List.splitOn_intercalate ':' ?_ (List.cons_ne_nil _ _)]
    simp [columns, noDigit]
  · rw [within, List.splitOn_intercalate '-' ?_ (List.cons_ne_nil _ _)]
    simp [noDigit]

theorem place_eq_of_placeText {line start stop line' start' stop' : Nat}
    (same : placeText line start stop = placeText line' start' stop') :
    line = line' ∧ start = start' ∧ stop = stop' := by
  have ⟨parts, columns⟩ := splitOn_place line start stop
  have ⟨parts', columns'⟩ := splitOn_place line' start' stop'
  rw [same, parts'] at parts
  simp only [List.cons.injEq, and_true] at parts
  rw [← parts.2, columns'] at columns
  simp only [List.cons.injEq, and_true] at columns
  have number {m n : Nat} (same : Nat.toDigits 10 m = Nat.toDigits 10 n) : n = m :=
    (Text.toDigits_injective (by decide) (by decide) same).symm
  exact ⟨number parts.1, number columns.1, number columns.2⟩

theorem factorsThrough_fields :
    Function.FactorsThrough
      (fun t : Token => (t.line, t.startColumn, t.endColumn, t.kind.describe, t.text))
      Token.fields := by
  intro t u same
  simp only [Token.fields, List.cons.injEq, and_true] at same
  obtain ⟨line, start, stop⟩ := place_eq_of_placeText same.1
  simp only [line, start, stop, same.2.1, Text.quoted_injective same.2.2]

theorem lists_tokenListing (source : String) (options : LexOptions) :
    Lists (tokenListing (lex source options).tokens)
      ((lex source options).tokens.map Token.fields) := by
  refine (lists_map_iff tokenLine_eq (fun _ => List.cons_ne_nil _ _) _).2 fun t member => ?_
  exact Token.isField_of_mem_fields member

/-- The listing of the tokens of a source has a line to each token, with its place, what it stands
for and its text in quotation marks, and no two lists of tokens that differ in these have the same
listing. -/
theorem tokenListing_lists (source : String) (options : LexOptions) :
    let tokens := (lex source options).tokens
    let listing := tokenListing tokens
    (Lists listing (tokens.map fun t =>
        [placeText t.line t.startColumn t.endColumn, t.kind.describe, Text.quoted t.text]) ∧
      listing.toList.count '\n' = tokens.length) ∧
    ∀ (source' : String) (options' : LexOptions),
      tokenListing (lex source' options').tokens = listing →
        ((lex source' options').tokens.map fun t =>
            (t.line, t.startColumn, t.endColumn, t.kind.describe, t.text)) =
          tokens.map fun t => (t.line, t.startColumn, t.endColumn, t.kind.describe, t.text) := by
  intro tokens listing
  have lists := lists_tokenListing source options
  refine ⟨⟨lists, lists.count_lineFeed.trans (List.length_map _)⟩, fun source' options' same => ?_⟩
  have rows : (lex source' options').tokens.map Token.fields = tokens.map Token.fields := by
    rw [lists.rows_eq, (lists_tokenListing source' options').rows_eq, same]
  obtain ⟨read, shown⟩ := (Function.factorsThrough_iff _).1 factorsThrough_fields
  rw [shown, ← List.map_map, rows, List.map_map]

end TalAnalysis
