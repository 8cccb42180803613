import Mathlib.Data.List.Induction
import TalAnalysis.Analysis
import TalAnalysis.Editor.Completion
import TalAnalysis.Proofs.Checked.Extraction
import TalAnalysis.Proofs.Checked.Scan
import TalAnalysis.Proofs.Editor.RoundTrip

namespace TalAnalysis.Checked
open Text Editor

def analyze? (source : String) (options : LexOptions) : Option Analysis := do
  let lexed ← lex? source options
  let extracted ← extract? lexed.tokens
  return {
    tokens := lexed.tokens
    symbols := extracted.symbols
    diagnostics := lexed.diagnostics ++ extracted.diagnostics }

theorem analyze?_eq (source : String) (options : LexOptions) :
    analyze? source options = some (analyze source options) := by
  rw [analyze?, lex?_eq, Option.bind_eq_bind, Option.bind_some, extract?_eq]
  rfl

def lastBreak? : List Char → Option Nat
  | [] => none
  | c :: text =>
    match lastBreak? text with
    | some offset => some (c.utf8Size + offset)
    | none => if isLineBreak c then some 0 else none

def lineStart (text : List Char) : Nat := (lastBreak? text).elim 0 (· + 1)

def onDirectiveLine? (source : List Char) (offset : Nat) : Option Bool := do
  let offset := min offset (byteLength source)
  let before ← front? source offset
  let line ← slice? source (lineStart before) offset
  return (line.dropWhile isWhiteSpace).head? = some '?'

theorem lastBreak?_concat (text : List Char) (c : Char) :
    lastBreak? (text ++ [c]) =
      if isLineBreak c then some (byteLength text) else lastBreak? text := by
  induction text with
  | nil => rfl
  | cons d text ih =>
      rw [List.cons_append, lastBreak?, ih]
      cases isLineBreak c <;> rfl

theorem lastLine_concat (text : List Char) (c : Char) :
    lastLine (text ++ [c]) = if isLineBreak c then [] else lastLine text ++ [c] := by
  rw [lastLine, List.reverse_concat, List.takeWhile_cons]
  cases isLineBreak c with
  | false => exact List.reverse_cons
  | true => rfl

theorem utf8Size_of_isLineBreak {c : Char} (breaks : isLineBreak c = true) : c.utf8Size = 1 := by
  rw [isLineBreak, Bool.or_eq_true, beq_iff_eq, beq_iff_eq] at breaks
  rcases breaks with rfl | rfl <;> rfl

theorem lineStart_lastLine (text : List Char) :
    ∃ earlier, text = earlier ++ lastLine text ∧ lineStart text = byteLength earlier := by
  induction text using List.reverseRecOn with
  | nil => exact ⟨[], rfl, rfl⟩
  | append_singleton text c ih =>
      rw [lastLine_concat, lineStart, lastBreak?_concat]
      cases breaks : isLineBreak c with
      | true =>
          -- A line break is one byte long, so the byte after it begins a character.
          refine ⟨text ++ [c], (List.append_nil _).symm, ?_⟩
          rw [byteLength_append, byteLength_cons, utf8Size_of_isLineBreak breaks]
          rfl
      | false =>
          obtain ⟨earlier, cut, start⟩ := ih
          exact ⟨earlier, by rw [if_neg Bool.false_ne_true, ← List.append_assoc, ← cut], start⟩

theorem min_byteLength (before after : List Char) :
    min (byteLength before) (byteLength (before ++ after)) = byteLength before :=
  Nat.min_eq_left (byteLength_le_of_front (List.prefix_append before after))

theorem onDirectiveLine?_eq (before after : List Char) :
    onDirectiveLine? (before ++ after) (byteLength before) = some (opensDirectiveLine before) := by
  obtain ⟨earlier, cut, start⟩ := lineStart_lastLine before
  have line : slice? (before ++ after) (lineStart before) (byteLength before) =
      some (lastLine before) := by
    have middle := slice?_middle earlier (lastLine before) after
    rwa [← List.append_assoc, ← byteLength_append, ← cut, ← start] at middle
  rw [onDirectiveLine?, min_byteLength, front?_byteLength, Option.bind_eq_bind, Option.bind_some,
    line]
  rfl

def completions? (source : String) (symbols : SymbolTable) (position : Position) :
    Option (List Completion) := do
  let offset := (offsetAt? source position).getD (byteLength source.toList)
  if ← onDirectiveLine? source.toList offset then return directiveCompletions
  else return vocabularyCompletions ++ symbolCompletions symbols

theorem exists_cut_offsetAt? (source : String) (position : Position) :
    ∃ before after, source.toList = before ++ after ∧
      (offsetAt? source position).getD (byteLength source.toList) = byteLength before := by
  cases found : offsetAt? source position with
  | none => exact ⟨source.toList, [], (List.append_nil _).symm, rfl⟩
  | some offset =>
      obtain ⟨before, after, cut, same, -⟩ := exists_stopsAt found fun _ => Nat.zero_le _
      exact ⟨before, after, cut, same.trans (Nat.zero_add _)⟩

theorem completions?_eq (source : String) (symbols : SymbolTable) (position : Position) :
    completions? source symbols position = some (completions source symbols position) := by
  obtain ⟨before, after, cut, place⟩ := exists_cut_offsetAt? source position
  have line : Editor.onDirectiveLine? source (byteLength before) =
      some (opensDirectiveLine before) := by
    rw [Editor.onDirectiveLine?, cut, min_byteLength, cutAt?_byteLength, Option.map_some]
  rw [completions?, completions, place, line, cut, onDirectiveLine?_eq]
  exact (apply_ite some _ _ _).symm

/-- Every operation of the analysis that could fail is defined wherever it is reached: on any text
and options, on any tokens, and for the completions at any position. The analysis with these
operations is the analysis without them. -/
theorem analysis_never_fails (source : String) (options : LexOptions) (tokens : List Token)
    (symbols : SymbolTable) (position : Position) :
    lex? source options = some (lex source options) ∧
      extract? tokens = some (Declaration.extract tokens) ∧
      analyze? source options = some (analyze source options) ∧
      completions? source symbols position = some (completions source symbols position) :=
  ⟨lex?_eq source options, extract?_eq tokens, analyze?_eq source options,
    completions?_eq source symbols position⟩

end TalAnalysis.Checked
