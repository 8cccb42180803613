import Mathlib.Data.List.Forall2
import TalAnalysis.Proofs.Declaration.Coherence
import TalAnalysis.Proofs.Editor.RoundTrip
import TalAnalysis.Proofs.Lexer.Name
import TalAnalysis.Server.Basic

namespace TalAnalysis.Editor
open Text

/-- The range shows something, and its ends are the positions of the ends of the span. -/
structure TextRange.Denotes (source : String) (range : TextRange) (span : Span) : Prop where
  ordered : range.start < range.stop
  start : offsetAt? source range.start = some span.start
  stop : offsetAt? source range.stop = some span.stop

structure Covers (source : String) (span : Span) : Prop where
  start : IsPlace source span.start
  stop : IsPlace source span.stop
  some : span.start < span.stop

variable {source : String} {options : LexOptions}

theorem Covers.denotes {span : Span} (h : Covers source span) :
    (rangeOf source span).Denotes source span := by
  have widened : rangeOf source span =
      ⟨positionAt source span.start, positionAt source span.stop⟩ := by
    rw [rangeOf, Nat.max_eq_left h.some]
  rw [widened]
  exact ⟨positionAt_strictMonoOn source h.start h.stop h.some, offsetAt?_positionAt h.start,
    offsetAt?_positionAt h.stop⟩

theorem isPlace_of_standsAfter {before : List Char} {r : Reader}
    (h : r.StandsAfter source.toList before) : IsPlace source (byteLength before) :=
  ⟨before, r.rest, h.cut, rfl, h.whole⟩

theorem covers_piece {p : PlacedPiece} (member : p ∈ pieces options.groupNames source) :
    Covers source p.span := by
  obtain ⟨before, ⟨r, start, place⟩, ⟨r', stop⟩⟩ := pieces_stand options.groupNames source p member
  have segmented : Segmented options.groupNames
      ((pieces options.groupNames source).map PlacedPiece.piece) source.toList :=
    piecesFrom_segmented .plain (Reader.ofText source.toList)
  have some := segmented.ne_nil _ (List.mem_map_of_mem member)
  have span : p.span = ⟨byteLength before, byteLength (before ++ p.piece.text)⟩ := by
    rw [PlacedPiece.span, place, start.place, byteLength_append]
  rw [span]
  refine ⟨isPlace_of_standsAfter start, isPlace_of_standsAfter stop, ?_⟩
  rw [byteLength_append]
  exact Nat.lt_add_of_pos_right (byteLength_pos some)

theorem covers_token {t : Token} (member : t ∈ (lex source options).tokens) :
    Covers source t.span := by
  obtain ⟨p, placed, shown⟩ := List.mem_filterMap.1 member
  exact span_of_token? shown ▸ covers_piece placed

theorem covers_lexed {d : Diagnostic} (member : d ∈ (lex source options).diagnostics) :
    Covers source d.span := by
  obtain ⟨p, placed, shown⟩ := List.mem_filterMap.1 member
  obtain ⟨cause, -, rfl⟩ := Option.map_eq_some_iff.1 shown
  exact covers_piece placed

theorem covers_symbol {s : Symbol} (member : s ∈ (analyze source options).symbols.symbols) :
    Covers source s.span := by
  have listed := Declaration.Finding.mem_symbols.1 (SymbolTable.mem_ofList member)
  obtain ⟨t, member, written⟩ := ((Declaration.findings_coherent {} _).symbols s listed).written
  exact written.span ▸ covers_token member

theorem covers_extracted {d : Diagnostic}
    (member : d ∈ (Declaration.extract (lex source options).tokens).diagnostics) :
    Covers source d.span := by
  obtain ⟨t, member, same⟩ :=
    Declaration.reported_of_mem_findings (Declaration.Finding.mem_diagnostics.1 member)
  exact same ▸ covers_token member

theorem covers_diagnostic {d : Diagnostic} (member : d ∈ (analyze source options).diagnostics) :
    Covers source d.span :=
  (List.mem_append.1 member).elim covers_lexed covers_extracted

/-- In a source of less than 2³² bytes, each position that is sent fits in words of 32 bits. -/
theorem rangeOf_fitsWord (small : byteLength source.toList < UInt32.size) (span : Span) :
    (rangeOf source span).start.FitsWord ∧ (rangeOf source span).stop.FitsWord :=
  ⟨positionAt_fitsWord small _, positionAt_fitsWord small _⟩

theorem analyze_ranges (source : String) (options : LexOptions) :
    let a := analyze source options
    (∀ t ∈ a.tokens, (rangeOf source t.span).Denotes source t.span) ∧
    (∀ s ∈ a.symbols.symbols, (rangeOf source s.span).Denotes source s.span) ∧
    (∀ d ∈ a.diagnostics, (rangeOf source d.span).Denotes source d.span) ∧
    ∀ uri version, ∃ log problems,
      Server.announce uri ⟨source, version, a⟩ = log ++ [.problems uri (some version) problems] ∧
      (∀ notice ∈ log, ∃ level line, notice = .log level line) ∧
      List.Forall₂ (fun d problem => problem.code = d.code ∧ problem.range = rangeOf source d.span)
        a.diagnostics problems := by
  intro a
  refine ⟨fun t member => (covers_token member).denotes,
    fun s member => (covers_symbol member).denotes,
    fun d member => (covers_diagnostic member).denotes, ?_⟩
  intro uri version
  refine ⟨_, _, rfl, ?_, ?_⟩
  · intro notice member
    split at member
    · exact ⟨_, _, List.mem_singleton.1 member⟩
    · cases member
  · rw [Server.problemsOf, List.forall₂_map_right_iff, List.forall₂_same]
    exact fun d _ => ⟨rfl, rfl⟩

theorem analyze_ranges_openComment :
    Diagnostic.ofCause .unterminatedComment ⟨0, 6⟩ ∈ (analyze "! 😀\r\nEND" {}).diagnostics ∧
      (rangeOf "! 😀\r\nEND" ⟨0, 6⟩).Denotes "! 😀\r\nEND" ⟨0, 6⟩ := by
  have reported : Diagnostic.ofCause .unterminatedComment ⟨0, 6⟩ ∈
      (analyze "! 😀\r\nEND" {}).diagnostics := by decide +kernel
  exact ⟨reported, (analyze_ranges "! 😀\r\nEND" {}).2.2.1 _ reported⟩

end TalAnalysis.Editor
