import Mathlib.Data.List.Basic
import TalAnalysis.Proofs.Lexer.Segmentation
import TalAnalysis.Proofs.Text.Line

namespace TalAnalysis
open Text

variable {groupNames : Bool}

theorem FurtherNames.name_of_mem {names : List Char} (h : FurtherNames names) {c : Char}
    (member : c ∈ names) : continuesName c = true ∨ c = ' ' := by
  induction h with
  | none => cases member
  | more inName rest ih =>
      rw [List.cons_append, List.mem_cons, List.mem_append] at member
      rcases member with space | inside | later
      · exact .inr space
      · exact .inl (inName c inside)
      · exact ih later

theorem Segment.name_of_mem {lexeme : Lexeme} {text after : List Char}
    (h : Segment groupNames lexeme text after) (word : lexeme = .word) {c : Char}
    (member : c ∈ text) : startsName c = true ∨ continuesName c = true ∨ c = ' ' := by
  cases h with
  | word opens inName further =>
      rw [List.cons_append, List.mem_cons, List.mem_append] at member
      rcases member with rfl | inside | later
      · exact .inl opens
      · exact .inr (.inl (inName c inside))
      · exact .inr (further.name_of_mem later)
  | _ => cases word

structure PartsWords (s : Char) : Prop where
  small : s.isLower = false
  lower : s.toLower = s
  noName : startsName s = false ∧ continuesName s = false ∧ s ≠ ' '
  noDigit : ∀ base : NumeralBase, base.isDigit s = false
  noMark : ∀ listed ∈ NumeralBase.marks, s ∉ listed.1.toList
  noSize : ∀ listed ∈ NumeralSize.marks, s ∉ listed.1.toList

namespace PartsWords

variable {s : Char}

theorem not_mem_of_sameSpelling (h : PartsWords s) {text listed : List Char}
    (same : sameSpelling text listed = true) (none : s ∉ listed) : s ∉ text :=
  fun member => none (mem_of_sameSpelling same h.small h.lower member)

theorem not_mem_mark (h : PartsWords s) {base : NumeralBase} {mark : List Char}
    (marked : base.Marks mark) : s ∉ mark := by
  rcases marked with ⟨rfl, -⟩ | ⟨entry, member, -, same⟩
  · exact List.not_mem_nil
  · exact h.not_mem_of_sameSpelling same (h.noMark entry member)

theorem not_mem_size (h : PartsWords s) {base : NumeralBase} {mark after : List Char}
    (sized : NumeralSize.Marks base mark after) : s ∉ mark := by
  rcases sized with rfl | ⟨entry, member, -, same, -⟩
  · exact List.not_mem_nil
  · exact h.not_mem_of_sameSpelling same (h.noSize entry member)

theorem not_mem_segment (h : PartsWords s) {lexeme : Lexeme} {text after : List Char}
    (segment : Segment groupNames lexeme text after)
    (held : lexeme = .word ∨ ∃ number, lexeme = .number number) : s ∉ text := by
  obtain ⟨noStart, noName, noSpace⟩ := h.noName
  rcases held with rfl | ⟨number, rfl⟩
  · intro member
    have inWord := segment.name_of_mem rfl member
    simp [noStart, noName, noSpace] at inWord
  · cases segment with
    | number marked some inBase stop sized =>
        rw [List.mem_append, List.mem_append]
        refine not_or.2 ⟨not_or.2 ⟨h.not_mem_mark marked, fun digit => ?_⟩, h.not_mem_size sized⟩
        exact Bool.eq_false_iff.1 (h.noDigit _) (inBase s digit)

end PartsWords

def separators : List Char := ['\t', '\n', '\r']

def Lexeme.isPlain : Lexeme → Bool
  | .number _ | .word | .directive _ => true
  | .sign s => s != .lineEnd
  | _ => false

section Separators
variable {s : Char}

theorem partsWords_of_separates (separates : s ∈ separators) : PartsWords s := by
  have listed : s = '\t' ∨ s = '\n' ∨ s = '\r' := by simpa [separators] using separates
  rcases listed with rfl | rfl | rfl
  all_goals
    exact {
      small := by decide
      lower := by decide
      noName := by decide
      noDigit := fun base => by cases base <;> decide
      noMark := by decide
      noSize := by decide }

theorem Sign.Spells.not_mem {sign : Sign} {text : List Char} (h : sign.Spells text)
    (onLine : sign ≠ .lineEnd) (separates : s ∈ separators) : s ∉ text := by
  have apart : ∀ listed ∈ spellings, listed.2 ≠ .lineEnd →
      (separators.all fun s => s ∉ listed.1.toList) = true := by decide +kernel
  have none (listed) (member : listed ∈ spellings) (other : listed.2 ≠ .lineEnd) :
      s ∉ listed.1.toList :=
    of_decide_eq_true (List.all_eq_true.1 (apart listed member other) s separates)
  have parts := partsWords_of_separates separates
  obtain ⟨entry, member, same, own | ⟨dot, -⟩⟩ := h
  · exact parts.not_mem_of_sameSpelling same (none entry member (own ▸ onLine))
  · exact parts.not_mem_of_sameSpelling same (none entry member (by rw [dot]; decide))

theorem Segment.not_mem {lexeme : Lexeme} {text after : List Char}
    (h : Segment groupNames lexeme text after) (plain : lexeme.isPlain = true)
    (separates : s ∈ separators) : s ∉ text := by
  have parts := partsWords_of_separates separates
  cases lexeme with
  | word => exact parts.not_mem_segment h (.inl rfl)
  | number number => exact parts.not_mem_segment h (.inr ⟨number, rfl⟩)
  | directive opensLine =>
      cases h
      rintro (_ | ⟨_, none⟩)
      · exact absurd separates (by decide)
      · cases none
  | sign sign =>
      cases h with
      | sign some spelled =>
          rw [Lexeme.isPlain, bne_iff_ne] at plain
          exact spelled.not_mem plain separates
  | _ => cases plain

end Separators

theorem ne_return_of_onLine {c : Char} (h : isLineBreak c = false) : c ≠ '\r' := by
  rintro rfl
  exact absurd h (by decide)

theorem not_splitsPair_of_notMem {text : List Char} (h : '\r' ∉ text) (after : List Char) :
    ¬ SplitsPair text after :=
  fun pair => h (List.mem_of_getLast? pair.1)

theorem not_splitsPair_concat {text : List Char} {c : Char} (h : c ≠ '\r') (after : List Char) :
    ¬ SplitsPair (text ++ [c]) after := by
  rintro ⟨last, -⟩
  rw [List.getLast?_concat] at last
  exact h (Option.some.inj last)

theorem LineEnding.not_splitsPair {terminator after : List Char}
    (line : LineEnding terminator after) (body : List Char) :
    ¬ SplitsPair (body ++ terminator) after := by
  cases line with
  | both => simp [SplitsPair]
  | lineFeed => exact not_splitsPair_concat (by decide) _
  | carriageReturn alone => exact fun pair => alone pair.2
  | endOfText => exact not_splitsPair_nil _

theorem Segment.not_splitsPair {lexeme : Lexeme} {text after : List Char}
    (h : Segment groupNames lexeme text after) (noSign : ∀ sign, lexeme ≠ .sign sign) :
    ¬ SplitsPair text after := by
  have of_plain (plain : lexeme.isPlain = true) : ¬ SplitsPair text after :=
    not_splitsPair_of_notMem (h.not_mem plain (by decide)) after
  cases h with
  | number | word | directive => exact of_plain (by rw [Lexeme.isPlain])
  | blanks some blank stop =>
      apply not_splitsPair_of_notMem
      exact fun member => absurd (blank _ member) (by decide)
  | lineComment onLine line => exact line.not_splitsPair _
  | closedComment onLine => exact not_splitsPair_concat (by decide) _
  | openComment onLine stop =>
      apply not_splitsPair_of_notMem
      rintro (_ | ⟨_, member⟩)
      exact ne_return_of_onLine (onLine _ member).2 rfl
  | closedString noMark => exact not_splitsPair_concat (by decide) _
  | openString noMark => exact not_splitsPair_nil _
  | sign some spelled => exact absurd rfl (noSign _)
  | unknown nothing =>
      rintro ⟨last, -⟩
      obtain rfl := Option.some.inj last
      have lineEnd := nothing.sign ("\r", .lineEnd) (by decide +kernel)
      simp [Sign.matchesAt, opensWith, sameSpelling_refl] at lineEnd

theorem Sign.not_splitsPair_longest? {text : List Char} {found : String × Sign}
    (h : longest? text = some found) :
    ¬ SplitsPair (text.take found.1.length) (text.drop found.1.length) := by
  have alone : ∀ listed ∈ spellings, (foldCase listed.1.toList).getLast? = some '\r' →
      listed.1 = "\r" := by
    decide +kernel
  rintro ⟨last, feed⟩
  obtain ⟨member, spelled⟩ := mem_of_longest? h
  rw [matchesAt, opensWith, Bool.and_eq_true, sameSpelling_iff, String.length_toList] at spelled
  have short : found.1 = "\r" := by
    apply alone found member
    rw [← spelled.1, foldCase, List.getLast?_map, last]
    rfl
  rw [short] at last feed
  obtain ⟨c, rest, rfl⟩ : ∃ c rest, text = c :: rest :=
    List.exists_cons_of_ne_nil (by rintro rfl; cases last)
  obtain rfl := Option.some.inj last
  obtain ⟨after, rfl⟩ := List.head?_eq_some_iff.1 feed
  -- The carriage return alone is not the longest sign here.
  have both : matchesAt ('\r' :: '\n' :: after) "\r\n" = true := by
    simp [matchesAt, opensWith, sameSpelling_refl]
  have listed : ("\r\n", Sign.lineEnd) ∈ spellings := by decide +kernel
  have longer := length_le_longest? h listed both
  rw [short] at longer
  exact absurd longer (by decide)

theorem Piece.longest?_of_read {lookback : Lookback} {lineRead : List Char} {c : Char}
    {rest : List Char} {sign : Sign}
    (h : (read groupNames lookback lineRead c rest).lexeme = .sign sign) :
    ∃ found, Sign.longest? (c :: rest) = some found ∧
      (read groupNames lookback lineRead c rest).text = (c :: rest).take found.1.length := by
  obtain ⟨found, longest, read⟩ := Option.map_eq_some_iff.1 (sign?_of_read h)
  exact ⟨found, longest, by rw [← read]⟩

theorem Piece.not_splitsPair_read {lookback : Lookback} {lineRead : List Char} {c : Char}
    {rest after : List Char}
    (whole : c :: rest = (read groupNames lookback lineRead c rest).text ++ after) :
    ¬ SplitsPair (read groupNames lookback lineRead c rest).text after := by
  obtain ⟨after', whole', segment⟩ := read_segment groupNames lookback lineRead c rest
  obtain rfl : after' = after := List.append_cancel_left (whole'.symm.trans whole)
  by_cases signed : ∃ sign, (read groupNames lookback lineRead c rest).lexeme = .sign sign
  · obtain ⟨sign, signed⟩ := signed
    obtain ⟨found, longest, text⟩ := longest?_of_read signed
    have front := whole
    rw [text] at front ⊢
    have left : (c :: rest).drop found.1.length = after' :=
      List.append_cancel_left ((List.take_append_drop _ _).trans front)
    exact left ▸ Sign.not_splitsPair_longest? longest
  · exact segment.not_splitsPair fun sign h => signed ⟨sign, h⟩

structure Text.Reader.StandsAfter (source before : List Char) (r : Reader) : Prop where
  cut : source = before ++ r.rest
  reached : r = (Reader.ofText source).skip before.length
  whole : ¬ SplitsPair before r.rest

theorem Text.Reader.standsAfter_ofText (source : List Char) :
    (ofText source).StandsAfter source [] :=
  ⟨rfl, rfl, not_splitsPair_of_notMem List.not_mem_nil _⟩

theorem Text.Reader.StandsAfter.place {source before : List Char} {r : Reader}
    (h : r.StandsAfter source before) :
    r.place = ⟨byteLength before, lineEnds before, (lastLine before).length⟩ := by
  have place := place_skip (r := ofText source) h.cut h.whole
  rw [← h.reached] at place
  simpa [ofText] using place

theorem Text.Reader.StandsAfter.skip {source before text after : List Char} {r : Reader}
    (h : r.StandsAfter source before) (unread : r.rest = text ++ after) (some : text ≠ [])
    (whole : ¬ SplitsPair text after) :
    (r.skip text.length).StandsAfter source (before ++ text) := by
  have left : (r.skip text.length).rest = after := by rw [rest_skip, unread, List.drop_left]
  refine ⟨?_, ?_, ?_⟩
  · rw [left, List.append_assoc, ← unread, ← h.cut]
  · rw [List.length_append, skip_add, ← h.reached]
  · rw [left]
    rintro ⟨last, feed⟩
    rw [List.getLast?_append_of_ne_nil _ some] at last
    exact whole ⟨last, feed⟩

theorem Text.Reader.StandsAfter.past {source before rest : List Char} {r : Reader} {c : Char}
    (h : r.StandsAfter source before) (unread : r.rest = c :: rest) (groupNames : Bool)
    (lookback : Lookback) :
    let piece := Piece.read groupNames lookback r.lineRead c rest
    (r.skip piece.text.length).StandsAfter source (before ++ piece.text) := by
  have whole := rest_skip_read groupNames lookback unread
  exact h.skip whole (Piece.read_text_ne_nil _ _ _ _ _) (Piece.not_splitsPair_read (unread ▸ whole))

structure PlacedPiece.StandsAfter (source before : List Char) (p : PlacedPiece) : Prop where
  start : ∃ r : Reader, r.StandsAfter source before ∧ p.place = r.place
  stop : ∃ r : Reader, r.StandsAfter source (before ++ p.piece.text)

theorem piecesFrom_stand {source before : List Char} {lookback : Lookback} {r : Reader}
    (h : r.StandsAfter source before) :
    ∀ p ∈ piecesFrom groupNames lookback r, ∃ before, p.StandsAfter source before := by
  fun_induction piecesFrom groupNames lookback r generalizing before with
  | case1 => simp
  | case2 lookback r c rest unread piece =>
      rename_i ih
      have next := h.past unread groupNames lookback
      rintro p (_ | ⟨_, member⟩)
      · exact ⟨before, ⟨r, h, rfl⟩, ⟨_, next⟩⟩
      · exact ih next p member

theorem pieces_stand (groupNames : Bool) (source : String) :
    ∀ p ∈ pieces groupNames source, ∃ before, p.StandsAfter source.toList before :=
  piecesFrom_stand (Reader.standsAfter_ofText _)

end TalAnalysis
