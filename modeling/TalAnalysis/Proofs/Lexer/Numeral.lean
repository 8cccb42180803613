import Mathlib.Data.List.Find
import Mathlib.Data.List.Induction
import Mathlib.Data.Nat.Digits.Defs
import TalAnalysis.Proofs.Lexer.Lookahead
import TalAnalysis.Proofs.Lexer.Reading
import TalAnalysis.Proofs.Text.Digits

namespace TalAnalysis
open Text

def NumeralBase.opensAt (text : List Char) (listed : String × NumeralBase) : Bool :=
  opensWith text listed.1.toList &&
    ((text.drop listed.1.length).head?.map listed.2.isDigit).getD false

def NumeralSize.opensAt (base : NumeralBase) (text : List Char) (listed : String × NumeralSize) :
    Bool :=
  isMarkIn base listed.1 && matchesWord true text listed.1.toList

variable {text : List Char}

theorem NumeralBase.marked?_eq (text : List Char) : marked? text = marks.find? (opensAt text) := rfl

theorem NumeralBase.octal_of_opensAt {a b : String × NumeralBase} (listed : a ∈ marks)
    (listed' : b ∈ marks) (opens : opensAt text a = true) (opens' : opensAt text b = true)
    (octal : a.2 = .octal) : b.2 = .octal := by
  have only : ∀ a ∈ marks, a.2 = .octal → a = ("%", .octal) := by decide
  have others : ∀ b ∈ marks, b.2 ≠ .octal →
      ∃ letter : Char, letter.isAlpha = true ∧ b.1.toList = ['%', letter] := by
    simp [marks]
  by_contra noOctal
  obtain ⟨letter, isLetter, spelled⟩ := others b listed' noOctal
  obtain rfl := only a listed octal
  obtain ⟨mark, digit⟩ := Bool.and_eq_true_iff.1 opens
  obtain ⟨mark', -⟩ := Bool.and_eq_true_iff.1 opens'
  rcases text with _ | ⟨c, _ | ⟨d, rest⟩⟩
  · cases mark
  · cases digit
  · obtain rfl : c = '%' := eq_of_toLower_eq rfl (List.cons.inj (sameSpelling_iff.1 mark)).1
    rw [spelled, not_opensWith_letter digit isLetter] at mark'
    cases mark'

theorem NumeralBase.eq_of_opensAt {a b : String × NumeralBase} (listed : a ∈ marks)
    (listed' : b ∈ marks) (opens : opensAt text a = true) (opens' : opensAt text b = true) :
    a = b := by
  have sizes : ∀ a ∈ marks, ∀ b ∈ marks, (a.2 = .octal ↔ b.2 = .octal) →
      a.1.length = b.1.length ∧ (sameWord a.1 b.1 = true → a = b) := by
    decide
  obtain ⟨size, same⟩ := sizes a listed b listed'
    ⟨octal_of_opensAt listed listed' opens opens', octal_of_opensAt listed' listed opens' opens⟩
  exact same (sameWord_of_opensWith (Bool.and_eq_true_iff.1 opens).1
    (Bool.and_eq_true_iff.1 opens').1 size)

theorem NumeralSize.opensWith_of_opensAt {base : NumeralBase} {listed : String × NumeralSize}
    (opens : opensAt base text listed = true) : opensWith text listed.1.toList = true :=
  opensWith_of_matchesWord (Bool.and_eq_true_iff.1 opens).2

theorem NumeralSize.eq_of_opensAt {base : NumeralBase} {a b : String × NumeralSize}
    (listed : a ∈ marks) (listed' : b ∈ marks) (opens : opensAt base text a = true)
    (opens' : opensAt base text b = true) : a = b := by
  have apart : ∀ a ∈ marks, ∀ b ∈ marks, sameWord a.1 b.1 = true → a = b := by decide
  have here := opensWith_of_opensAt opens
  have here' := opensWith_of_opensAt opens'
  exact apart a listed b listed'
    (sameWord_of_opensWith here here' (length_eq_of_opensWith listed listed' here here'))

theorem NumeralBase.find?_opensAt_of_perm {table : List (String × NumeralBase)}
    (same : table.Perm marks) (text : List Char) : table.find? (opensAt text) = marked? text := by
  rw [marked?_eq]
  exact List.find?_eq_find?_of_perm same fun _ ⟨listed, opens⟩ _ ⟨listed', opens'⟩ =>
    eq_of_opensAt (same.mem_iff.1 listed) (same.mem_iff.1 listed') opens opens'

theorem NumeralSize.find?_opensAt_of_perm {table : List (String × NumeralSize)}
    (same : table.Perm marks) (base : NumeralBase) (text : List Char) :
    table.find? (opensAt base text) = marked? base text := by
  rw [marked?_eq]
  exact List.find?_eq_find?_of_perm same fun _ ⟨listed, opens⟩ _ ⟨listed', opens'⟩ =>
    eq_of_opensAt (same.mem_iff.1 listed) (same.mem_iff.1 listed') opens opens'

def OpensNumeral (text : List Char) : Prop :=
  ∃ (base : NumeralBase) (mark : List Char) (digit : Char) (after : List Char),
    text = mark ++ digit :: after ∧ base.Marks mark ∧ base.isDigit digit = true

/-- Before `after` stands a numeral: the mark of its base, as many digits as there are, and the mark
of a size if one follows them. -/
structure IsNumeral (base : NumeralBase) (mark digits size after : List Char) : Prop where
  marked : base.Marks mark
  some : digits ≠ []
  inBase : ∀ c ∈ digits, base.isDigit c = true
  stop : StopsBefore base.isDigit (size ++ after)
  sized : NumeralSize.Marks base size after
  taken : ∀ size' after', size ++ after = size' ++ after' → size' ≠ [] →
    NumeralSize.Marks base size' after' → size' = size

def NumeralBase.value (base : NumeralBase) (digits : List Char) : Nat :=
  Nat.ofDigits base.radix (digits.map digitValue).reverse

theorem numberIn_eq_value (base : NumeralBase) (digits : List Char) :
    numberIn base.radix digits = base.value digits := by
  induction digits using List.reverseRecOn with
  | nil => rfl
  | append_singleton digits c ih =>
      rw [numberIn_concat, ih, NumeralBase.value, NumeralBase.value, List.map_append, List.reverse_append]
      simp only [List.map_cons, List.map_nil, List.reverse_singleton, List.singleton_append,
        Nat.ofDigits_cons]
      rw [Nat.mul_comm, Nat.add_comm]

theorem opensNumeral_iff {c : Char} {rest : List Char} :
    OpensNumeral (c :: rest) ↔
      c.isDigit = true ∨ (NumeralBase.marked? (c :: rest)).isSome = true := by
  constructor
  · rintro ⟨base, mark, digit, after, whole, marked, inBase⟩
    rcases marked with ⟨rfl, rfl⟩ | ⟨listed, member, rfl, same⟩
    · obtain ⟨rfl, -⟩ := List.cons.inj whole
      exact .inl ((isDigitIn_ten c).symm.trans inBase)
    · have size := length_eq_of_sameSpelling same
      have front : opensWith (c :: rest) listed.1.toList = true := by
        rwa [opensWith, whole, List.take_left' size]
      have back : (c :: rest).drop listed.1.length = digit :: after := by
        rw [whole, ← String.length_toList, List.drop_left' size]
      refine .inr (List.find?_isSome.2 ⟨listed, member, ?_⟩)
      simp [front, back, inBase]
  · rintro (digit | marked)
    · exact ⟨.decimal, [], c, rest, rfl, .inl ⟨rfl, rfl⟩, (isDigitIn_ten c).trans digit⟩
    · obtain ⟨⟨mark, base⟩, found⟩ := Option.isSome_iff_exists.1 marked
      obtain ⟨marks, opens⟩ := Piece.marks_of_marked? found
      have whole := (List.take_append_drop mark.length (c :: rest)).symm
      cases back : (c :: rest).drop mark.length with
      | nil => simp [back] at opens
      | cons digit after =>
          rw [back] at opens whole
          exact ⟨base, _, digit, after, whole, marks, opens⟩

theorem Piece.NumeralParts.isNumeral {c : Char} {rest : List Char} {base : NumeralBase}
    {mark digits size after : List Char} (parts : NumeralParts base mark digits size after)
    (whole : c :: rest = mark ++ (digits ++ (size ++ after))) (opens : OpensNumeral (c :: rest)) :
    IsNumeral base mark digits size after := by
  obtain ⟨marked, some, sized⟩ := parts.marks whole (opensNumeral_iff.1 opens)
  refine ⟨marked, some, parts.inBase, parts.stop, sized, fun size' after' same some' sized' => ?_⟩
  obtain empty | ⟨listed, member, inBase, spelled, stop⟩ := sized'
  · exact absurd empty some'
  · have length := length_eq_of_sameSpelling spelled
    have opens : opensWith (size ++ after) listed.1.toList = true := by
      rwa [opensWith, same, List.take_left' length]
    have word : matchesWord true (size ++ after) listed.1.toList = true := by
      rw [matchesWord, opens, same, List.drop_left' length, stopsBefore_iff.1 stop]
      rfl
    obtain ⟨-, none⟩ | ⟨found, member', marked, matched⟩ :=
      NumeralSize.marked?_cases base (size ++ after)
    · rw [none listed member inBase] at word
      cases word
    · have fits := NumeralSize.length_eq_of_opensWith member member' opens
        (opensWith_of_matchesWord matched)
      have size_eq := parts.sized
      rw [marked] at size_eq
      exact (List.append_inj_left same (size_eq.symm.trans (fits.symm.trans length.symm))).symm

variable {source : String} {options : LexOptions} {groupNames : Bool}

theorem PlacedPiece.cause?_outOfRange_iff {p : PlacedPiece} {text : String} :
    p.cause? = some (.integerOutOfRange text) ↔ ∃ value, p.piece.lexeme = .number value ∧
      maxInteger < value ∧ text = String.ofList p.piece.text := by
  constructor
  · intro found
    obtain ⟨⟨lexeme, written⟩, place⟩ := p
    cases lexeme with
    | number value =>
        obtain ⟨great, same⟩ := Option.ite_none_right_eq_some.1 found
        exact ⟨value, rfl, great, (Cause.integerOutOfRange.inj (Option.some.inj same)).symm⟩
    | comment closed => cases closed <;> cases found
    | string contents closed => cases closed <;> cases found
    | _ => cases found
  · rintro ⟨value, number, great, rfl⟩
    rw [cause?, number]
    exact if_pos great

theorem PlacedPiece.ReadAfter.isNumeral {source front rest : List Char} {seen : List Token}
    {c : Char} {p : PlacedPiece} (h : p.ReadAfter groupNames source front seen c rest) {value : Nat}
    (number : p.piece.lexeme = .number value) :
    ∃ base mark digits size after, c :: rest = p.piece.text ++ after ∧
      p.piece.text = mark ++ (digits ++ size) ∧ IsNumeral base mark digits size after ∧
      value = base.value digits := by
  obtain ⟨lineRead, read⟩ := h.read
  rw [read] at number
  obtain ⟨opens, numeral⟩ := Piece.numeral_of_read number
  obtain ⟨base, mark, digits, size, after, whole, parts⟩ := Piece.exists_numeralParts (c :: rest)
  rw [numeral, whole, parts.numeral_eq] at number
  obtain rfl := (Lexeme.number.inj number).symm
  have text : p.piece.text = mark ++ (digits ++ size) := by
    rw [read, numeral, whole, parts.numeral_eq]
  refine ⟨base, mark, digits, size, after, ?_, text,
    parts.isNumeral whole (opensNumeral_iff.2 opens), numberIn_eq_value base digits⟩
  rw [text, whole]
  simp only [List.append_assoc]

theorem token?_of_number (keepComments : Bool) {p : PlacedPiece} {value : Nat}
    (number : p.piece.lexeme = .number value) :
    ∃ t n, p.token? keepComments = some t ∧ t.kind = .number n := by
  have kind : p.piece.kind? = some (.number (min value maxInteger : Nat)) := by
    rw [Piece.kind?, number]
  obtain ⟨t, shown, same⟩ : ∃ t, p.token? keepComments = some t ∧ t.kind = _ :=
    exists_token? kind (Bool.or_true keepComments) rfl
  exact ⟨t, _, shown, same⟩

theorem reported_iff_of_number {p : PlacedPiece} {value : Nat}
    (placed : p ∈ pieces options.groupNames source) (number : p.piece.lexeme = .number value) :
    (∃ d ∈ (lex source options).diagnostics,
      (∃ text, d.cause = .integerOutOfRange text) ∧ d.span = p.span) ↔ maxInteger < value := by
  constructor
  · rintro ⟨d, reported, ⟨text, cause⟩, same⟩
    obtain ⟨q, placed', found, rfl⟩ := mem_diagnostics_iff.1 ⟨reported, cause⟩
    obtain ⟨value, number', great, -⟩ := PlacedPiece.cause?_outOfRange_iff.1 found
    obtain rfl := eq_of_place placed' placed (congrArg Span.start same)
    obtain rfl := Lexeme.number.inj (number'.symm.trans number)
    exact great
  · intro great
    have found := PlacedPiece.cause?_outOfRange_iff.2 ⟨value, number, great, rfl⟩
    obtain ⟨reported, cause⟩ := mem_diagnostics_iff.2 ⟨p, placed, found, rfl⟩
    exact ⟨_, reported, ⟨_, cause⟩, rfl⟩

/-- The numerals of a source are its number tokens, each worth the value of its digits, or the
greatest integer where that is reported not to fit. The order in which the marks are listed does
not matter. -/
theorem lex_numerals (source : String) (options : LexOptions) :
    let found := lex source options
    (∀ t ∈ found.tokens, ∀ n, t.kind = .number n →
      ∃ before base mark digits size after,
        source.toList = before ++ (t.text.toList ++ after) ∧
        t.span = ⟨byteLength before, byteLength before + byteLength t.text.toList⟩ ∧
        t.text.toList = mark ++ (digits ++ size) ∧ IsNumeral base mark digits size after ∧
        n = (min (base.value digits) (2 ^ 63 - 1) : Nat) ∧
        ((∃ d ∈ found.diagnostics, (∃ text, d.cause = .integerOutOfRange text) ∧ d.span = t.span) ↔
          2 ^ 63 - 1 < base.value digits)) ∧
    (∀ d ∈ found.diagnostics, ∀ text, d.cause = .integerOutOfRange text →
      ∃ t ∈ found.tokens, (∃ n, t.kind = .number n) ∧ d.span = t.span ∧ text = t.text) ∧
    (∀ p ∈ pieces options.groupNames source, ∀ before rest, source.toList = before ++ rest →
      byteLength before = p.place.offset → OpensNumeral rest →
        ∃ t ∈ found.tokens, (∃ n, t.kind = .number n) ∧ t.span.start = byteLength before) ∧
    ∀ text base,
      (∀ a ∈ NumeralBase.marks, ∀ b ∈ NumeralBase.marks, NumeralBase.opensAt text a = true →
        NumeralBase.opensAt text b = true → a = b) ∧
      (∀ a ∈ NumeralSize.marks, ∀ b ∈ NumeralSize.marks, NumeralSize.opensAt base text a = true →
        NumeralSize.opensAt base text b = true → a = b) ∧
      (∀ table : List (String × NumeralBase), table.Perm NumeralBase.marks →
        table.find? (NumeralBase.opensAt text) = NumeralBase.marked? text) ∧
      ∀ table : List (String × NumeralSize), table.Perm NumeralSize.marks →
        table.find? (NumeralSize.opensAt base text) = NumeralSize.marked? base text := by
  intro found
  refine ⟨fun t member n kind => ?_, fun d member text cause => ?_,
    fun p placed before rest cut start opens => ?_, fun text base => ⟨?_, ?_, ?_, ?_⟩⟩
  · obtain ⟨p, placed, shown⟩ := List.mem_filterMap.1 member
    obtain ⟨front, seen, c, rest, read⟩ := exists_readAfter placed
    have found := kind?_of_token? shown (by rw [kind]; rfl)
    obtain ⟨value, number, rfl⟩ := Piece.shows_of_kind? (found.trans (congrArg some kind))
    obtain ⟨base, mark, digits, size, after, whole, parts, numeral, rfl⟩ := read.isNumeral number
    have text : t.text.toList = p.piece.text := by rw [text_of_token? shown, String.toList_ofList]
    have span := span_of_token? shown
    refine ⟨front, base, mark, digits, size, after, ?_, ?_, ?_, numeral, rfl, ?_⟩
    · rw [read.cut, whole, text]
    · rw [span, PlacedPiece.span, read.start, text]
    · rw [text, parts]
    · rw [span]
      exact reported_iff_of_number placed number
  · obtain ⟨p, placed, here, rfl⟩ := mem_diagnostics_iff.1 ⟨member, cause⟩
    obtain ⟨value, number, -, rfl⟩ := PlacedPiece.cause?_outOfRange_iff.1 here
    obtain ⟨t, n, shown, kind⟩ := token?_of_number options.keepComments number
    exact ⟨t, List.mem_filterMap.2 ⟨p, placed, shown⟩, ⟨n, kind⟩, (span_of_token? shown).symm,
      (text_of_token? shown).symm⟩
  · obtain ⟨front, seen, c, rest', read⟩ := exists_readAfter placed
    obtain ⟨rfl, rfl⟩ := read.rest_eq cut start
    obtain ⟨lineRead, piece⟩ := read.read
    rw [Piece.read_numeral (opensNumeral_iff.1 opens)] at piece
    obtain ⟨value, number⟩ : ∃ value, p.piece.lexeme = .number value :=
      ⟨_, congrArg Piece.lexeme piece⟩
    obtain ⟨t, n, shown, kind⟩ := token?_of_number options.keepComments number
    exact ⟨t, List.mem_filterMap.2 ⟨p, placed, shown⟩, ⟨n, kind⟩,
      (congrArg Span.start (span_of_token? shown)).trans read.start⟩
  · exact fun a listed b listed' => NumeralBase.eq_of_opensAt listed listed'
  · exact fun a listed b listed' => NumeralSize.eq_of_opensAt listed listed'
  · exact fun table same => NumeralBase.find?_opensAt_of_perm same text
  · exact fun table same => NumeralSize.find?_opensAt_of_perm same base text

theorem lex_numerals_saturated :
    let source := "x = %hFFFFFFFFFFFFFFFF%D;"
    ∃ t ∈ (lex source {}).tokens, t.kind = .number (2 ^ 63 - 1) ∧
      ∃ (base : NumeralBase) (mark digits size after : List Char),
        t.text.toList = mark ++ (digits ++ size) ∧ IsNumeral base mark digits size after ∧
          2 ^ 63 - 1 < base.value digits := by
  intro source
  let t : Token := .write (.number 9223372036854775807) "%hFFFFFFFFFFFFFFFF%D" ⟨4, 24⟩ 0 4
  have member : t ∈ (lex source {}).tokens := by decide +kernel
  obtain ⟨-, base, mark, digits, size, after, -, -, parts, numeral, -, reported⟩ :=
    (lex_numerals source {}).1 t member _ rfl
  have great : ∃ d ∈ (lex source {}).diagnostics,
      (∃ text, d.cause = .integerOutOfRange text) ∧ d.span = t.span :=
    ⟨.ofCause (.integerOutOfRange "%hFFFFFFFFFFFFFFFF%D") ⟨4, 24⟩, by decide +kernel, ⟨_, rfl⟩, rfl⟩
  exact ⟨t, member, rfl, base, mark, digits, size, after, parts, numeral, reported.1 great⟩

end TalAnalysis
