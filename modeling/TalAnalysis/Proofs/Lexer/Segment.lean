import Mathlib.Data.List.TakeWhile
import TalAnalysis.Lexer.Scan

namespace TalAnalysis
open Text

def StopsBefore (inClass : Char → Bool) (after : List Char) : Prop :=
  ∀ c ∈ after.head?, inClass c = false

theorem StopsBefore.takeWhile {inClass : Char → Bool} {text : List Char}
    (stop : StopsBefore inClass text) : text.takeWhile inClass = [] := by
  cases text with
  | nil => rfl
  | cons c after => exact List.takeWhile_cons_of_neg (by simp [stop c rfl])

theorem StopsBefore.takeWhile_append {inClass : Char → Bool} {inside after : List Char}
    (stop : StopsBefore inClass after) (all : ∀ c ∈ inside, inClass c = true) :
    (inside ++ after).takeWhile inClass = inside := by
  rw [List.takeWhile_append_of_pos all, stop.takeWhile, List.append_nil]

theorem stopsBefore_iff {inClass : Char → Bool} {text : List Char} :
    StopsBefore inClass text ↔ (text.head?.map inClass).getD false = false := by
  cases text with
  | nil =>
      refine iff_of_true (fun c first => ?_) rfl
      cases first
  | cons c after => exact ⟨fun stop => stop c rfl, fun h d first => Option.some.inj first ▸ h⟩

inductive LineEnding : List Char → List Char → Prop
  | both (after) : LineEnding ['\r', '\n'] after
  | lineFeed (after) : LineEnding ['\n'] after
  | carriageReturn {after} (alone : after.head? ≠ some '\n') : LineEnding ['\r'] after
  | endOfText : LineEnding [] []

inductive FurtherNames : List Char → Prop
  | none : FurtherNames []
  | more {name others} (inName : ∀ c ∈ name, continuesName c = true) (rest : FurtherNames others) :
      FurtherNames (' ' :: name ++ others)

def NumeralBase.Marks (base : NumeralBase) (mark : List Char) : Prop :=
  (mark = [] ∧ base = .decimal) ∨
    ∃ listed ∈ marks, listed.2 = base ∧ sameSpelling mark listed.1.toList = true

def NumeralSize.Marks (base : NumeralBase) (mark after : List Char) : Prop :=
  mark = [] ∨ ∃ listed ∈ marks, isMarkIn base listed.1 = true ∧
    sameSpelling mark listed.1.toList = true ∧ StopsBefore continuesName after

def Sign.Spells (sign : Sign) (text : List Char) : Prop :=
  ∃ listed ∈ spellings, sameSpelling text listed.1.toList = true ∧
    (listed.2 = sign ∨ listed.2 = .delimiter .dot ∧ sign = .indirection .standard)

structure OpensNothing (c : Char) (after : List Char) : Prop where
  blank : isBlank c = false
  comment : c ≠ '!' ∧ (c = '-' → after.head? ≠ some '-')
  directive : c ≠ '?'
  number : c.isDigit = false
  word : startsName c = false
  string : c ≠ '"'
  sign : ∀ listed ∈ Sign.spellings, Sign.matchesAt (c :: after) listed.1 = false

/-- `text` is a segment of the kind that the lexeme says, in a source that goes on with `after`. -/
inductive Segment (groupNames : Bool) : Lexeme → List Char → List Char → Prop
  | blanks {text after} (some : text ≠ []) (blank : ∀ c ∈ text, isBlank c = true)
      (stop : StopsBefore isBlank after) : Segment groupNames .blanks text after
  | lineComment {body terminator after} (onLine : ∀ c ∈ body, isLineBreak c = false)
      (line : LineEnding terminator after) :
      Segment groupNames .lineComment ('-' :: '-' :: body ++ terminator) after
  | closedComment {body} (onLine : ∀ c ∈ body, c ≠ '!' ∧ isLineBreak c = false) (after) :
      Segment groupNames (.comment true) ('!' :: body ++ ['!']) after
  | openComment {body after} (onLine : ∀ c ∈ body, c ≠ '!' ∧ isLineBreak c = false)
      (stop : StopsBefore (fun c => !isLineBreak c) after) :
      Segment groupNames (.comment false) ('!' :: body) after
  | directive (opensLine : Bool) (after) : Segment groupNames (.directive opensLine) ['?'] after
  | number {base : NumeralBase} {mark digits size after} (marked : base.Marks mark)
      (some : digits ≠ []) (inBase : ∀ c ∈ digits, base.isDigit c = true)
      (stop : StopsBefore base.isDigit (size ++ after))
      (sized : NumeralSize.Marks base size after) :
      Segment groupNames (.number (numberIn base.radix digits)) (mark ++ digits ++ size) after
  | word {c name others after} (opens : startsName c = true)
      (inName : ∀ x ∈ name, continuesName x = true) (further : FurtherNames others)
      (grouped : others ≠ [] → groupNames = true) (stop : StopsBefore continuesName after) :
      Segment groupNames .word (c :: name ++ others) after
  | closedString {contents} (noMark : '"' ∉ contents) (after) :
      Segment groupNames (.string contents true) ('"' :: contents ++ ['"']) after
  | openString {contents} (noMark : '"' ∉ contents) :
      Segment groupNames (.string contents false) ('"' :: contents) []
  | sign {sign : Sign} {text} (some : text ≠ []) (spelled : sign.Spells text) (after) :
      Segment groupNames (.sign sign) text after
  | unknown {c after} (nothing : OpensNothing c after) : Segment groupNames (.unknown c) [c] after

/-! ## Spellings that fit in a text -/

theorem Text.opensWith_of_short {text spelling : List Char}
    (short : text.length < spelling.length) : opensWith text spelling = false := by
  apply Bool.eq_false_iff.2
  intro same
  have size := length_eq_of_sameSpelling same
  rw [List.length_take] at size
  omega

theorem NumeralBase.length_mark_le {text : List Char} {listed : String × NumeralBase}
    (h : marked? text = some listed) : listed.1.length ≤ text.length := by
  apply Nat.le_of_not_lt
  intro short
  obtain ⟨mark, base⟩ := listed
  have found := List.find?_some h
  simp only [opensWith_of_short short, Bool.false_and, Bool.false_eq_true] at found

theorem NumeralSize.length_mark_le (base : NumeralBase) (text : List Char) :
    ((marked? base text).map (·.1.length)).getD 0 ≤ text.length := by
  cases h : marked? base text with
  | none => exact Nat.zero_le _
  | some listed =>
      apply Nat.le_of_not_lt
      intro short
      obtain ⟨mark, size⟩ := listed
      have found := List.find?_some h
      simp only [opensWith_of_short short, Bool.and_false, Bool.false_and,
        Bool.false_eq_true] at found

def Piece.SegmentOf (groupNames : Bool) (text : List Char) (p : Piece) : Prop :=
  ∃ after, text = p.text ++ after ∧ Segment groupNames p.lexeme p.text after

namespace Piece

variable {groupNames : Bool}

/-! ## Blanks, comments and strings -/

theorem stopsBefore_dropWhile (inClass : Char → Bool) (text : List Char) :
    StopsBefore inClass (text.dropWhile inClass) := by
  intro c first
  obtain ⟨rest, found⟩ := List.head?_eq_some_iff.1 first
  exact not_of_dropWhile found

theorem blanks_segment {c : Char} {rest : List Char} (blank : isBlank c = true) :
    SegmentOf groupNames (c :: rest) (blanks (c :: rest)) :=
  ⟨_, List.takeWhile_append_dropWhile.symm,
    .blanks (by simp [blanks, blank]) (fun _ => List.mem_takeWhile_imp) (stopsBefore_dropWhile _ _)⟩

theorem lineEnding_lineEnd {text : List Char} (stop : StopsBefore (fun c => !isLineBreak c) text) :
    ∃ after, text = lineEnd text ++ after ∧ LineEnding (lineEnd text) after := by
  fun_cases lineEnd text with
  | case1 rest => exact ⟨rest, rfl, .both rest⟩
  | case2 c rest noPair breaks =>
      have kind : c = '\n' ∨ c = '\r' := by simpa [isLineBreak] using breaks
      rcases kind with rfl | rfl
      · exact ⟨rest, rfl, .lineFeed rest⟩
      · refine ⟨rest, rfl, .carriageReturn fun feed => ?_⟩
        obtain ⟨tail, rfl⟩ := List.head?_eq_some_iff.1 feed
        exact noPair _ rfl rfl
  | case3 c rest noPair breaks =>
      have := stop c rfl
      simp_all
  | case4 => exact ⟨[], rfl, .endOfText⟩

theorem lineComment_segment (rest : List Char) :
    SegmentOf groupNames ('-' :: '-' :: rest) (lineComment ('-' :: '-' :: rest)) := by
  have body : ('-' :: '-' :: rest).takeWhile (fun c => !isLineBreak c) =
      '-' :: '-' :: rest.takeWhile fun c => !isLineBreak c := by simp [isLineBreak]
  obtain ⟨after, cut, line⟩ :=
    lineEnding_lineEnd (stopsBefore_dropWhile (fun c => !isLineBreak c) rest)
  refine ⟨after, ?_, ?_⟩
  · simp only [lineComment, body, List.length_cons, List.drop_succ_cons, drop_length_takeWhile,
      List.cons_append, List.append_assoc, ← cut, List.takeWhile_append_dropWhile]
  · simp only [lineComment, body, List.length_cons, List.drop_succ_cons, drop_length_takeWhile]
    refine .lineComment (fun c member => ?_) line
    simpa using List.mem_takeWhile_imp member

theorem comment_segment (rest : List Char) :
    SegmentOf groupNames ('!' :: rest) (comment rest) := by
  let inComment (c : Char) := c != '!' && !isLineBreak c
  have whole : rest.takeWhile inComment ++ rest.dropWhile inComment = rest :=
    List.takeWhile_append_dropWhile
  have onLine : ∀ c ∈ rest.takeWhile inComment, c ≠ '!' ∧ isLineBreak c = false := by
    intro c member
    simpa [inComment] using List.mem_takeWhile_imp member
  rw [comment, drop_length_takeWhile]
  split
  · rename_i closing
    obtain ⟨after, found⟩ := List.head?_eq_some_iff.1 closing
    refine ⟨after, ?_, .closedComment onLine after⟩
    rw [found] at whole
    simpa using whole.symm
  · rename_i open_
    refine ⟨rest.dropWhile inComment, congrArg ('!' :: ·) whole.symm, .openComment onLine ?_⟩
    intro c first
    have stop := stopsBefore_dropWhile inComment rest c first
    have other : c ≠ '!' := by
      rintro rfl
      exact open_ first
    simpa [inComment, other] using stop

theorem string_segment (rest : List Char) : SegmentOf groupNames ('"' :: rest) (string rest) := by
  have whole : rest.takeWhile (· != '"') ++ rest.dropWhile (· != '"') = rest :=
    List.takeWhile_append_dropWhile
  have noMark : '"' ∉ rest.takeWhile (· != '"') := by
    intro member
    simpa using List.mem_takeWhile_imp member
  rw [string]
  cases found : rest.dropWhile (· != '"') with
  | nil =>
      rw [found, List.append_nil] at whole
      rw [if_neg (by rw [whole]; exact Nat.lt_irrefl _)]
      exact ⟨[], by simp [whole], .openString noMark⟩
  | cons c after =>
      obtain rfl := eq_of_dropWhile_ne found
      have shorter := congrArg List.length whole
      rw [found, List.length_append, List.length_cons] at shorter
      rw [if_pos (by omega)]
      refine ⟨after, ?_, .closedString noMark after⟩
      rw [found] at whole
      simp [whole]

/-! ## Numerals -/

theorem marks_of_marked? {text : List Char} {mark : String} {base : NumeralBase}
    (h : NumeralBase.marked? text = some (mark, base)) :
    base.Marks (text.take mark.length) ∧
      ((text.drop mark.length).head?.map base.isDigit).getD false := by
  have found := List.find?_some h
  simp only [opensWith, Bool.and_eq_true] at found
  exact ⟨.inr ⟨_, List.mem_of_find?_eq_some h, rfl, found.1⟩, found.2⟩

theorem marks_size (base : NumeralBase) (text : List Char) :
    NumeralSize.Marks base
      (text.take (((NumeralSize.marked? base text).map (·.1.length)).getD 0))
      (text.drop (((NumeralSize.marked? base text).map (·.1.length)).getD 0)) := by
  cases h : NumeralSize.marked? base text with
  | none => exact .inl rfl
  | some listed =>
      have found := List.find?_some h
      simp only [opensWith, Bool.and_eq_true, Bool.not_eq_true'] at found
      exact .inr ⟨listed, List.mem_of_find?_eq_some h, found.1.1, found.1.2,
        stopsBefore_iff.2 found.2⟩

/-- The numeral that a text opens with, in its parts: the mark of the base, the digits and the mark
of the size, with what comes after them. -/
structure NumeralParts (base : NumeralBase) (mark digits size after : List Char) : Prop where
  marked : ∃ name : String, name.length = mark.length ∧
    (NumeralBase.marked? (mark ++ (digits ++ (size ++ after)))).getD ("", .decimal) = (name, base)
  inBase : ∀ c ∈ digits, base.isDigit c = true
  stop : StopsBefore base.isDigit (size ++ after)
  sized : ((NumeralSize.marked? base (size ++ after)).map (·.1.length)).getD 0 = size.length

theorem NumeralParts.numeral_eq {base : NumeralBase} {mark digits size after : List Char}
    (parts : NumeralParts base mark digits size after) :
    numeral (mark ++ (digits ++ (size ++ after))) =
      ⟨.number (numberIn base.radix digits), mark ++ (digits ++ size)⟩ := by
  obtain ⟨⟨name, length, marked⟩, inBase, stop, sized⟩ := parts
  have left : (mark ++ (digits ++ (size ++ after))).drop name.length = digits ++ (size ++ after) :=
    List.drop_left' length.symm
  have others : (mark ++ (digits ++ (size ++ after))).drop (name.length + digits.length) =
      size ++ after := by
    rw [← List.drop_drop, left, List.drop_left]
  have front : (mark ++ (digits ++ (size ++ after))).take
      (name.length + digits.length + size.length) = mark ++ (digits ++ size) := by
    rw [← List.append_assoc digits, ← List.append_assoc mark]
    exact List.take_left' (by simp [length, Nat.add_assoc])
  simp only [numeral, marked, left, stop.takeWhile_append inBase, others, sized, front]

theorem exists_numeralParts (text : List Char) : ∃ base mark digits size after,
    text = mark ++ (digits ++ (size ++ after)) ∧ NumeralParts base mark digits size after := by
  obtain ⟨name, base, marked, fits⟩ : ∃ (name : String) (base : NumeralBase),
      (NumeralBase.marked? text).getD ("", .decimal) = (name, base) ∧
        name.length ≤ text.length := by
    cases found : NumeralBase.marked? text with
    | none => exact ⟨"", .decimal, rfl, Nat.zero_le _⟩
    | some listed => exact ⟨listed.1, listed.2, rfl, NumeralBase.length_mark_le found⟩
  let digits := (text.drop name.length).takeWhile base.isDigit
  let tail := (text.drop name.length).dropWhile base.isDigit
  let length := ((NumeralSize.marked? base tail).map (·.1.length)).getD 0
  have parted : tail.take length ++ tail.drop length = tail := List.take_append_drop _ _
  have whole : text = text.take name.length ++
      (digits ++ (tail.take length ++ tail.drop length)) := by
    rw [parted, List.takeWhile_append_dropWhile, List.take_append_drop]
  refine ⟨base, _, _, _, _, whole, ⟨name, (List.length_take_of_le fits).symm, whole ▸ marked⟩,
    fun _ => List.mem_takeWhile_imp, ?_, ?_⟩
  · rw [parted]
    exact stopsBefore_dropWhile _ _
  · rw [parted, List.length_take_of_le (NumeralSize.length_mark_le base tail)]

theorem marks_of_numeral {c : Char} {rest : List Char} {listed : String × NumeralBase}
    (h : c.isDigit = true ∨ (NumeralBase.marked? (c :: rest)).isSome = true)
    (marked : (NumeralBase.marked? (c :: rest)).getD ("", .decimal) = listed) :
    listed.2.Marks ((c :: rest).take listed.1.length) ∧
      (((c :: rest).drop listed.1.length).head?.map listed.2.isDigit).getD false = true := by
  cases found : NumeralBase.marked? (c :: rest) with
  | some entry =>
      rw [found] at marked
      obtain rfl : entry = listed := marked
      exact marks_of_marked? found
  | none =>
      rw [found] at marked
      obtain rfl : ("", .decimal) = listed := marked
      have digit : c.isDigit = true := by simpa [found] using h
      exact ⟨.inl ⟨rfl, rfl⟩,
        by simpa [NumeralBase.isDigit, NumeralBase.radix, isDigitIn_ten] using digit⟩

theorem NumeralParts.marks {c : Char} {rest : List Char} {base : NumeralBase}
    {mark digits size after : List Char} (parts : NumeralParts base mark digits size after)
    (whole : c :: rest = mark ++ (digits ++ (size ++ after)))
    (h : c.isDigit = true ∨ (NumeralBase.marked? (c :: rest)).isSome = true) :
    base.Marks mark ∧ digits ≠ [] ∧ NumeralSize.Marks base size after := by
  obtain ⟨name, length, marked⟩ := parts.marked
  have own : (c :: rest).take name.length = mark := by rw [whole, List.take_left' length.symm]
  have left : (c :: rest).drop name.length = digits ++ (size ++ after) := by
    rw [whole, List.drop_left' length.symm]
  rw [← whole] at marked
  obtain ⟨found, digit⟩ := marks_of_numeral h marked
  rw [own] at found
  rw [left] at digit
  have sized := marks_size base (size ++ after)
  rw [parts.sized, List.take_left, List.drop_left] at sized
  refine ⟨found, ?_, sized⟩
  rintro rfl
  rw [List.nil_append, stopsBefore_iff.1 parts.stop] at digit
  cases digit

theorem numeral_segment {c : Char} {rest : List Char}
    (h : c.isDigit = true ∨ (NumeralBase.marked? (c :: rest)).isSome = true) :
    SegmentOf groupNames (c :: rest) (numeral (c :: rest)) := by
  obtain ⟨base, mark, digits, size, after, whole, parts⟩ := exists_numeralParts (c :: rest)
  obtain ⟨marked, some, sized⟩ := parts.marks whole h
  rw [whole, parts.numeral_eq, ← List.append_assoc mark digits size]
  exact ⟨after, by simp, .number marked some parts.inBase parts.stop sized⟩

/-! ## Words -/

theorem further_furtherNames (text : List Char) :
    ∃ after, text = furtherNames text ++ after ∧ FurtherNames (furtherNames text) ∧
      (StopsBefore continuesName text → StopsBefore continuesName after) := by
  fun_induction furtherNames text with
  | case1 rest name ahead ih =>
      obtain ⟨after, whole, others, stop⟩ := ih
      obtain rfl : name = rest.takeWhile continuesName := by
        simp only [nameAhead?, Option.ite_none_right_eq_some, Option.some.injEq] at ahead
        exact ahead.2.symm
      rw [drop_length_takeWhile] at *
      refine ⟨after, ?_, .more (fun _ => List.mem_takeWhile_imp) others,
        fun _ => stop (stopsBefore_dropWhile _ _)⟩
      rw [List.append_assoc, ← whole, List.cons_append, List.takeWhile_append_dropWhile]
  | case2 rest ahead => exact ⟨_, rfl, .none, id⟩
  | case3 text noSpace => exact ⟨text, rfl, .none, id⟩

theorem word_segment {grouped : Bool} {c : Char} {rest : List Char} (opens : startsName c = true)
    (asked : grouped = true → groupNames = true) :
    SegmentOf groupNames (c :: rest) (word grouped c rest) := by
  have whole : rest.takeWhile continuesName ++ rest.dropWhile continuesName = rest :=
    List.takeWhile_append_dropWhile
  have inName : ∀ x ∈ rest.takeWhile continuesName, continuesName x = true :=
    fun _ => List.mem_takeWhile_imp
  have stop := stopsBefore_dropWhile continuesName rest
  rw [word]
  split
  · rename_i several
    obtain ⟨after, cut, others, goesOn⟩ := further_furtherNames (rest.dropWhile continuesName)
    refine ⟨after, ?_, .word opens inName others (fun _ => asked ?_) (goesOn stop)⟩
    · rw [List.append_assoc, ← cut, List.cons_append, whole]
    · exact (Bool.and_eq_true_iff.1 several).1
  · refine ⟨rest.dropWhile continuesName, congrArg (c :: ·) whole.symm, ?_⟩
    simpa using Segment.word opens inName .none (by simp) stop

/-! ## Signs and dropped characters -/

theorem sign?_segment {lookback : Lookback} {c : Char} {rest : List Char} {p : Piece}
    (h : sign? lookback (c :: rest) = some p) : SegmentOf groupNames (c :: rest) p := by
  have some := sign?_text_ne_nil h
  obtain ⟨listed, longest, rfl⟩ := Option.map_eq_some_iff.1 h
  obtain ⟨member, spelled⟩ := Sign.mem_of_longest? longest
  simp only [Sign.matchesAt, opensWith, Bool.and_eq_true] at spelled
  refine ⟨_, (List.take_append_drop _ _).symm, .sign some ⟨listed, member, spelled.1, ?_⟩ _⟩
  split
  · rename_i pointer
    exact .inr ⟨pointer.1, rfl⟩
  · exact .inl rfl

theorem read_segment (groupNames : Bool) (lookback : Lookback) (lineRead : List Char) (c : Char)
    (rest : List Char) :
    SegmentOf groupNames (c :: rest) (read groupNames lookback lineRead c rest) := by
  fun_cases read groupNames lookback lineRead c rest with
  | case1 blank => exact blanks_segment blank
  | case2 _ hyphens =>
      obtain ⟨rfl, next⟩ := hyphens
      obtain ⟨rest, rfl⟩ := List.head?_eq_some_iff.1 next
      exact lineComment_segment rest
  | case3 _ _ mark => exact mark ▸ comment_segment rest
  | case4 _ _ _ mark => exact mark ▸ ⟨rest, rfl, .directive _ rest⟩
  | case5 _ _ _ _ digit => exact numeral_segment (digit.imp_right And.right)
  | case6 _ _ _ _ _ opens => exact word_segment opens (by simp +contextual)
  | case7 _ _ _ _ _ _ mark => exact mark ▸ string_segment rest
  | case8 blank hyphens comment directive digit opens string =>
      cases found : sign? lookback (c :: rest) with
      | some p => exact sign?_segment found
      | none =>
          rw [sign?, Option.map_eq_none_iff, Sign.longest?_eq_none_iff] at found
          refine ⟨rest, rfl, .unknown ?_⟩
          exact {
            blank := by simpa using blank
            comment := ⟨comment, fun mark next => hyphens ⟨mark, next⟩⟩
            directive
            number := by simpa using fun d => digit (.inl d)
            word := by simpa using opens
            string
            sign := found }

/-! ## The rules of the scanner -/

def ByRule (lookback : Lookback) (c : Char) (rest : List Char) (p : Piece) : Prop :=
  match p.lexeme with
  | .number _ => (c.isDigit = true ∨ (NumeralBase.marked? (c :: rest)).isSome = true) ∧
      p = numeral (c :: rest)
  | .sign _ => sign? lookback (c :: rest) = some p
  | .unknown _ => c = '%' → (NumeralBase.marked? (c :: rest)).isSome = false
  | _ => True

theorem read_byRule (groupNames : Bool) (lookback : Lookback) (lineRead : List Char) (c : Char)
    (rest : List Char) : ByRule lookback c rest (read groupNames lookback lineRead c rest) := by
  fun_cases read groupNames lookback lineRead c rest with
  | case1 => trivial
  | case2 => trivial
  | case3 => rw [comment]; split <;> trivial
  | case4 => trivial
  | case5 _ _ _ _ digit => exact ⟨digit.imp_right And.right, rfl⟩
  | case6 => rw [word]; split <;> trivial
  | case7 => rw [string]; split <;> trivial
  | case8 _ _ _ _ noNumeral =>
      cases found : sign? lookback (c :: rest) with
      | some p =>
          obtain ⟨listed, longest, rfl⟩ := Option.map_eq_some_iff.1 found
          exact found
      | none => exact fun percent => by simpa [percent] using (not_or.1 noNumeral).2

theorem numeral_of_read {lookback : Lookback} {lineRead : List Char} {c : Char} {rest : List Char}
    {value : Nat} (h : (read groupNames lookback lineRead c rest).lexeme = .number value) :
    (c.isDigit = true ∨ (NumeralBase.marked? (c :: rest)).isSome = true) ∧
      read groupNames lookback lineRead c rest = numeral (c :: rest) := by
  have rule := read_byRule groupNames lookback lineRead c rest
  rwa [ByRule, h] at rule

theorem sign?_of_read {lookback : Lookback} {lineRead : List Char} {c : Char} {rest : List Char}
    {sign : Sign} (h : (read groupNames lookback lineRead c rest).lexeme = .sign sign) :
    sign? lookback (c :: rest) = some (read groupNames lookback lineRead c rest) := by
  have rule := read_byRule groupNames lookback lineRead c rest
  rwa [ByRule, h] at rule

end Piece
end TalAnalysis
