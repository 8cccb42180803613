import TalAnalysis.Proofs.Lexer.Numeral

namespace TalAnalysis
open Text

/-- `front` is the longest front of the text that has the form. -/
structure LongestFront (form : List Char → Prop) (text front : List Char) : Prop where
  within : front <+: text
  formed : form front
  longest : ∀ other, other <+: text → form other → other.length ≤ front.length

def IsWord (word : List Char) : Prop :=
  ∃ c name, word = c :: name ∧ startsName c = true ∧ ∀ d ∈ name, continuesName d = true

def AfterType (tokens : List Token) : Prop :=
  ∃ before t d comments, tokens = before ++ t :: comments ∧ t.kind = .dataType d ∧
    ∀ u ∈ comments, u.kind.isComment = true

/-- The token `t`, which comes after the tokens `seen`, is the longest sign that the text opens
with. Only the dot is another one after a data type. -/
structure Token.IsSignAt (seen : List Token) (text : List Char) (t : Token) (spelling : String)
    (sign : Sign) : Prop where
  longest : Sign.longest? text = some (spelling, sign)
  written : t.text.toList = text.take spelling.length
  size : t.span.stop = t.span.start + byteLength spelling.toList
  kind : ¬ (t.text = "." ∧ AfterType seen) → t.kind = Piece.ofSign sign
  dot : t.text = "." → (t.kind = .indirection .standard ↔ AfterType seen)

variable {source : String} {options : LexOptions} {groupNames : Bool}

theorem longestFront_word {c : Char} (opens : startsName c = true) (rest : List Char) :
    LongestFront IsWord (c :: rest) (c :: rest.takeWhile continuesName) where
  within := (List.prefix_cons_inj c).2 (takeWhile_front _ _)
  formed := ⟨c, _, rfl, opens, fun _ => List.mem_takeWhile_imp⟩
  longest := by
    rintro _ front ⟨d, name, rfl, -, inName⟩
    obtain ⟨rfl, after, rfl⟩ := List.cons_prefix_cons.1 front
    rw [List.takeWhile_append_of_pos inName, List.length_cons, List.length_cons,
      List.length_append]
    omega

theorem PlacedPiece.ReadAfter.isWord {source front rest : List Char} {seen : List Token} {c : Char}
    {p : PlacedPiece} (h : p.ReadAfter false source front seen c rest) {keepComments : Bool}
    {t : Token} (shown : p.token? keepComments = some t) (opens : startsName c = true) :
    LongestFront IsWord (c :: rest) t.text.toList ∧ t.kind = .ofWord t.text := by
  obtain ⟨piece, place⟩ := p
  obtain ⟨lineRead, rfl⟩ : ∃ lineRead, piece = .read false (.ofTokens seen) lineRead c rest :=
    h.read
  rw [Piece.read_of_startsName opens, Bool.false_and, Piece.word_alone, token?_word] at shown
  obtain rfl := Option.some.inj shown
  refine ⟨?_, rfl⟩
  rw [Token.word, Token.write, String.toList_ofList]
  exact longestFront_word opens rest

theorem Lookback.ofTokens_eq_afterType_iff {tokens : List Token} :
    ofTokens tokens = .afterType ↔ AfterType tokens := by
  have types (kind : TokenKind) : ofKind kind = .afterType ↔ ∃ d, kind = .dataType d := by
    cases kind <;> simp [ofKind]
  have last : ofTokens tokens = .afterType ↔
      ∃ t, (tokens.reverse.find? fun t => !t.kind.isComment) = some t ∧
        ∃ d, t.kind = .dataType d := by
    rw [ofTokens]
    cases tokens.reverse.find? fun t => !t.kind.isComment with
    | none => simp
    | some t => simp [types]
  rw [last]
  constructor
  · rintro ⟨t, found, d, kind⟩
    obtain ⟨-, comments, before, cut, all⟩ := List.find?_eq_some_iff_append.1 found
    refine ⟨before.reverse, t, d, comments.reverse, ?_, kind, fun u member => ?_⟩
    · rw [← List.reverse_reverse tokens, cut]
      simp
    · simpa using all u (List.mem_reverse.1 member)
  · rintro ⟨before, t, d, comments, rfl, kind, all⟩
    refine ⟨t, List.find?_eq_some_iff_append.2 ⟨by rw [kind]; rfl, comments.reverse,
      before.reverse, by simp, fun u member => ?_⟩, d, kind⟩
    rw [all u (List.mem_reverse.1 member)]
    rfl

theorem eq_dot_of_sameWord {word : String} (same : sameWord word "." = true) : word = "." := by
  have folded : foldCase word.toList = ['.'] := sameSpelling_iff.1 same
  obtain ⟨c, spelled⟩ : ∃ c, word.toList = [c] :=
    List.length_eq_one_iff.1 ((length_foldCase _).symm.trans (congrArg List.length folded))
  rw [spelled] at folded
  obtain rfl : c = '.' := eq_of_toLower_eq rfl (List.cons.inj folded).1
  exact String.toList_inj.1 spelled

theorem Sign.eq_dot_iff {listed : String × Sign} (member : listed ∈ spellings) :
    listed.2 = .delimiter .dot ↔ listed.1 = "." := by
  revert listed
  decide +kernel

theorem TokenKind.not_marksDirective_of_isSign {kind : TokenKind} (isSign : kind.isSign = true) :
    kind.marksDirective = false := by
  cases kind with
  | directive | directiveLine => cases isSign
  | _ => rfl

theorem PlacedPiece.ReadAfter.isSign {source front rest : List Char} {seen : List Token} {c : Char}
    {p : PlacedPiece} (h : p.ReadAfter groupNames source front seen c rest) {keepComments : Bool}
    {t : Token} (shown : p.token? keepComments = some t) (isSign : t.kind.isSign = true) :
    ∃ spelling sign, t.IsSignAt seen (c :: rest) spelling sign := by
  have found := kind?_of_token? shown (TokenKind.not_marksDirective_of_isSign isSign)
  obtain ⟨_, lexeme, -⟩ := (Piece.shows_of_kind? found).sign isSign
  obtain ⟨lineRead, read⟩ := h.read
  rw [read] at lexeme
  obtain ⟨⟨spelling, sign⟩, longest, piece⟩ := Option.map_eq_some_iff.1 (Piece.sign?_of_read lexeme)
  rw [← read] at piece
  obtain ⟨member, spelled⟩ := Sign.mem_of_longest? longest
  have same : sameSpelling ((c :: rest).take spelling.length) spelling.toList = true :=
    (Bool.and_eq_true_iff.1 spelled).1
  have written : t.text.toList = (c :: rest).take spelling.length := by
    rw [text_of_token? shown, ← piece, String.toList_ofList]
  rw [← written] at same
  have kind : t.kind = Piece.ofSign (if sign = .delimiter .dot ∧ .ofTokens seen = Lookback.afterType
      then .indirection .standard else sign) := by
    rw [← piece] at found
    exact (Option.some.inj found).symm
  have spelledDot : sign = .delimiter .dot ↔ spelling = "." := Sign.eq_dot_iff member
  have isDot (dot : t.text = ".") : sign = .delimiter .dot := by
    rw [dot, sameSpelling_comm] at same
    exact spelledDot.2 (eq_dot_of_sameWord same)
  have dotted (dot : sign = .delimiter .dot) : t.text = "." := by
    rw [spelledDot.1 dot] at same
    exact eq_dot_of_sameWord same
  refine ⟨spelling, sign, longest, written, ?_, fun other => ?_, fun dot => ?_⟩
  · rw [span_of_token? shown, PlacedPiece.span, ← byteLength_eq_of_sameSpelling same,
      text_of_token? shown, String.toList_ofList]
  · rw [kind, if_neg]
    rintro ⟨dot, after⟩
    exact other ⟨dotted dot, Lookback.ofTokens_eq_afterType_iff.1 after⟩
  · rw [kind, ← Lookback.ofTokens_eq_afterType_iff, isDot dot]
    by_cases after : Lookback.ofTokens seen = .afterType
    · simp [after, Piece.ofSign]
    · simp [after, Piece.ofSign]

theorem PlacedPiece.ReadAfter.isString {source front rest : List Char} {seen : List Token}
    {c : Char} {p : PlacedPiece} (h : p.ReadAfter groupNames source front seen c rest)
    {keepComments : Bool} {t : Token} (shown : p.token? keepComments = some t) {contents : String}
    (kind : t.kind = .string contents) :
    '"' ∉ contents.toList ∧ (t.text.toList = '"' :: contents.toList ++ ['"'] ∨
      t.text.toList = '"' :: contents.toList ∧ c :: rest = t.text.toList) := by
  have found := kind?_of_token? shown (by rw [kind]; rfl)
  obtain ⟨chars, closed, lexeme, rfl⟩ := Piece.shows_of_kind? (found.trans (congrArg some kind))
  obtain ⟨after, whole, segment⟩ := h.segment
  rw [text_of_token? shown, String.toList_ofList, String.toList_ofList]
  rw [lexeme] at segment
  generalize p.piece.text = text at whole segment
  cases segment with
  | closedString noMark => exact ⟨noMark, .inl rfl⟩
  | openString noMark => exact ⟨noMark, .inr ⟨rfl, whole.trans (List.append_nil _)⟩⟩

theorem Piece.read_unknown_iff {lookback : Lookback} {lineRead : List Char} {c d : Char}
    {rest : List Char} :
    (read groupNames lookback lineRead c rest).lexeme = .unknown d ↔
      d = c ∧ OpensNothing c rest ∧ ¬ OpensNumeral (c :: rest) := by
  rw [opensNumeral_iff]
  constructor
  · intro unknown
    have rule := read_byRule groupNames lookback lineRead c rest
    obtain ⟨after, whole, segment⟩ := read_segment groupNames lookback lineRead c rest
    rw [ByRule, unknown] at rule
    rw [unknown] at segment
    generalize (read groupNames lookback lineRead c rest).text = text at whole segment
    cases segment with
    | unknown nothing =>
        obtain ⟨rfl, rfl⟩ := List.cons.inj whole
        refine ⟨rfl, nothing, ?_⟩
        rintro (digit | marked)
        · rw [nothing.number] at digit
          cases digit
        · by_cases percent : c = '%'
          · rw [rule percent] at marked
            cases marked
          · rw [NumeralBase.marked?_of_ne percent] at marked
            cases marked
  · rintro ⟨rfl, nothing, noNumeral⟩
    have noSign : sign? lookback (d :: rest) = none := by
      rw [sign?, Sign.longest?_eq_none_iff.2 nothing.sign, Option.map_none]
    rw [read, if_neg (by simp [nothing.blank]), if_neg fun h => nothing.comment.2 h.1 h.2,
      if_neg nothing.comment.1, if_neg nothing.directive,
      if_neg fun h => noNumeral (h.imp_right And.right), if_neg (by simp [nothing.word]),
      if_neg nothing.string, noSign]
    rfl

theorem PlacedPiece.cause?_unknown_iff {p : PlacedPiece} {c : Char} :
    p.cause? = some (.unknownCharacter c) ↔ p.piece.lexeme = .unknown c := by
  obtain ⟨⟨lexeme, written⟩, place⟩ := p
  cases lexeme with
  | unknown d => simp [cause?]
  | number value => simp [cause?]
  | comment closed => cases closed <;> simp [cause?]
  | string contents closed => cases closed <;> simp [cause?]
  | _ => simp [cause?]

theorem PlacedPiece.ReadAfter.unknown_iff {source front rest : List Char} {seen : List Token}
    {c d : Char} {p : PlacedPiece} (h : p.ReadAfter groupNames source front seen c rest) :
    p.cause? = some (.unknownCharacter d) ↔
      d = c ∧ OpensNothing c rest ∧ ¬ OpensNumeral (c :: rest) := by
  obtain ⟨lineRead, read⟩ := h.read
  rw [cause?_unknown_iff, read, Piece.read_unknown_iff]

/-- Where names are not grouped, the text from a token on determines the token, but for the dot,
which the tokens before it tell apart. Characters are dropped where a piece starts and no rule
applies, and nowhere else. -/
theorem lex_grammar (source : String) (keepComments : Bool) :
    let found := lex source { keepComments, groupNames := false }
    (∀ seen t later, found.tokens = seen ++ t :: later →
      ∃ front text, source.toList = front ++ text ∧ byteLength front = t.span.start ∧
        (∀ c ∈ text.head?, startsName c = true →
          LongestFront IsWord text t.text.toList ∧ t.kind = .ofWord t.text) ∧
        (∀ contents, t.kind = .string contents → '"' ∉ contents.toList ∧
          (t.text.toList = '"' :: contents.toList ++ ['"'] ∨
            t.text.toList = '"' :: contents.toList ∧ text = t.text.toList)) ∧
        (t.kind.isSign = true → ∃ spelling sign, t.IsSignAt seen text spelling sign)) ∧
    ∀ offset c,
      (∃ d ∈ found.diagnostics, d.cause = .unknownCharacter c ∧ d.span.start = offset) ↔
        ∃ p ∈ pieces false source, p.place.offset = offset ∧
          ∃ before after, source.toList = before ++ c :: after ∧ byteLength before = offset ∧
            OpensNothing c after ∧ ¬ OpensNumeral (c :: after) := by
  intro found
  refine ⟨fun seen t later cut => ?_, fun offset c => ⟨?_, ?_⟩⟩
  · obtain ⟨before, p, after, whole, rfl, shown⟩ := exists_piece_of_token cut
    obtain ⟨front, c, rest, read⟩ := pieces_readAfter keepComments whole
    have start : t.span.start = p.place.offset := congrArg Span.start (span_of_token? shown)
    refine ⟨front, c :: rest, read.cut, read.start.symm.trans start.symm, fun d first opens => ?_,
      fun contents => read.isString shown, read.isSign shown⟩
    exact read.isWord shown (Option.some.inj first ▸ opens)
  · rintro ⟨d, reported, cause, rfl⟩
    obtain ⟨p, placed, here, rfl⟩ := mem_diagnostics_iff.1 ⟨reported, cause⟩
    obtain ⟨front, seen, first, rest, read⟩ := exists_readAfter placed
    obtain ⟨rfl, nothing, noNumeral⟩ := read.unknown_iff.1 here
    exact ⟨p, placed, rfl, front, rest, read.cut, read.start.symm, nothing, noNumeral⟩
  · rintro ⟨p, placed, rfl, before, after, cut, start, nothing, noNumeral⟩
    obtain ⟨front, seen, first, rest, read⟩ := exists_readAfter placed
    obtain ⟨rfl, same⟩ := read.rest_eq cut start
    obtain ⟨rfl, rfl⟩ := List.cons.inj same
    have here := read.unknown_iff.2 ⟨rfl, nothing, noNumeral⟩
    obtain ⟨reported, cause⟩ : _ ∈ found.diagnostics ∧ _ :=
      mem_diagnostics_iff.2 ⟨p, placed, here, rfl⟩
    exact ⟨_, reported, cause, rfl⟩

theorem lex_grammar_pointer :
    let found := lex "INT !c! .p §" { keepComments := true, groupNames := false }
    ∃ seen t later, found.tokens = seen ++ t :: later ∧ t.text = "." ∧
      t.kind = .indirection .standard ∧ AfterType seen ∧ ∃ after, OpensNothing '§' after := by
  intro found
  let t : Token := .write (.indirection .standard) "." ⟨8, 9⟩ 0 8
  have cut : found.tokens = found.tokens.take 2 ++ t :: found.tokens.drop 3 := by decide +kernel
  obtain ⟨tokens, dropped⟩ := lex_grammar "INT !c! .p §" true
  obtain ⟨front, text, -, -, -, -, signs⟩ := tokens _ t _ cut
  obtain ⟨spelling, sign, isSign⟩ := signs rfl
  obtain ⟨p, -, -, before, after, -, -, nothing, -⟩ := (dropped 11 '§').1
    ⟨.ofCause (.unknownCharacter '§') ⟨11, 13⟩, by decide +kernel, rfl, rfl⟩
  exact ⟨_, t, _, cut, rfl, rfl, (isSign.dot rfl).1 rfl, after, nothing⟩

end TalAnalysis
