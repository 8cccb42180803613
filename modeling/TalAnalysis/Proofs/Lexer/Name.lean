import TalAnalysis.Proofs.Lexer.Comments
import TalAnalysis.Proofs.Lexer.Cut
import TalAnalysis.Proofs.Vocabulary.Word

namespace TalAnalysis
open Text

/-- Names in the source after the offset `place`, each one space on from what is before it, up to
the offset `stop`. -/
inductive NamesAfter (source : List Char) : Nat → List Token → Nat → Prop
  | none (place : Nat) : NamesAfter source place [] place
  | more {place stop name names} (isName : name.kind.isName = true)
      (space : slice? source place name.span.start = some [' '])
      (others : NamesAfter source name.span.stop names stop) :
      NamesAfter source place (name :: names) stop

def NameNext (source : List Char) (place : Nat) (tokens : List Token) : Prop :=
  ∃ name ∈ tokens.head?, name.kind.isName = true ∧
    slice? source place name.span.start = some [' ']

theorem NamesAfter.eq_of_nil {source : List Char} {place stop : Nat}
    (h : NamesAfter source place [] stop) : place = stop := by
  cases h
  rfl

variable {source : List Char} {keepComments : Bool}

theorem TokenKind.ofWord_of_notReserved {word : String}
    (free : ∀ k ∈ Keyword.all, sameWord word k.spelling = false) : ofWord word = .name word := by
  have keyword : Keyword.ofSpelling? word = none := findWord?_eq_none_iff.2 free
  rw [ofWord_eq, keyword]
  rfl

theorem TokenKind.ofWord_of_space {word : List Char} (space : ' ' ∈ word) :
    ofWord (String.ofList word) = .name (String.ofList word) := by
  have noSpace : ∀ k ∈ Keyword.all, ' ' ∉ k.spelling.toList := by decide
  refine ofWord_of_notReserved fun k member => Bool.eq_false_iff.2 fun same => ?_
  rw [sameWord, String.toList_ofList] at same
  exact noSpace k member (mem_of_sameSpelling same rfl rfl space)

namespace Text

theorem ne_of_startsName {c : Char} (opens : startsName c = true) :
    isBlank c = false ∧ c ≠ '-' ∧ c ≠ '!' ∧ c ≠ '?' ∧ c ≠ '%' := by
  refine ⟨Bool.eq_false_iff.2 ?_, ?_, ?_, ?_, ?_⟩
  · intro blank
    rw [isBlank, Bool.or_eq_true, Bool.or_eq_true, beq_iff_eq, beq_iff_eq, beq_iff_eq] at blank
    rcases blank with (rfl | rfl) | rfl <;> exact absurd opens (by decide)
  all_goals
    rintro rfl
    exact absurd opens (by decide)

theorem not_isDigit_of_startsName {c : Char} (opens : startsName c = true) :
    c.isDigit = false := by
  apply Bool.eq_false_iff.2
  intro digit
  have high : c.val.toNat ≤ 57 := by
    simp only [Char.isDigit, Bool.and_eq_true, decide_eq_true_eq, UInt32.le_iff_toNat_le,
      ge_iff_le] at digit
    exact digit.2
  have letters : c.isAlpha = false := by
    unfold Char.isAlpha Char.isUpper Char.isLower
    simp only [Bool.or_eq_false_iff, Bool.and_eq_false_iff, decide_eq_false_iff_not,
      UInt32.le_iff_toNat_le, ge_iff_le]
    have : 'A'.val.toNat = 65 := rfl
    have : 'a'.val.toNat = 97 := rfl
    omega
  simp only [startsName, letters, Bool.or_eq_true, beq_iff_eq, Bool.false_eq_true,
    false_or] at opens
  rcases opens with (rfl | rfl) | rfl <;> exact absurd digit (by decide)

theorem continuesName_of_startsName {c : Char} (opens : startsName c = true) (other : c ≠ '$') :
    continuesName c = true := by
  simp only [startsName, Bool.or_eq_true, beq_iff_eq, other, or_false] at opens
  simp only [continuesName, Char.isAlphanum, Bool.or_eq_true, beq_iff_eq]
  rcases opens with (letter | rfl) | rfl
  · exact .inl (.inl (.inl letter))
  · exact .inl (.inr rfl)
  · exact .inr rfl

end Text

namespace Piece

theorem read_of_isBlank {c : Char} (blank : isBlank c = true) (groupNames : Bool)
    (lookback : Lookback) (lineRead rest : List Char) :
    read groupNames lookback lineRead c rest = ⟨.blanks, c :: rest.takeWhile isBlank⟩ := by
  rw [read, if_pos blank, blanks, List.takeWhile_cons_of_pos blank]

theorem read_space (groupNames : Bool) (lookback : Lookback) (lineRead : List Char) {c : Char}
    (opens : startsName c = true) (rest : List Char) :
    read groupNames lookback lineRead ' ' (c :: rest) = ⟨.blanks, [' ']⟩ := by
  rw [read_of_isBlank (by decide),
    List.takeWhile_cons_of_neg (by simp [(ne_of_startsName opens).1])]

theorem read_of_startsName {groupNames : Bool} {lookback : Lookback} {lineRead : List Char}
    {c : Char} {rest : List Char} (opens : startsName c = true) :
    read groupNames lookback lineRead c rest =
      word (groupNames && lookback != .afterMarker) c rest := by
  obtain ⟨blank, hyphen, comment, directive, percent⟩ := ne_of_startsName opens
  rw [read, if_neg (by simp [blank]), if_neg (by simp [hyphen]), if_neg comment, if_neg directive,
    if_neg (by simp [not_isDigit_of_startsName opens, percent]), if_pos opens]

theorem word_alone (c : Char) (rest : List Char) :
    word false c rest = ⟨.word, c :: rest.takeWhile continuesName⟩ := by
  rw [word, Bool.false_and, if_neg Bool.false_ne_true]

theorem read_name {groupNames : Bool} {lookback : Lookback} {lineRead : List Char} {c : Char}
    {rest : List Char} {kind : TokenKind} (isName : kind.isName = true)
    (h : (read groupNames lookback lineRead c rest).kind? = some kind) : startsName c = true := by
  obtain ⟨after, whole, segment⟩ := read_segment groupNames lookback lineRead c rest
  generalize read groupNames lookback lineRead c rest = p at *
  obtain ⟨lexeme, text⟩ := p
  cases lexeme with
  | word =>
      cases segment with
      | word opens => exact (List.cons.inj whole).1 ▸ opens
  | blanks | unknown => cases h
  | lineComment | comment | number | string =>
      cases h
      cases isName
  | directive opensLine =>
      cases h
      cases opensLine <;> cases isName
  | sign sign =>
      cases h
      cases sign <;> cases isName

theorem nameAhead?_isSome {c : Char} {rest : List Char} (opens : startsName c = true)
    (isName :
      (TokenKind.ofWord (String.ofList (c :: rest.takeWhile continuesName))).isName = true) :
    ∃ name, nameAhead? (c :: rest) = some name := by
  refine ⟨(c :: rest).takeWhile continuesName, ?_⟩
  have word : (TokenKind.ofWord
      (String.ofList ((c :: rest).takeWhile continuesName))).isName = true := by
    cases goesOn : continuesName c with
    | true => rwa [List.takeWhile_cons_of_pos goesOn]
    | false =>
        rw [List.takeWhile_cons_of_neg (by simp [goesOn])]
        decide +kernel
  rw [nameAhead?, List.head?_cons, Option.map_some, opens, word]
  rfl

theorem nameAhead?_eq_some {text name : List Char} (h : nameAhead? text = some name) :
    name = text.takeWhile continuesName ∧ (TokenKind.ofWord (String.ofList name)).isName = true ∧
      ∃ c rest, text = c :: rest ∧ startsName c = true := by
  simp only [nameAhead?, Option.ite_none_right_eq_some, Option.some.injEq, Bool.and_eq_true] at h
  obtain ⟨⟨opens, isName⟩, rfl⟩ := h
  cases text with
  | nil => cases opens
  | cons c rest => exact ⟨rfl, isName, c, rest, rfl, by simpa using opens⟩

theorem furtherNames_drop (text : List Char) :
    furtherNames (text.drop (furtherNames text).length) = [] := by
  fun_induction furtherNames text with
  | case1 rest name ahead ih =>
      rwa [List.cons_append, List.length_cons, List.drop_succ_cons, List.length_append,
        ← List.drop_drop]
  | case2 rest ahead => rw [List.length_nil, List.drop_zero, furtherNames, ahead]
  | case3 text noSpace => rwa [List.length_nil, List.drop_zero, furtherNames]

theorem furtherNames_space {text : List Char} (some : furtherNames text ≠ []) :
    ' ' ∈ furtherNames text := by
  revert some
  fun_cases furtherNames text with
  | case1 => simp
  | case2 => simp
  | case3 => simp

end Piece

def Token.word (text : List Char) (place : Place) : Token :=
  .write (.ofWord (String.ofList text)) (String.ofList text)
    ⟨place.offset, place.offset + byteLength text⟩ place.line place.column

theorem PlacedPiece.token?_word (keepComments : Bool) (text : List Char) (place : Place) :
    token? keepComments ⟨⟨.word, text⟩, place⟩ = some (.word text place) := by
  have other (word : String) : TokenKind.ofWord word ≠ .directiveLine := by
    unfold TokenKind.ofWord
    split
    · exact TokenKind.noConfusion
    · split
      · exact TokenKind.noConfusion
      · split <;> exact TokenKind.noConfusion
  have kind : (⟨⟨.word, text⟩, place⟩ : PlacedPiece).piece.kind? =
      some (.ofWord (String.ofList text)) := rfl
  rw [token?_of_kind?_some kind, isComment_ofWord, Bool.not_false, Bool.or_true, if_pos rfl,
    if_neg fun line => other _ line.1]
  rfl

theorem Piece.lookback_word {text : List Char} {before : Lookback}
    (isName : (TokenKind.ofWord (String.ofList text)).isName = true) :
    (⟨.word, text⟩ : Piece).lookback before = .plain := by
  have found : (⟨.word, text⟩ : Piece).kind? = some (.ofWord (String.ofList text)) := rfl
  rw [lookback_of_kind? found, isComment_ofWord, if_neg Bool.false_ne_true]
  generalize TokenKind.ofWord (String.ofList text) = kind at isName ⊢
  cases kind with
  | name => rfl
  | _ => cases isName

theorem piecesFrom_space_word {r : Reader} {c : Char} {rest : List Char} (lookback : Lookback)
    (unread : r.rest = ' ' :: c :: rest) (opens : startsName c = true) :
    let word := c :: rest.takeWhile continuesName
    piecesFrom false lookback r =
      ⟨⟨.blanks, [' ']⟩, r.place⟩ :: ⟨⟨.word, word⟩, (r.skip 1).place⟩ ::
        piecesFrom false ((⟨.word, word⟩ : Piece).lookback lookback)
          ((r.skip 1).skip word.length) := by
  intro word
  have left : (r.skip 1).rest = c :: rest := by rw [Reader.rest_skip, unread]; rfl
  have next : Piece.read false lookback (r.skip 1).lineRead c rest = ⟨.word, word⟩ := by
    rw [Piece.read_of_startsName opens, Bool.false_and, Piece.word_alone]
  rw [piecesFrom_cons unread, Piece.read_space false lookback _ opens]
  show _ :: piecesFrom false lookback (r.skip 1) = _
  rw [piecesFrom_cons left, next]

theorem piecesFrom_furtherNames (keepComments : Bool) {r : Reader} (h : r.In source) :
    ∃ row n, piecesFrom false .plain r = row ++ piecesFrom false .plain (r.skip n) ∧
      row.filterMap PlacedPiece.diagnostic? = [] ∧
      NamesAfter source r.place.offset (row.filterMap (PlacedPiece.token? keepComments))
        (r.skip n).place.offset ∧
      (n = (Piece.furtherNames r.rest).length ∨ [' ', '$'] <+: (r.skip n).rest) := by
  generalize unread : r.rest = text
  fun_induction Piece.furtherNames text generalizing r with
  | case2 | case3 => exact ⟨[], 0, rfl, rfl, .none _, .inl rfl⟩
  | case1 rest name ahead ih =>
      obtain ⟨rfl, isName, c, rest, rfl, opens⟩ := Piece.nameAhead?_eq_some ahead
      -- A `$` opens the word ahead but does not go on with it: what is taken in is the space, and
      -- the run stops before that.
      by_cases mark : c = '$'
      · subst mark
        exact ⟨[], 0, rfl, rfl, .none _, .inr ⟨rest, unread.symm⟩⟩
      · have goesOn := continuesName_of_startsName opens mark
        rw [List.takeWhile_cons_of_pos goesOn] at isName ih ⊢
        let word := c :: rest.takeWhile continuesName
        let past := (r.skip 1).skip word.length
        have left : past.rest = (c :: rest).drop word.length := by
          rw [Reader.rest_skip, Reader.rest_skip, unread]
          rfl
        obtain ⟨row, n, cut, silent, further, stop⟩ := ih ((h.skip 1).skip word.length) left
        have all : r.skip (1 + word.length + n) = past.skip n := by
          rw [Reader.skip_add, Reader.skip_add]
        have space : [' '] <+: r.rest := ⟨c :: rest, unread.symm⟩
        have front : word <+: (r.skip 1).rest := by
          rw [Reader.rest_skip, unread]
          exact (List.prefix_cons_inj c).2 (takeWhile_front _ _)
        refine ⟨⟨⟨.blanks, [' ']⟩, r.place⟩ :: ⟨⟨.word, word⟩, (r.skip 1).place⟩ :: row,
          1 + word.length + n, ?_, silent, ?_, ?_⟩
        · rw [piecesFrom_space_word .plain unread opens, Piece.lookback_word isName, cut, all]
          rfl
        · rw [List.filterMap_cons_none (token?_of_kind?_none rfl),
            List.filterMap_cons_some (PlacedPiece.token?_word keepComments word _), all]
          refine .more isName ?_ ?_
          · have here := Reader.offset_skip_front space
            rw [List.length_singleton] at here
            rw [Token.word, Token.write, here]
            exact h.slice? space
          · rw [Token.word, Token.write, ← Reader.offset_skip_front front]
            exact further
        · rw [all]
          refine stop.imp (fun whole => ?_) id
          simp only [whole, word, List.cons_append, List.length_cons, List.length_append]
          omega

theorem offset_le_piecesFrom {groupNames : Bool} (lookback : Lookback) (r : Reader) :
    ∀ p ∈ piecesFrom groupNames lookback r, r.place.offset ≤ p.place.offset := by
  fun_induction piecesFrom groupNames lookback r with
  | case1 => simp
  | case2 lookback r c rest unread piece ih =>
      have on := Reader.offset_skip r piece.text.length
      rintro p (_ | ⟨_, member⟩)
      · exact Nat.le_refl _
      · have := ih p member
        omega

theorem write_of_token? {p : PlacedPiece} {t : Token} (h : p.token? keepComments = some t) :
    t = .write t.kind (String.ofList p.piece.text) p.span p.place.line p.place.column := by
  cases found : p.piece.kind? with
  | none => simp [token?_of_kind?_none found] at h
  | some kind =>
      rw [token?_of_kind?_some found, Option.ite_none_right_eq_some] at h
      rw [← Option.some.inj h.2]
      rfl

theorem span_of_token? {p : PlacedPiece} {t : Token} (h : p.token? keepComments = some t) :
    t.span = p.span :=
  congrArg Token.span (write_of_token? h)

theorem text_of_token? {p : PlacedPiece} {t : Token} (h : p.token? keepComments = some t) :
    t.text = String.ofList p.piece.text :=
  congrArg Token.text (write_of_token? h)

theorem kind?_of_isName {p : PlacedPiece} {t : Token} (h : p.token? keepComments = some t)
    (isName : t.kind.isName = true) : p.piece.kind? = some t.kind := by
  apply kind?_of_token? h
  cases kind : t.kind with
  | name => rfl
  | _ => rw [kind] at isName; cases isName

theorem Piece.word_of_isName {lookback : Lookback} {lineRead : List Char} {c : Char}
    {rest : List Char} {kind : TokenKind} (isName : kind.isName = true)
    (h : (read false lookback lineRead c rest).kind? = some kind) :
    startsName c = true ∧ kind = .ofWord (String.ofList (c :: rest.takeWhile continuesName)) := by
  have opens := read_name isName h
  rw [read_of_startsName opens, Bool.false_and, word_alone] at h
  exact ⟨opens, (Option.some.inj h).symm⟩

theorem token?_of_start {groupNames : Bool} {lookback : Lookback} {r : Reader} {t : Token}
    (member : t ∈ (piecesFrom groupNames lookback r).filterMap (PlacedPiece.token? keepComments))
    (start : t.span.start ≤ r.place.offset) :
    ∃ c rest, r.rest = c :: rest ∧ PlacedPiece.token? keepComments
      ⟨.read groupNames lookback r.lineRead c rest, r.place⟩ = some t := by
  obtain ⟨p, found, shown⟩ := List.mem_filterMap.1 member
  cases unread : r.rest with
  | nil => simp [piecesFrom_nil unread] at found
  | cons c rest =>
      rw [piecesFrom_cons unread] at found
      refine ⟨c, rest, rfl, ?_⟩
      rcases List.mem_cons.1 found with rfl | later
      · exact shown
      · have past := offset_le_piecesFrom _ _ p later
        have front := Piece.read_text_front groupNames lookback r.lineRead c rest
        rw [Reader.offset_skip_front (unread ▸ front)] at past
        have some := byteLength_pos (Piece.read_text_ne_nil groupNames lookback r.lineRead c rest)
        have : t.span.start = p.place.offset := congrArg Span.start (span_of_token? shown)
        omega

theorem not_nameNext {r : Reader} (h : r.In source) (none : Piece.furtherNames r.rest = []) :
    ¬ NameNext source r.place.offset
      ((piecesFrom false .plain r).filterMap (PlacedPiece.token? keepComments)) := by
  rintro ⟨name, first, isName, space⟩
  obtain ⟨⟨rest, cut⟩, start⟩ := h.of_slice? space
  have unread : r.rest = ' ' :: rest := cut.symm
  let gap := ' ' :: rest.takeWhile isBlank
  have blanks : Piece.read false .plain r.lineRead ' ' rest = ⟨.blanks, gap⟩ :=
    Piece.read_of_isBlank (by decide) false .plain _ rest
  rw [piecesFrom_cons unread, blanks, List.filterMap_cons_none (token?_of_kind?_none rfl)] at first
  have front : gap <+: r.rest := unread ▸ (List.prefix_cons_inj _).2 (takeWhile_front _ _)
  have here := Reader.offset_skip_front front
  have size : byteLength gap = byteLength [' '] + byteLength (rest.takeWhile isBlank) := rfl
  obtain ⟨c, after, left, shown⟩ :=
    token?_of_start (List.mem_of_mem_head? first) (by rw [start, here, size]; omega)
  have touching : name.span.start = (r.skip gap.length).place.offset :=
    congrArg Span.start (span_of_token? shown)
  have single : rest.takeWhile isBlank = [] := by
    by_contra some
    have := byteLength_pos some
    omega
  have next : rest = c :: after := by
    rw [Reader.rest_skip, unread] at left
    simpa [gap, single] using left
  obtain ⟨opens, kind⟩ := Piece.word_of_isName isName (kind?_of_isName shown isName)
  obtain ⟨ahead, found⟩ := Piece.nameAhead?_isSome opens (kind ▸ isName)
  rw [unread, next, Piece.furtherNames, found] at none
  cases none

end TalAnalysis
