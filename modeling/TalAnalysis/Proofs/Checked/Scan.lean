import TalAnalysis.Proofs.Checked.Scanner

namespace TalAnalysis.Checked
open Text

namespace Scanner

variable {source : List Char} {r : Reader} {found : Lexed} {options : LexOptions} {p : Piece}
  {keepComments : Bool} {kind : TokenKind} {cause? : Option Cause} {c : Char}
  {rest text : List Char}

def scanSign? (s : Scanner) (c : Char) : Option Scanner := do
  let start := s.cursor.place
  match ← longestMatch? (← s.cursor.rest?) with
  | none =>
    let (_, cursor) ← s.cursor.consume?
    return diagnose { s with cursor } (.unknownCharacter c) start
  | some (spelling, sign) =>
    let (_, cursor) ← s.cursor.consumeBytes? (byteLength spelling.toList)
    let sign :=
      if sign = .delimiter .dot ∧ Lookback.ofTokens s.tokens = .afterType then
        .indirection .standard
      else sign
    addToken? { s with cursor } (Piece.ofSign sign) start

theorem isComment_ofSign (sign : Sign) : (Piece.ofSign sign).isComment = false := by
  cases sign <;> rfl

theorem marksDirective_ofSign (sign : Sign) : (Piece.ofSign sign).marksDirective = false := by
  cases sign <;> rfl

theorem scanSign?_of (h : r.Reads source) (unread : r.rest = c :: rest) :
    scanSign? (of source r found) c =
      some (after source r keepComments found
        ((Piece.sign? (.ofTokens found.tokens) r.rest).getD ⟨.unknown c, [c]⟩)) := by
  rw [scanSign?, of]
  simp only [Cursor.rest?_of h, longestMatch?_eq, Option.bind_eq_bind, Option.bind_some]
  cases longest : Sign.longest? r.rest with
  | none =>
      have front : [c] <+: r.rest := ⟨rest, unread.symm⟩
      simp only [Cursor.consume?_of h, Piece.sign?, longest, Option.bind_some, Option.map_none,
        Option.getD_none]
      exact congrArg some (report_piece (p := ⟨.unknown c, [c]⟩) front rfl)
  | some listed =>
      obtain ⟨-, spelled⟩ := Sign.mem_of_longest? longest
      rw [Sign.matchesAt, Bool.and_eq_true] at spelled
      have size : (r.rest.take listed.1.length).length = listed.1.toList.length := by
        have same := length_eq_of_sameSpelling spelled.1
        rwa [String.length_toList] at same ⊢
      simp only [Cursor.consumeBytes?_of_opensWith h spelled.1, Piece.sign?, longest,
        Option.bind_some, Option.map_some, Option.getD_some]
      rw [← size]
      exact addToken?_piece (p := ⟨.sign _, r.rest.take listed.1.length⟩) h (take_front _ _)
        (token?_plain rfl (isComment_ofSign _) (marksDirective_ofSign _) _)

def pastBase? (s : Cursor) : Option (NumeralBase × Cursor) := do
  match ← basePrefix? (← s.rest?) with
  | none => return (.decimal, s)
  | some (mark, base) => return (base, (← s.consumeBytes? (byteLength mark.toList)).2)

def pastSuffix? (base : NumeralBase) (s : Cursor) : Option Cursor := do
  match ← suffix? base (← s.rest?) with
  | none => return s
  | some (mark, _) => return (← s.consumeBytes? (byteLength mark.toList)).2

def addNumber? (s : Scanner) (value : Nat) (start : Place) : Option Scanner := do
  if maxInteger < value then
    let numeral ← s.cursor.slice? start.offset s.cursor.place.offset
    let cause := .integerOutOfRange (String.ofList numeral)
    (s.diagnose cause start).addToken? (.number maxInteger) start
  else s.addToken? (.number value) start

def scanNumber? (s : Scanner) : Option Scanner := do
  let (base, cursor) ← pastBase? s.cursor
  let (digits, cursor) ← cursor.skipWhile? base.isDigit
  let value ← integer? base digits
  let cursor ← pastSuffix? base cursor
  addNumber? { s with cursor } value s.cursor.place

theorem pastBase?_of (h : r.Reads source) {listed : String × NumeralBase}
    (marked : (NumeralBase.marked? r.rest).getD ("", .decimal) = listed) :
    pastBase? (.of source r) = some (listed.2, .of source (r.skip listed.1.length)) := by
  rw [pastBase?, Cursor.rest?_of h]
  simp only [basePrefix?_eq, Option.bind_eq_bind, Option.bind_some]
  cases found : NumeralBase.marked? r.rest with
  | none =>
      rw [found] at marked
      obtain rfl : ("", .decimal) = listed := marked
      rfl
  | some entry =>
      rw [found] at marked
      obtain rfl : entry = listed := marked
      have opens := List.find?_some found
      rw [Bool.and_eq_true] at opens
      simp only [Cursor.consumeBytes?_of_opensWith h opens.1, String.length_toList,
        Option.bind_some, Option.pure_def]

theorem pastSuffix?_of (h : r.Reads source) (base : NumeralBase) :
    pastSuffix? base (.of source r) = some (.of source
      (r.skip (((NumeralSize.marked? base r.rest).map (·.1.length)).getD 0))) := by
  rw [pastSuffix?, Cursor.rest?_of h]
  simp only [suffix?_eq, Option.bind_eq_bind, Option.bind_some]
  cases found : NumeralSize.marked? base r.rest with
  | none => rfl
  | some entry =>
      have opens := List.find?_some found
      rw [Bool.and_eq_true, Bool.and_eq_true] at opens
      simp only [Cursor.consumeBytes?_of_opensWith h opens.1.2, String.length_toList,
        Option.bind_some, Option.pure_def, Option.map_some, Option.getD_some]

theorem addNumber?_of (h : r.Reads source) (front : text <+: r.rest) (value : Nat) :
    (of source (r.skip text.length) found).addNumber? value r.place =
      some (after source r keepComments found ⟨.number value, text⟩) := by
  have slice : (of source (r.skip text.length) found).cursor.slice? r.place.offset
      (of source (r.skip text.length) found).cursor.place.offset = some text :=
    h.slice? front
  have cause : (⟨⟨.number value, text⟩, r.place⟩ : PlacedPiece).cause? =
      if maxInteger < value then some (.integerOutOfRange (String.ofList text)) else none := rfl
  have added : ((of source (r.skip text.length) found).report
        (⟨⟨.number value, text⟩, r.place⟩ : PlacedPiece).cause? r.place).addToken?
        (.number (min value maxInteger : Nat)) r.place =
      some (after source r keepComments found ⟨.number value, text⟩) :=
    addToken?_piece (p := ⟨.number value, text⟩) h front (token?_plain rfl rfl rfl _)
  rw [addNumber?]
  split
  · rename_i large
    rw [cause, if_pos large, Nat.min_eq_right (Nat.le_of_lt large)] at added
    rw [slice]
    exact added
  · rename_i fits
    rw [cause, if_neg fits, Nat.min_eq_left (Nat.le_of_not_lt fits)] at added
    exact added

theorem scanNumber?_of (h : r.Reads source) (unread : r.rest = c :: rest)
    (opens : c.isDigit = true ∨ (NumeralBase.marked? (c :: rest)).isSome = true) :
    scanNumber? (of source r found) =
      some (after source r keepComments found (.numeral r.rest)) := by
  generalize marked : (NumeralBase.marked? r.rest).getD ("", .decimal) = listed
  obtain ⟨mark, base⟩ := listed
  obtain ⟨-, digit⟩ := Piece.marks_of_numeral opens (unread ▸ marked)
  rw [← unread] at digit
  generalize taken : (r.rest.drop mark.length).takeWhile base.isDigit = digits
  generalize sized : ((NumeralSize.marked? base
    (r.rest.drop (mark.length + digits.length))).map (·.1.length)).getD 0 = size
  -- A mark of a base is read only with a digit after it, and else a digit opens the numeral.
  have some : digits ≠ [] := by
    cases left : r.rest.drop mark.length with
    | nil =>
        rw [left] at digit
        cases digit
    | cons d others =>
        rw [left] at digit taken
        have first : base.isDigit d = true := digit
        rw [List.takeWhile_cons_of_pos first] at taken
        exact taken ▸ List.cons_ne_nil _ _
  have inBase : digits.all base.isDigit = true :=
    List.all_eq_true.2 fun d member => List.mem_takeWhile_imp (taken ▸ member)
  have moved : ((r.skip mark.length).skip digits.length).skip size =
      r.skip (r.rest.take (mark.length + digits.length + size)).length := by
    rw [← Reader.skip_add, ← Reader.skip_add, ← Nat.add_assoc]
    exact (Reader.skip_length_peek r _).symm
  have numeral : Piece.numeral r.rest = ⟨.number (numberIn base.radix digits),
      r.rest.take (mark.length + digits.length + size)⟩ := by
    simp only [Piece.numeral, marked, taken, sized]
  have front := take_front (mark.length + digits.length + size) r.rest
  rw [scanNumber?, of, numeral]
  simp only [pastBase?_of h marked, Cursor.skipWhile?_of (h.skip _),
    pastSuffix?_of ((h.skip _).skip _), Reader.run, Reader.rest_skip, List.drop_drop, taken, sized,
    integer?, if_pos (And.intro some inBase), moved, Option.bind_eq_bind, Option.bind_some]
  exact addNumber?_of h front _

/-- The cursor after the names that follow, while all from the offset `start` to the cursor is a
name. -/
def joinNames? (start : Nat) (s : Cursor) : Option Cursor := do
  let spelling ← s.slice? start s.place.offset
  if (TokenKind.ofWord (String.ofList spelling)).isName then
    match ← nextName? (← s.rest?) with
    | none => return s
    | some size =>
      let (_, next) ← s.consumeBytes? size
      if _nearer : next.left < s.left then joinNames? start next else none
  else return s
termination_by s.left

def pastNames? (grouped : Bool) (start : Nat) (s : Cursor) : Option Cursor :=
  if grouped then joinNames? start s else some s

def addWord? (s : Scanner) (start : Place) : Option Scanner := do
  let spelling ← s.cursor.slice? start.offset s.cursor.place.offset
  s.addToken? (.ofWord (String.ofList spelling)) start

def scanWord? (options : LexOptions) (s : Scanner) : Option Scanner := do
  let start := s.cursor.place
  let (_, cursor) ← s.cursor.consume?
  let (_, cursor) ← cursor.skipWhile? continuesName
  let grouped := options.groupNames && Lookback.ofTokens s.tokens != .afterMarker
  let cursor ← pastNames? grouped start.offset cursor
  addWord? { s with cursor } start

theorem joinNames?_stop (h : r.Reads source) {spelling : List Char} (front : spelling <+: r.rest)
    (stop : (TokenKind.ofWord (String.ofList spelling)).isName = false ∨
      nextName? (r.rest.drop spelling.length) = some none) :
    joinNames? r.place.offset (.of source (r.skip spelling.length)) =
      some (.of source (r.skip spelling.length)) := by
  rw [joinNames?, Cursor.slice?, Cursor.source_of, Cursor.place_of, h.slice? front]
  simp only [Cursor.rest?_of (h.skip _), Reader.rest_skip, Option.bind_eq_bind, Option.bind_some]
  rcases stop with other | none
  · rw [other, if_neg Bool.false_ne_true]
    rfl
  · rw [none]
    exact ite_self _

theorem joinNames?_next (h : r.Reads source) {spelling name rest : List Char}
    (front : spelling <+: r.rest)
    (isName : (TokenKind.ofWord (String.ofList spelling)).isName = true)
    (left : r.rest.drop spelling.length = ' ' :: rest)
    (ahead : Piece.nameAhead? rest = some name) :
    joinNames? r.place.offset (.of source (r.skip spelling.length)) =
      joinNames? r.place.offset (.of source (r.skip (spelling ++ ' ' :: name).length)) := by
  have next : ' ' :: name <+: (r.skip spelling.length).rest := by
    rw [Reader.rest_skip, left, List.prefix_cons_inj]
    exact Piece.nameAhead?_front ahead
  conv => lhs; rw [joinNames?, Cursor.slice?, Cursor.source_of, Cursor.place_of, h.slice? front]
  simp only [isName, Cursor.rest?_of (h.skip _), Reader.rest_skip, left, nextName?_space, ahead,
    Cursor.consumeBytes?_of (h.skip _) next, Option.bind_eq_bind, Option.bind_some, Option.map_some,
    if_true]
  rw [dif_pos (Cursor.left_skip_lt (h.skip _) next (List.cons_ne_nil _ _)), ← Reader.skip_add,
    List.length_append]

theorem joinNames?_of (h : r.Reads source) {spelling : List Char} (front : spelling <+: r.rest)
    (isName : (TokenKind.ofWord (String.ofList spelling)).isName = true) :
    joinNames? r.place.offset (.of source (r.skip spelling.length)) =
      some (.of source (r.skip
        (spelling ++ Piece.furtherNames (r.rest.drop spelling.length)).length)) := by
  generalize left : r.rest.drop spelling.length = text
  fun_induction Piece.furtherNames text generalizing spelling with
  | case1 rest name ahead ih =>
      obtain ⟨after, rfl⟩ := Piece.nameAhead?_front ahead
      have whole := List.take_append_drop spelling.length r.rest
      rw [← List.prefix_iff_eq_take.1 front, left] at whole
      have longer : spelling ++ ' ' :: name <+: r.rest := ⟨after, by simp [← whole]⟩
      have joined : (TokenKind.ofWord (String.ofList (spelling ++ ' ' :: name))).isName = true := by
        rw [TokenKind.ofWord_of_space (by simp)]
        rfl
      have others : r.rest.drop (spelling ++ ' ' :: name).length =
          (name ++ after).drop name.length := by
        rw [← whole]
        simp
      rw [joinNames?_next h front isName left ahead, ih longer joined others, List.append_assoc]
  | case2 rest absent =>
      rw [List.append_nil]
      exact joinNames?_stop h front (.inr (by rw [left, nextName?_space, absent]; rfl))
  | case3 text noSpace =>
      have other : text.head? ≠ some ' ' := by
        intro space
        obtain ⟨rest, rfl⟩ := List.head?_eq_some_iff.1 space
        exact noSpace rest rfl
      rw [List.append_nil]
      exact joinNames?_stop h front (.inr (by rw [left, nextName?_of_ne other]))

theorem pastNames?_of (h : r.Reads source) (unread : r.rest = c :: rest) (grouped : Bool) :
    let single := c :: rest.takeWhile continuesName
    pastNames? grouped r.place.offset (.of source (r.skip single.length)) =
      some (.of source (r.skip (Piece.word grouped c rest).text.length)) := by
  intro single
  have front : single <+: r.rest := by
    rw [unread, List.prefix_cons_inj]
    exact takeWhile_front _ _
  have others : r.rest.drop single.length = rest.dropWhile continuesName := by
    rw [unread, List.length_cons, List.drop_succ_cons, drop_length_takeWhile]
  rw [Piece.word]
  cases grouped with
  | false => rfl
  | true =>
      rw [Bool.true_and]
      cases isName : (TokenKind.ofWord (String.ofList single)).isName with
      | false => exact joinNames?_stop h front (.inl isName)
      | true =>
          have joined := joinNames?_of h front isName
          rwa [others] at joined

theorem addWord?_of (h : r.Reads source) (front : text <+: r.rest) :
    (of source (r.skip text.length) found).addWord? r.place =
      some (after source r keepComments found ⟨.word, text⟩) := by
  simp only [addWord?, of, Cursor.slice?, Cursor.source_of, Cursor.place_of, h.slice? front,
    Option.bind_eq_bind, Option.bind_some]
  exact addToken?_piece (p := ⟨.word, text⟩) h front (PlacedPiece.token?_word _ _ _)

theorem scanWord?_of (h : r.Reads source) (unread : r.rest = c :: rest) :
    scanWord? options (of source r found) =
      some (after source r keepComments found
        (.word (options.groupNames && Lookback.ofTokens found.tokens != .afterMarker) c rest)) := by
  generalize grouping : (options.groupNames && Lookback.ofTokens found.tokens != .afterMarker) =
    grouped
  have left : r.next.rest = rest := by rw [Reader.rest_next, unread, List.tail_cons]
  have front := Piece.word_front grouped c rest
  have word : Piece.word grouped c rest = ⟨.word, (Piece.word grouped c rest).text⟩ := by
    rw [Piece.word]
    split <;> rfl
  rw [← unread] at front
  rw [scanWord?, of]
  simp only [Cursor.consume?_of h, Cursor.skipWhile?_of h.next, Option.bind_eq_bind,
    Option.bind_some, Reader.run, left, grouping]
  refine (congrArg (Option.bind · _) (pastNames?_of h unread grouped)).trans ?_
  rw [word]
  exact addWord?_of h front

def opensLineComment? (s : Cursor) (c : Char) : Option Bool :=
  if c = '-' then (s.peekAt? 1).map fun next => decide (next = some '-') else some false

def opensNumber? (s : Cursor) (c : Char) : Option Bool := do
  if c.isDigit then return true
  else if c = '%' then return (← basePrefix? (← s.rest?)).isSome
  else return false

def scanToken? (options : LexOptions) (s : Scanner) : Option Scanner := do
  match ← s.cursor.peek? with
  | none => return s
  | some c =>
    if isBlank c then s.scanBlanks?
    else if ← opensLineComment? s.cursor c then s.scanLineComment? options
    else if c = '!' then s.scanComment? options
    else if c = '?' then s.scanDirective? options
    else if ← opensNumber? s.cursor c then s.scanNumber?
    else if startsName c then s.scanWord? options
    else if c = '"' then s.scanString?
    else s.scanSign? c

def tokenize? (options : LexOptions) (s : Scanner) : Option Lexed := do
  if s.cursor.atEnd then return s.toLexed
  else
    let next ← s.scanToken? options
    if _nearer : next.cursor.left < s.cursor.left then tokenize? options next else none
termination_by s.cursor.left

theorem opensLineComment?_of (h : r.Reads source) (unread : r.rest = c :: rest) :
    opensLineComment? (.of source r) c = some (decide (c = '-' ∧ rest.head? = some '-')) := by
  rw [opensLineComment?, Cursor.peekAt?_of h, Reader.peekAt?, unread, List.getElem?_cons_succ,
    ← List.head?_eq_getElem?]
  by_cases hyphen : c = '-' <;> simp [hyphen]

theorem opensNumber?_of (h : r.Reads source) (unread : r.rest = c :: rest) :
    opensNumber? (.of source r) c = some (decide
      (c.isDigit = true ∨ (c = '%' ∧ (NumeralBase.marked? (c :: rest)).isSome = true))) := by
  rw [opensNumber?, Cursor.rest?_of h, unread]
  simp only [basePrefix?_eq, Option.bind_eq_bind, Option.bind_some, Option.pure_def]
  by_cases digit : c.isDigit = true
  · simp [digit]
  · by_cases percent : c = '%' <;> simp [digit, percent]

theorem scanToken?_of (h : r.Reads source) (unread : r.rest = c :: rest) :
    scanToken? options (of source r found) =
      some (after source r options.keepComments found
        (.read options.groupNames (.ofTokens found.tokens) r.lineRead c rest)) := by
  have peek : (of source r found).cursor.peek? = some (some c) := by
    rw [of, Cursor.peek?_of h, unread]
    rfl
  rw [scanToken?, peek]
  simp only [of, opensLineComment?_of h unread, opensNumber?_of h unread, Option.bind_eq_bind,
    Option.bind_some, decide_eq_true_eq]
  fun_cases Piece.read options.groupNames (.ofTokens found.tokens) r.lineRead c rest with
  | case1 blank =>
      rw [if_pos blank]
      exact unread ▸ scanBlanks?_of h
  | case2 blank hyphens =>
      rw [if_neg blank, if_pos hyphens]
      obtain ⟨rfl, second⟩ := hyphens
      obtain ⟨after, rfl⟩ := List.head?_eq_some_iff.1 second
      exact unread ▸ scanLineComment?_of h unread
  | case3 blank hyphens mark =>
      rw [if_neg blank, if_neg hyphens, if_pos mark]
      exact scanComment?_of h (mark ▸ unread)
  | case4 blank hyphens mark directive =>
      rw [if_neg blank, if_neg hyphens, if_neg mark, if_pos directive]
      subst directive
      exact scanDirective?_of h unread
  | case5 blank hyphens mark directive number =>
      rw [if_neg blank, if_neg hyphens, if_neg mark, if_neg directive, if_pos number]
      exact unread ▸ scanNumber?_of h unread (number.imp_right And.right)
  | case6 blank hyphens mark directive number word =>
      rw [if_neg blank, if_neg hyphens, if_neg mark, if_neg directive, if_neg number, if_pos word]
      exact scanWord?_of h unread
  | case7 blank hyphens mark directive number word string =>
      rw [if_neg blank, if_neg hyphens, if_neg mark, if_neg directive, if_neg number, if_neg word,
        if_pos string]
      exact scanString?_of h (string ▸ unread)
  | case8 blank hyphens mark directive number word string =>
      rw [if_neg blank, if_neg hyphens, if_neg mark, if_neg directive, if_neg number, if_neg word,
        if_neg string]
      exact unread ▸ scanSign?_of h unread

theorem tokenize?_of (h : r.Reads source) (options : LexOptions) (found : Lexed) :
    tokenize? options (of source r found) =
      some ((piecesFrom options.groupNames (.ofTokens found.tokens) r).foldl
        (add options.keepComments) found) := by
  generalize looked : Lookback.ofTokens found.tokens = lookback
  fun_induction piecesFrom options.groupNames lookback r generalizing found with
  | case1 lookback r unread =>
      have atEnd : (of source r found).cursor.atEnd = true := by
        rw [of, Cursor.atEnd_of h, Reader.atEnd, unread, List.isEmpty_nil]
      rw [tokenize?, if_pos atEnd]
      rfl
  | case2 lookback r c rest unread piece ih =>
      subst looked
      have more : (of source r found).cursor.atEnd = false := by
        rw [of, Cursor.atEnd_of h, Reader.atEnd, unread, List.isEmpty_cons]
      have looked := Lookback.ofTokens_piece options.keepComments found.tokens ⟨piece, r.place⟩
      rw [tokenize?, more, if_neg Bool.false_ne_true, scanToken?_of h unread, List.foldl_cons]
      refine (dif_pos ?_).trans (ih (h.skip _) _ looked)
      exact Cursor.left_skip_lt h (unread ▸ Piece.read_text_front _ _ _ c rest)
        (Piece.read_text_ne_nil _ _ _ c rest)

end Scanner

def lex? (source : String) (options : LexOptions) : Option Lexed :=
  Scanner.tokenize? options ⟨⟨[], []⟩, .ofSource source.toList⟩

theorem foldl_add (keepComments : Bool) (pieces : List PlacedPiece) (found : Lexed) :
    pieces.foldl (add keepComments) found =
      ⟨found.tokens ++ pieces.filterMap (PlacedPiece.token? keepComments),
        found.diagnostics ++ pieces.filterMap PlacedPiece.diagnostic?⟩ := by
  induction pieces generalizing found with
  | nil => simp
  | cons p pieces ih =>
      rw [List.foldl_cons, ih, add]
      cases token : p.token? keepComments <;> cases report : p.diagnostic? <;> simp [token, report]

theorem lex?_eq (source : String) (options : LexOptions) :
    lex? source options = some (lex source options) := by
  have run := Scanner.tokenize?_of (Reader.reads_ofText source.toList) options ⟨[], []⟩
  rw [foldl_add, List.nil_append, List.nil_append] at run
  rw [lex?, Cursor.ofSource_eq]
  exact run

end TalAnalysis.Checked
