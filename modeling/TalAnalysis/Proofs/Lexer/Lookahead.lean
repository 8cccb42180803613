import Mathlib.Data.List.Basic
import TalAnalysis.Proofs.Lexer.BeforeLineFeed
import TalAnalysis.Proofs.Lexer.Name
import TalAnalysis.Proofs.Text.Case

namespace TalAnalysis
open Text

def SpaceOrEnd (text : List Char) : Prop := ∀ c ∈ text.head?, c = ' '

theorem spaceOrEnd_nil : SpaceOrEnd [] := by
  intro c first
  cases first

theorem SpaceOrEnd.stopsBefore {text : List Char} (gap : SpaceOrEnd text) {inClass : Char → Bool}
    (space : inClass ' ' = false) : StopsBefore inClass text :=
  fun c first => gap c first ▸ space

theorem StopsBefore.tail {inClass : Char → Bool} {front back back' : List Char}
    (stop : StopsBefore inClass (front ++ back)) (gap : SpaceOrEnd back')
    (space : inClass ' ' = false) : StopsBefore inClass (front ++ back') := by
  cases front with
  | nil => exact gap.stopsBefore space
  | cons c front => exact stop

namespace Text

theorem isAlpha_ignoresCase : IgnoresCase Char.isAlpha := ignoresCase_of_capitals (by decide)

theorem isAlpha_of_foldCase_eq {a b : List Char} (same : foldCase a = foldCase b)
    (letters : ∀ c ∈ b, c.isAlpha = true) : ∀ c ∈ a, c.isAlpha = true := by
  intro c member
  have folded : c.toLower ∈ foldCase b := same ▸ List.mem_map_of_mem member
  obtain ⟨d, listed, lower⟩ := List.mem_map.1 folded
  rw [← isAlpha_ignoresCase, ← lower, isAlpha_ignoresCase]
  exact letters d listed

theorem continuesName_of_isAlpha {c : Char} (letter : c.isAlpha = true) :
    startsName c = true ∧ continuesName c = true := by
  simp [startsName, continuesName, Char.isAlphanum, letter]

/-! ## Spellings -/

variable {front back back' text spelling : List Char}

theorem opensWith_append_of_le (fits : spelling.length ≤ text.length) (after : List Char) :
    opensWith (text ++ after) spelling = opensWith text spelling := by
  rw [opensWith, opensWith, List.take_append_of_le_length fits]

theorem opensWith_tail (gap : SpaceOrEnd back') (noSpace : ' ' ∉ spelling)
    (long : text.length < spelling.length) : opensWith (text ++ back') spelling = false := by
  cases back' with
  | nil => rw [List.append_nil, opensWith_of_short long]
  | cons c after =>
      obtain rfl := gap c rfl
      apply Bool.eq_false_iff.2
      intro same
      -- A spelling that runs on over the gap would have its space.
      obtain ⟨n, size⟩ := Nat.exists_eq_add_of_lt long
      have beyond : ' ' ∈ (text ++ ' ' :: after).take spelling.length := by
        rw [size, Nat.add_assoc, List.take_length_add_append]
        simp
      exact noSpace (mem_of_sameSpelling same rfl rfl beyond)

theorem head?_of_opensWith (some : spelling ≠ []) (opens : opensWith text spelling = true) :
    text.head?.map Char.toLower = spelling.head?.map Char.toLower := by
  have folded := congrArg List.head? (sameSpelling_iff.1 opens)
  rwa [foldCase, foldCase, List.head?_map, List.head?_map, List.head?_take,
    if_neg (by simpa using some)] at folded

def matchesWord (whole : Bool) (text spelling : List Char) : Bool :=
  opensWith text spelling &&
    !(whole && ((text.drop spelling.length).head?.map continuesName).getD false)

theorem opensWith_of_matchesWord {whole : Bool} (matched : matchesWord whole text spelling = true) :
    opensWith text spelling = true :=
  (Bool.and_eq_true_iff.1 matched).1

theorem stopsBefore_of_matchesWord (matched : matchesWord true (text ++ back) spelling = true)
    (size : spelling.length = text.length) : StopsBefore continuesName back := by
  rw [matchesWord, Bool.and_eq_true, Bool.true_and, Bool.not_eq_true', size,
    List.drop_left] at matched
  exact stopsBefore_iff.2 matched.2

/-- Whether the spelling opens `text` does not depend on what of `back` a gap would cut off. -/
structure Settled (whole : Bool) (text back spelling : List Char) : Prop where
  longer : text.length < spelling.length → matchesWord whole (text ++ back) spelling = false
  ends : spelling.length = text.length → opensWith text spelling = true → whole = true →
    StopsBefore continuesName back

theorem Settled.tail {whole : Bool} (h : Settled whole text back spelling)
    (gap : SpaceOrEnd back') (noSpace : ' ' ∉ spelling) :
    matchesWord whole (text ++ back') spelling = matchesWord whole (text ++ back) spelling := by
  rcases Nat.lt_trichotomy text.length spelling.length with long | same | short
  · rw [h.longer long, matchesWord, opensWith_tail gap noSpace long, Bool.false_and]
  · rw [matchesWord, matchesWord, opensWith_append_of_le same.symm.le,
      opensWith_append_of_le same.symm.le, ← same, List.drop_left, List.drop_left]
    cases spelled : opensWith text spelling with
    | false => rfl
    | true =>
        cases whole with
        | false => rfl
        | true =>
            rw [stopsBefore_iff.1 (gap.stopsBefore rfl),
              stopsBefore_iff.1 (h.ends same.symm spelled rfl)]
  · rw [matchesWord, matchesWord, opensWith_append_of_le short.le, opensWith_append_of_le short.le,
      List.drop_append_of_le_length short.le, List.drop_append_of_le_length short.le]
    cases left : text.drop spelling.length with
    | nil =>
        rw [List.drop_eq_nil_iff] at left
        omega
    | cons c rest => rfl

theorem foldCase_eq_of_opensWith (spelled : opensWith text spelling = true)
    (size : spelling.length = text.length) : foldCase text = foldCase spelling := by
  rw [opensWith, size, List.take_length] at spelled
  exact sameSpelling_iff.1 spelled

def endsInLetter (spelling : List Char) : Bool :=
  (spelling.getLast?.map Char.isAlpha).getD false

theorem endsInLetter_of_foldCase_eq {a b : List Char} (same : foldCase a = foldCase b) :
    endsInLetter a = endsInLetter b := by
  have fold (text : List Char) : endsInLetter text = endsInLetter (foldCase text) := by
    rw [endsInLetter, endsInLetter, foldCase, List.getLast?_map, Option.map_map]
    congr 2
    funext c
    exact (isAlpha_ignoresCase c).symm
  rw [fold a, fold b, same]

end Text

/-! ## Tokens that touch -/

def Piece.IsToken (p : Piece) : Prop := ∃ kind, p.kind? = some kind ∧ kind.isComment = false

/-- The text that goes on with `back` opens with a token that lies within `front`, unless that is
empty. -/
def TokenNext (front back : List Char) : Prop :=
  front = [] ∨ ∃ lookback lineRead c rest, front ++ back = c :: rest ∧
    (Piece.read false lookback lineRead c rest).IsToken ∧
      (Piece.read false lookback lineRead c rest).text <+: front

variable {front back back' : List Char}

theorem TokenNext.stopsBefore (next : TokenNext front back) (some : front ≠ [])
    (letters : ∀ c ∈ front, c.isAlpha = true) : StopsBefore continuesName back := by
  rcases next with empty | ⟨lookback, lineRead, c, rest, whole, -, within⟩
  · exact absurd empty some
  · cases front with
    | nil => exact absurd rfl some
    | cons d name =>
        obtain ⟨rfl, rfl⟩ := List.cons.inj whole
        obtain ⟨opens, -⟩ := continuesName_of_isAlpha (letters d List.mem_cons_self)
        rw [Piece.read_of_startsName opens, Bool.false_and, Piece.word_alone] at within
        have inName : ∀ x ∈ name, continuesName x = true := fun x member =>
          (continuesName_of_isAlpha (letters x (List.mem_cons_of_mem d member))).2
        have size : (d :: (name ++ back).takeWhile continuesName).length ≤ (d :: name).length :=
          within.length_le
        rw [List.takeWhile_append_of_pos inName, List.length_cons, List.length_cons,
          List.length_append] at size
        intro x first
        obtain ⟨after, rfl⟩ := List.head?_eq_some_iff.1 first
        by_contra goesOn
        rw [List.takeWhile_cons_of_pos (by simpa using goesOn), List.length_cons] at size
        omega

/-! ## Signs -/

theorem Sign.noSpace_spellings : ∀ listed ∈ spellings, ' ' ∉ listed.1.toList := by
  decide +kernel

theorem Sign.noPercent_spellings : ∀ listed ∈ spellings, '%' ∉ listed.1.toList := by
  decide +kernel

theorem Sign.isAlpha_of_spelling : ∀ listed ∈ spellings, endsInLetter listed.1.toList = true →
    listed.1.toList.tail.all Char.isAlpha = true := by
  decide +kernel

theorem Sign.matchesAt_eq (text : List Char) (spelling : String) :
    matchesAt text spelling =
      matchesWord (endsInLetter spelling.toList) text spelling.toList := rfl

theorem Sign.isAlpha_of_opensWith {listed : String × Sign} {text : List Char}
    (member : listed ∈ spellings) (letter : endsInLetter listed.1.toList = true)
    (some : text ≠ []) (opens : opensWith (text ++ front) listed.1.toList = true)
    (whole : listed.1.toList.length = (text ++ front).length) :
    ∀ c ∈ front, c.isAlpha = true := by
  obtain ⟨x, rest, rfl⟩ := List.exists_cons_of_ne_nil some
  have folded := foldCase_eq_of_opensWith opens whole
  have letters := List.all_eq_true.1 (isAlpha_of_spelling _ member letter)
  cases cut : listed.1.toList with
  | nil => simp [cut] at whole
  | cons y others =>
      rw [cut] at folded letters
      intro c inFront
      exact isAlpha_of_foldCase_eq (List.cons.inj folded).2 letters c
        (List.mem_append_right rest inFront)

theorem Sign.settled_of_longest? {text : List Char} {found listed : String × Sign}
    (longest : longest? (text ++ (front ++ back)) = some found)
    (size : found.1.length = text.length) (next : TokenNext front back)
    (member : listed ∈ spellings) :
    Settled (endsInLetter listed.1.toList) (text ++ front) back listed.1.toList where
  longer long := by
    apply Bool.eq_false_iff.2
    intro matched
    rw [← matchesAt_eq, List.append_assoc] at matched
    have shorter : listed.1.toList.length ≤ found.1.length :=
      length_le_longest? longest member matched
    rw [List.length_append] at long
    omega
  ends whole opens letter := by
    obtain ⟨member', spelled⟩ := mem_of_longest? longest
    rw [matchesAt_eq] at spelled
    by_cases empty : front = []
    · -- The sign that was read has this spelling, so its word ends here.
      subst empty
      rw [List.append_nil] at whole opens
      have opens' := opensWith_of_matchesWord spelled
      rw [opensWith_append_of_le (Nat.le_of_eq size)] at opens'
      have folded := (foldCase_eq_of_opensWith opens' size).symm.trans
        (foldCase_eq_of_opensWith opens whole)
      rw [endsInLetter_of_foldCase_eq folded, letter] at spelled
      exact stopsBefore_of_matchesWord spelled size
    · refine next.stopsBefore empty (isAlpha_of_opensWith member letter ?_ opens whole)
      rintro rfl
      have := length_pos_of_mem_spellings member'
      rw [size] at this
      exact absurd this (Nat.lt_irrefl 0)

theorem Sign.longest?_tail {text : List Char} {found : String × Sign}
    (longest : longest? (text ++ (front ++ back)) = some found)
    (size : found.1.length = text.length) (next : TokenNext front back) (gap : SpaceOrEnd back') :
    longest? (text ++ (front ++ back')) = some found := by
  rw [← longest, longest?, longest?]
  congr 1
  apply List.filter_congr
  intro listed member
  change matchesAt _ listed.1 = matchesAt _ listed.1
  rw [← List.append_assoc, ← List.append_assoc, matchesAt_eq, matchesAt_eq]
  exact (settled_of_longest? longest size next member).tail gap (noSpace_spellings _ member)

/-! ## Numerals -/

theorem NumeralBase.marked?_of_ne {c : Char} (other : c ≠ '%') (rest : List Char) :
    marked? (c :: rest) = none := by
  have percent : ∀ listed ∈ marks, '%' ∈ listed.1.toList.head? := by decide
  apply List.find?_eq_none.2
  rintro ⟨mark, base⟩ listed opens
  have first := head?_of_opensWith (by
    rintro empty
    simpa [empty] using percent _ listed) (Bool.and_eq_true_iff.1 opens).1
  rw [Option.mem_def.1 (percent _ listed)] at first
  exact other (eq_of_toLower_eq rfl (Option.some.inj first))

theorem Text.not_isBlank_of_isDigit {c : Char} (digit : c.isDigit = true) : isBlank c = false := by
  apply Bool.eq_false_iff.2
  intro blank
  simp only [isBlank, Bool.or_eq_true, beq_iff_eq] at blank
  rcases blank with (rfl | rfl) | rfl <;> exact absurd digit (by decide)

theorem Piece.read_numeral {groupNames : Bool} {lookback : Lookback} {lineRead : List Char}
    {c : Char} {rest : List Char}
    (opens : c.isDigit = true ∨ (NumeralBase.marked? (c :: rest)).isSome = true) :
    read groupNames lookback lineRead c rest = numeral (c :: rest) := by
  have first : c.isDigit = true ∨ c = '%' := by
    refine opens.imp_right fun marked => ?_
    by_contra other
    rw [NumeralBase.marked?_of_ne other] at marked
    cases marked
  have blank : isBlank c = false := by
    rcases first with digit | rfl
    · exact not_isBlank_of_isDigit digit
    · rfl
  have other (d : Char) (noDigit : d.isDigit = false) (noMark : d ≠ '%') : c ≠ d := by
    rintro rfl
    rcases first with digit | mark
    · rw [noDigit] at digit
      cases digit
    · exact noMark mark
  have number : c.isDigit = true ∨
      c = '%' ∧ (NumeralBase.marked? (c :: rest)).isSome = true := by
    rcases first with digit | mark
    · exact .inl digit
    · exact opens.imp_right fun marked => ⟨mark, marked⟩
  rw [read, if_neg (by simp [blank]), if_neg fun hyphens => other '-' rfl (by decide) hyphens.1,
    if_neg (other '!' rfl (by decide)), if_neg (other '?' rfl (by decide)), if_pos number]

theorem not_octal_of_isAlpha {c : Char} (letter : c.isAlpha = true) :
    NumeralBase.octal.isDigit c = false := by
  have noDigit := not_isDigit_of_startsName (continuesName_of_isAlpha letter).1
  have great : ¬ c.toLower.toNat - 'a'.toNat + 10 < 8 := by omega
  rw [NumeralBase.isDigit, isDigitIn, digitValue, if_neg (by simp [noDigit]),
    Bool.and_eq_false_iff]
  exact .inr (decide_eq_false great)

theorem NumeralBase.not_opensWith_letter {d letter : Char}
    (octal : NumeralBase.octal.isDigit d = true) (h : letter.isAlpha = true) (rest : List Char) :
    opensWith ('%' :: d :: rest) ['%', letter] = false := by
  apply Bool.eq_false_iff.2
  intro same
  have folded : foldCase [d] = foldCase [letter] := (List.cons.inj (sameSpelling_iff.1 same)).2
  have : d.isAlpha = true :=
    isAlpha_of_foldCase_eq folded (by simpa using h) d List.mem_cons_self
  rw [not_octal_of_isAlpha this] at octal
  cases octal

theorem NumeralBase.marked?_octal {d : Char} (octal : NumeralBase.octal.isDigit d = true)
    (rest : List Char) : marked? ('%' :: d :: rest) = some ("%", .octal) := by
  have other (letter : Char) (h : letter.isAlpha = true) :=
    not_opensWith_letter octal h rest
  have mark : opensWith ('%' :: d :: rest) "%".toList = true := rfl
  simp only [marked?, marks]
  rw [List.find?_cons_of_neg (by simp [other 'B' rfl]),
    List.find?_cons_of_neg (by simp [other 'H' rfl]),
    List.find?_cons_of_neg (by simp [other 'D' rfl]), List.find?_cons_of_pos]
  rw [mark]
  exact octal

theorem exists_cons_of_front {c : Char} {rest : List Char} (within : text <+: c :: rest)
    (some : text ≠ []) : ∃ others, text = c :: others := by
  rcases List.prefix_cons_iff.1 within with empty | ⟨others, opens, -⟩
  · exact absurd empty some
  · exact ⟨others, opens⟩

theorem Segment.of_percent {p : Piece} {rest after : List Char} (token : p.IsToken)
    (segment : Segment false p.lexeme p.text after) (opens : p.text = '%' :: rest) :
    3 ≤ p.text.length ∨ ∃ d others, rest = d :: others ∧ NumeralBase.octal.isDigit d = true := by
  obtain ⟨kind, found, noComment⟩ := token
  obtain ⟨lexeme, text⟩ := p
  simp only at segment opens ⊢
  cases segment with
  | blanks | unknown => cases found
  | word starts =>
      obtain rfl := (List.cons.inj opens).1
      exact absurd starts (by decide)
  | sign some spelled =>
      obtain ⟨listed, member, same, -⟩ := spelled
      have here : '%' ∈ text := opens ▸ List.mem_cons_self
      exact absurd (mem_of_sameSpelling same rfl rfl here) (Sign.noPercent_spellings _ member)
  | @number base mark digits size after marked some inBase =>
      obtain ⟨d, others, rfl⟩ := List.exists_cons_of_ne_nil some
      have digit := inBase d List.mem_cons_self
      rcases marked with ⟨rfl, rfl⟩ | ⟨listed, member, rfl, same⟩
      · obtain rfl := (List.cons.inj opens).1
        exact absurd digit (by decide)
      · have long : ∀ listed ∈ NumeralBase.marks,
            listed.1.toList.length = 2 ∨ listed.2 = .octal ∧ listed.1.toList.length = 1 := by decide
        -- Every mark but the octal one goes on with a letter.
        rcases long listed member with two | ⟨octal, one⟩
        · left
          rw [← length_eq_of_sameSpelling same] at two
          simp [two]
          omega
        · right
          rw [← length_eq_of_sameSpelling same] at one
          obtain ⟨m, rfl⟩ := List.length_eq_one_iff.1 one
          exact ⟨d, others ++ size, (List.cons.inj opens).2.symm, octal ▸ digit⟩
  | lineComment | closedComment | openComment | directive | closedString | openString =>
      cases (List.cons.inj opens).1

theorem NumeralBase.marked?_append (long : 3 ≤ text.length) (x y : List Char) :
    marked? (text ++ x) = marked? (text ++ y) := by
  have short : ∀ listed ∈ marks, listed.1.toList.length < 3 := by decide
  apply List.find?_congr
  rintro ⟨mark, base⟩ listed
  have fits : mark.toList.length < text.length := Nat.lt_of_lt_of_le (short _ listed) long
  have head (after : List Char) :
      ((text ++ after).drop mark.toList.length).head? = (text.drop mark.toList.length).head? := by
    rw [List.drop_append_of_le_length fits.le, List.head?_append,
      List.head?_eq_some_head (by simpa using fits), Option.some_or]
  simp only [opensWith_append_of_le fits.le]
  exact congrArg (fun c => _ && (Option.map base.isDigit c).getD false)
    ((head x).trans (head y).symm)

theorem NumeralSize.length_eq_of_opensWith {a b : String × NumeralSize} (listed : a ∈ marks)
    (listed' : b ∈ marks) (opens : opensWith text a.1.toList = true)
    (opens' : opensWith text b.1.toList = true) : a.1.length = b.1.length := by
  have apart : ∀ a ∈ marks, ∀ b ∈ marks, a.1.toList ≠ [] ∧ b.1.toList ≠ [] ∧
      (a.1.toList.head?.map Char.toLower = b.1.toList.head?.map Char.toLower →
        a.1.length = b.1.length) := by
    decide
  obtain ⟨some, some', same⟩ := apart a listed b listed'
  exact same ((head?_of_opensWith some opens).symm.trans (head?_of_opensWith some' opens'))

theorem TokenNext.not_isAlpha_of_percent {d : Char} (next : TokenNext ['%', d] back) :
    d.isAlpha = false := by
  apply Bool.eq_false_iff.2
  intro letter
  rcases next with empty | ⟨lookback, lineRead, c, rest, whole, token, within⟩
  · cases empty
  · obtain ⟨rfl, rfl⟩ := List.cons.inj whole
    change (Piece.read false lookback lineRead '%' (d :: back)).text <+: _ at within
    obtain ⟨after, cut, segment⟩ := Piece.read_segment false lookback lineRead '%' (d :: back)
    obtain ⟨others, opens⟩ := exists_cons_of_front within segment.text_ne_nil
    rcases segment.of_percent token opens with long | ⟨e, others, rfl, octal⟩
    · exact absurd (Nat.le_trans long within.length_le) (by simp)
    · rw [opens, List.prefix_cons_inj, List.prefix_cons_iff] at within
      rcases within with empty | ⟨others', same, -⟩
      · cases empty
      · obtain rfl := (List.cons.inj same).1
        rw [not_octal_of_isAlpha letter] at octal
        cases octal

theorem TokenNext.isAlpha_of_sizeMark (next : TokenNext front back)
    {listed : String × NumeralSize} (member : listed ∈ NumeralSize.marks)
    (spelled : foldCase front = foldCase listed.1.toList) : ∀ c ∈ front, c.isAlpha = true := by
  -- The marks are letters, some of them after a `%`, which opens a numeral only before a digit.
  have forms : ∀ listed ∈ NumeralSize.marks, listed.1.toList.all Char.isAlpha = true ∨
      listed.1.toList.length = 2 ∧ listed.1.toList.head? = some '%' ∧
        listed.1.toList.tail.all Char.isAlpha = true := by
    decide
  rcases forms listed member with letters | ⟨two, percent, letters⟩
  · exact isAlpha_of_foldCase_eq spelled (List.all_eq_true.1 letters)
  · obtain ⟨mark, letter, form⟩ := List.length_eq_two.1 two
    obtain ⟨c, d, rfl⟩ : ∃ c d, front = [c, d] := by
      apply List.length_eq_two.1
      rw [← two]
      simpa [foldCase] using congrArg List.length spelled
    rw [form] at spelled percent letters
    obtain rfl := Option.some.inj percent
    obtain rfl : c = '%' := eq_of_toLower_eq rfl (List.cons.inj spelled).1
    have isLetter : d.isAlpha = true :=
      isAlpha_of_foldCase_eq (List.cons.inj spelled).2 (List.all_eq_true.1 letters) d
        List.mem_cons_self
    rw [next.not_isAlpha_of_percent] at isLetter
    cases isLetter

theorem NumeralSize.marked?_eq (base : NumeralBase) (text : List Char) :
    marked? base text = marks.find? fun listed =>
      isMarkIn base listed.1 && matchesWord true text listed.1.toList := by
  rw [marked?]
  congr 1
  funext listed
  exact Bool.and_assoc _ _ _

theorem NumeralSize.marked?_cases (base : NumeralBase) (text : List Char) :
    (marked? base text = none ∧ ∀ listed ∈ marks, isMarkIn base listed.1 = true →
      matchesWord true text listed.1.toList = false) ∨
    ∃ found ∈ marks, marked? base text = some found ∧
      matchesWord true text found.1.toList = true := by
  cases found : marked? base text with
  | none =>
      left
      rw [marked?_eq] at found
      refine ⟨rfl, fun listed member inBase => ?_⟩
      simpa [inBase] using List.find?_eq_none.1 found listed member
  | some listed =>
      right
      rw [marked?_eq] at found
      have matched := List.find?_some found
      simp only [Bool.and_eq_true] at matched
      exact ⟨listed, List.mem_of_find?_eq_some found, rfl, matched.2⟩

theorem NumeralSize.settled_of_marked? {base : NumeralBase} {listed : String × NumeralSize}
    (size : ((marked? base (text ++ (front ++ back))).map (·.1.length)).getD 0 = text.length)
    (next : TokenNext front back) (member : listed ∈ marks)
    (inBase : isMarkIn base listed.1 = true) :
    Settled true (text ++ front) back listed.1.toList := by
  have positive : ∀ listed ∈ marks, 0 < listed.1.toList.length := by decide
  rcases marked?_cases base (text ++ (front ++ back)) with
    ⟨none, other⟩ | ⟨found, member', eq, matched⟩
  · -- There is no mark in the text, and none in what touches it.
    rw [none] at size
    obtain rfl := List.length_eq_zero_iff.1 size.symm
    refine ⟨fun _ => other listed member inBase, fun whole opens _ => ?_⟩
    refine next.stopsBefore ?_
      (next.isAlpha_of_sizeMark member (foldCase_eq_of_opensWith opens whole))
    rintro rfl
    have := positive listed member
    rw [whole] at this
    exact absurd this (Nat.lt_irrefl 0)
  · -- The mark in the text is as long as any other that opens it.
    rw [eq] at size
    have length : found.1.toList.length = text.length := size
    have same (opens : opensWith (text ++ (front ++ back)) listed.1.toList = true) :
        listed.1.toList.length = text.length :=
      (length_eq_of_opensWith member member' opens (opensWith_of_matchesWord matched)).trans size
    constructor
    · intro long
      apply Bool.eq_false_iff.2
      intro reaches
      rw [List.append_assoc] at reaches
      have := same (opensWith_of_matchesWord reaches)
      rw [List.length_append] at long
      omega
    · intro whole opens _
      have reaches := same (by rw [← List.append_assoc, opensWith_append_of_le whole.le, opens])
      rw [reaches, List.length_append, Nat.left_eq_add, List.length_eq_zero_iff] at whole
      subst whole
      exact stopsBefore_of_matchesWord matched length

theorem NumeralSize.marked?_tail {base : NumeralBase}
    (size : ((marked? base (text ++ (front ++ back))).map (·.1.length)).getD 0 = text.length)
    (next : TokenNext front back) (gap : SpaceOrEnd back') :
    marked? base (text ++ (front ++ back')) = marked? base (text ++ (front ++ back)) := by
  have noSpace : ∀ listed ∈ marks, ' ' ∉ listed.1.toList := by decide
  rw [marked?_eq, marked?_eq, ← List.append_assoc, ← List.append_assoc]
  apply List.find?_congr
  intro listed member
  cases inBase : isMarkIn base listed.1 with
  | false => rfl
  | true =>
      rw [(settled_of_marked? size next member inBase).tail gap (noSpace listed member)]

end TalAnalysis
