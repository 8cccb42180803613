import Mathlib.Data.List.Find
import TalAnalysis.Proofs.Lexer.Segment

namespace TalAnalysis
open Text

namespace Text

theorem takeWhile_append_stop {α : Type} {inClass : α → Bool} {c : α} (stop : inClass c = false)
    (text after : List α) : (text ++ c :: after).takeWhile inClass = text.takeWhile inClass := by
  rw [List.takeWhile_append]
  split
  · rename_i whole
    rw [List.takeWhile_cons_of_neg (by simp [stop]), List.append_nil]
    exact ((List.takeWhile_prefix inClass).eq_of_length whole).symm
  · rfl

theorem dropWhile_append_stop {α : Type} {inClass : α → Bool} {c : α} (stop : inClass c = false)
    (text after : List α) :
    (text ++ c :: after).dropWhile inClass = text.dropWhile inClass ++ c :: after := by
  have whole := List.takeWhile_append_dropWhile (p := inClass) (l := text ++ c :: after)
  rw [takeWhile_append_stop stop] at whole
  refine List.append_cancel_left (whole.trans ?_)
  rw [← List.append_assoc, List.takeWhile_append_dropWhile]

theorem head?_append_stop {inClass : Char → Bool} {c : Char} (stop : inClass c = false)
    (text after : List Char) :
    ((text ++ c :: after).head?.map inClass).getD false = (text.head?.map inClass).getD false := by
  cases text <;> simp [stop]

theorem opensWith_append_lineFeed {spelling text : List Char}
    (fits : '\n' ∈ spelling → spelling.length ≤ text.length) (after : List Char) :
    opensWith (text ++ '\n' :: after) spelling = opensWith text spelling := by
  rcases Nat.lt_or_ge text.length spelling.length with short | long
  · have beyond : '\n' ∈ (text ++ '\n' :: after).take spelling.length := by
      obtain ⟨n, size⟩ := Nat.exists_eq_add_of_lt short
      rw [size, Nat.add_assoc, List.take_length_add_append]
      simp
    have left : opensWith (text ++ '\n' :: after) spelling = false := by
      apply Bool.eq_false_iff.2
      intro same
      have := fits (mem_of_sameSpelling same rfl rfl beyond)
      omega
    rw [left, opensWith_of_short short]
  · rw [opensWith, opensWith, List.take_append_of_le_length long]

theorem opensWith_and_append_lineFeed {spelling : List Char} (text : List Char)
    (fits : '\n' ∈ spelling → spelling.length ≤ text.length) {inClass : Char → Bool}
    (stop : inClass '\n' = false) (after : List Char) (ask : Bool → Bool) :
    (opensWith (text ++ '\n' :: after) spelling &&
      ask ((((text ++ '\n' :: after).drop spelling.length).head?.map inClass).getD false)) =
    (opensWith text spelling &&
      ask (((text.drop spelling.length).head?.map inClass).getD false)) := by
  rw [opensWith_append_lineFeed fits]
  rcases Nat.lt_or_ge text.length spelling.length with short | long
  · rw [opensWith_of_short short, Bool.false_and, Bool.false_and]
  · rw [List.drop_append_of_le_length long, head?_append_stop stop]

end Text

theorem NumeralBase.marked?_append_lineFeed (text after : List Char) :
    marked? (text ++ '\n' :: after) = marked? text := by
  have onLine : ∀ listed ∈ marks, '\n' ∉ listed.1.toList := by decide
  rw [marked?, marked?]
  apply List.find?_congr
  rintro ⟨mark, base⟩ member
  have stop : base.isDigit '\n' = false := by cases base <;> rfl
  exact opensWith_and_append_lineFeed text (fun feed => absurd feed (onLine _ member)) stop after id

theorem NumeralSize.marked?_append_lineFeed (base : NumeralBase) (text after : List Char) :
    marked? base (text ++ '\n' :: after) = marked? base text := by
  have onLine : ∀ listed ∈ marks, '\n' ∉ listed.1.toList := by decide
  rw [marked?, marked?]
  apply List.find?_congr
  rintro ⟨mark, size⟩ member
  have stop : continuesName '\n' = false := rfl
  have same := opensWith_and_append_lineFeed text (fun feed => absurd feed (onLine _ member)) stop
    after (!·)
  simp only [Bool.and_assoc]
  exact congrArg (isMarkIn base mark && ·) same

theorem Sign.length_le_of_longest? {text : List Char} {listed : String × Sign}
    (h : longest? text = some listed) : listed.1.length ≤ text.length := by
  apply Nat.le_of_not_lt
  intro short
  have found := (mem_of_longest? h).2
  rw [matchesAt, opensWith_of_short short, Bool.false_and] at found
  cases found

theorem Sign.lineFeed_spellings :
    ∀ listed ∈ spellings, '\n' ∈ listed.1.toList → listed.1 = "\r\n" ∨ listed.1 = "\n" := by
  decide +kernel

theorem Sign.matchesAt_append_lineFeed {text : List Char} {listed : String × Sign}
    (member : listed ∈ spellings) (some : text ≠ []) (noReturn : text ≠ ['\r'])
    (after : List Char) : matchesAt (text ++ '\n' :: after) listed.1 = matchesAt text listed.1 := by
  have same (fits : '\n' ∈ listed.1.toList → listed.1.toList.length ≤ text.length) :
      matchesAt (text ++ '\n' :: after) listed.1 = matchesAt text listed.1 := by
    have stop : continuesName '\n' = false := rfl
    exact opensWith_and_append_lineFeed text fits stop after
      fun goesOn => !((listed.1.toList.getLast?.map Char.isAlpha).getD false && goesOn)
  cases text with
  | nil => exact absurd rfl some
  | cons c rest =>
      by_cases feed : '\n' ∈ listed.1.toList
      · rcases lineFeed_spellings listed member feed with pair | alone
        · cases rest with
          | cons d rest => exact same fun _ => by simp [pair]
          | nil =>
              have other : c.toLower ≠ '\r' := by
                intro lower
                exact noReturn (congrArg (· :: []) (eq_of_toLower_eq rfl lower))
              rw [pair, matchesAt, matchesAt]
              simp [opensWith, sameSpelling, foldCase, other]
        · exact same fun _ => by simp [alone]
      · exact same fun here => absurd here feed

theorem Sign.longest?_append_lineFeed {text : List Char} (some : text ≠ [])
    (noReturn : text ≠ ['\r']) (after : List Char) :
    longest? (text ++ '\n' :: after) = longest? text := by
  rw [longest?, longest?]
  congr 1
  apply List.filter_congr
  intro listed member
  exact matchesAt_append_lineFeed member some noReturn after

namespace Piece

theorem blanks_append_lineFeed (text after : List Char) :
    blanks (text ++ '\n' :: after) = blanks text := by
  rw [blanks, blanks, takeWhile_append_stop rfl]

theorem comment_append_lineFeed (text after : List Char) :
    comment (text ++ '\n' :: after) = comment text := by
  let inComment (c : Char) := c != '!' && !isLineBreak c
  have stop : inComment '\n' = false := rfl
  have closing : ((text ++ '\n' :: after).dropWhile inComment).head? = some '!' ↔
      (text.dropWhile inComment).head? = some '!' := by
    rw [dropWhile_append_stop stop]
    cases text.dropWhile inComment <;> simp
  simp only [comment, drop_length_takeWhile]
  rw [takeWhile_append_stop stop]
  exact if_congr closing rfl rfl

theorem lineEnd_append_lineFeed {text : List Char} (some : text ≠ []) (noReturn : text ≠ ['\r'])
    (after : List Char) : lineEnd (text ++ '\n' :: after) = lineEnd text := by
  cases text with
  | nil => exact absurd rfl some
  | cons c rest =>
      cases rest with
      | cons d rest => by_cases pair : c = '\r' ∧ d = '\n' <;> simp_all [lineEnd]
      | nil =>
          have other : c ≠ '\r' := fun same => noReturn (congrArg (· :: []) same)
          simp [lineEnd, other]

theorem lineComment_append_lineFeed {text : List Char} (ended : ∃ c ∈ text, isLineBreak c = true)
    (noReturn : text.getLast? ≠ some '\r') (after : List Char) :
    lineComment (text ++ '\n' :: after) = lineComment text := by
  let onLine (c : Char) := !isLineBreak c
  have stop : onLine '\n' = false := rfl
  obtain ⟨c, member, breaks⟩ := ended
  have some : text.dropWhile onLine ≠ [] := by
    intro none
    have := List.dropWhile_eq_nil_iff.1 none c member
    simp [onLine, breaks] at this
  have other : text.dropWhile onLine ≠ ['\r'] := by
    intro same
    rw [← List.takeWhile_append_dropWhile (p := onLine) (l := text), same] at noReturn
    simp at noReturn
  simp only [lineComment, drop_length_takeWhile]
  rw [takeWhile_append_stop stop, dropWhile_append_stop stop, lineEnd_append_lineFeed some other]

theorem string_append {text : List Char} (closed : '"' ∈ text) (after : List Char) :
    string (text ++ after) = string text := by
  have proper : (text.takeWhile (· != '"')).length < text.length := by
    apply Nat.lt_of_not_le
    intro whole
    have all := (List.takeWhile_prefix (· != '"')).eq_of_length_le whole
    rw [← all] at closed
    simpa using List.mem_takeWhile_imp closed
  have front : (text ++ after).takeWhile (· != '"') = text.takeWhile (· != '"') := by
    rw [List.takeWhile_append, if_neg (Nat.ne_of_lt proper)]
  simp only [string, front, List.length_append]
  rw [if_pos proper, if_pos (Nat.lt_add_right _ proper)]

theorem string_of_open {text : List Char} (open_ : '"' ∉ text) :
    string text = ⟨.string text false, '"' :: text⟩ := by
  have whole : text.takeWhile (· != '"') = text := by
    apply List.takeWhile_eq_self_iff.2
    intro c member
    simpa using ne_of_mem_of_not_mem member open_
  simp only [string, whole, Nat.lt_irrefl, if_false]

theorem NumeralParts.append_lineFeed {base : NumeralBase} {mark digits size after : List Char}
    (parts : NumeralParts base mark digits size after) (more : List Char) :
    NumeralParts base mark digits size (after ++ '\n' :: more) where
  marked := by
    obtain ⟨name, length, marked⟩ := parts.marked
    rw [← NumeralBase.marked?_append_lineFeed _ more] at marked
    simp only [List.append_assoc] at marked
    exact ⟨name, length, marked⟩
  inBase := parts.inBase
  stop := by
    have stop : base.isDigit '\n' = false := by cases base <;> rfl
    rw [← List.append_assoc, stopsBefore_iff, head?_append_stop stop, ← stopsBefore_iff]
    exact parts.stop
  sized := by rw [← List.append_assoc, NumeralSize.marked?_append_lineFeed, parts.sized]

theorem numeral_append_lineFeed (text after : List Char) :
    numeral (text ++ '\n' :: after) = numeral text := by
  obtain ⟨base, mark, digits, size, rest, rfl, parts⟩ := exists_numeralParts text
  rw [parts.numeral_eq, ← (parts.append_lineFeed after).numeral_eq]
  simp only [List.append_assoc]

theorem nameAhead?_append_lineFeed (text after : List Char) :
    nameAhead? (text ++ '\n' :: after) = nameAhead? text := by
  simp only [nameAhead?]
  rw [takeWhile_append_stop rfl, head?_append_stop rfl]

theorem furtherNames_append_lineFeed (text after : List Char) :
    furtherNames (text ++ '\n' :: after) = furtherNames text := by
  fun_induction furtherNames text with
  | case1 rest name ahead ih =>
      have front := (nameAhead?_front ahead).length_le
      rw [List.cons_append, furtherNames, nameAhead?_append_lineFeed, ahead]
      simp only
      rw [List.drop_append_of_le_length front, ih]
  | case2 rest ahead =>
      rw [List.cons_append, furtherNames, nameAhead?_append_lineFeed, ahead]
  | case3 text noSpace =>
      cases text with
      | nil => rw [List.nil_append, furtherNames]; simp
      | cons c rest =>
          rw [List.cons_append, furtherNames]
          intro tail same
          rw [(List.cons.inj same).1] at noSpace
          exact noSpace rest rfl

theorem word_append_lineFeed (grouped : Bool) (c : Char) (rest after : List Char) :
    word grouped c (rest ++ '\n' :: after) = word grouped c rest := by
  simp only [word]
  rw [takeWhile_append_stop rfl, dropWhile_append_stop rfl, furtherNames_append_lineFeed]

theorem sign?_append_lineFeed (lookback : Lookback) {text : List Char} (some : text ≠ [])
    (noReturn : text ≠ ['\r']) (after : List Char) :
    sign? lookback (text ++ '\n' :: after) = sign? lookback text := by
  rw [sign?, sign?, Sign.longest?_append_lineFeed some noReturn]
  cases found : Sign.longest? text with
  | none => rfl
  | some listed =>
      simp only [Option.map_some, List.take_append_of_le_length (Sign.length_le_of_longest? found)]

theorem read_append_lineFeed {groupNames : Bool} {lookback : Lookback} {lineRead : List Char}
    {c : Char} {rest : List Char} (noReturn : (c :: rest).getLast? ≠ some '\r')
    (closed : ∀ contents,
      (read groupNames lookback lineRead c rest).lexeme ≠ .string contents false)
    (ended : (read groupNames lookback lineRead c rest).lexeme = .lineComment →
      ∃ d ∈ c :: rest, isLineBreak d = true) (after : List Char) :
    read groupNames lookback lineRead c (rest ++ '\n' :: after) =
      read groupNames lookback lineRead c rest := by
  have hyphen : (rest ++ '\n' :: after).head? = some '-' ↔ rest.head? = some '-' := by
    cases rest <;> simp
  have marked := NumeralBase.marked?_append_lineFeed (c :: rest) after
  have noReturn' : c :: rest ≠ ['\r'] := by
    intro same
    simp [same] at noReturn
  have more : c :: (rest ++ '\n' :: after) = (c :: rest) ++ '\n' :: after := rfl
  simp only [more, read, hyphen, marked, blanks_append_lineFeed, comment_append_lineFeed,
    numeral_append_lineFeed, word_append_lineFeed,
    sign?_append_lineFeed lookback (List.cons_ne_nil c rest) noReturn']
  split_ifs with blank hyphens
  all_goals try rfl
  · have found : read groupNames lookback lineRead c rest = lineComment (c :: rest) := by
      rw [read, if_neg blank, if_pos hyphens]
    exact lineComment_append_lineFeed (ended (found ▸ rfl)) noReturn after
  · rename_i comment directive digit opens mark
    have found : read groupNames lookback lineRead c rest = string rest := by
      rw [read, if_neg blank, if_neg hyphens, if_neg comment, if_neg directive, if_neg digit,
        if_neg opens, if_pos mark]
    apply string_append
    by_contra open_
    apply closed rest
    rw [found, string_of_open open_]

end Piece
end TalAnalysis
