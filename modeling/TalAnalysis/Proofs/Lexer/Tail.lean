import TalAnalysis.Proofs.Lexer.Lookahead

namespace TalAnalysis
open Text

variable {front back back' text : List Char}

theorem Piece.NumeralParts.tail {base : NumeralBase} {mark digits size : List Char}
    (parts : NumeralParts base mark digits size (front ++ back))
    (same : NumeralBase.marked? (mark ++ (digits ++ (size ++ (front ++ back')))) =
      NumeralBase.marked? (mark ++ (digits ++ (size ++ (front ++ back)))))
    (next : TokenNext front back) (gap : SpaceOrEnd back') :
    NumeralParts base mark digits size (front ++ back') where
  marked := same ▸ parts.marked
  inBase := parts.inBase
  stop := by
    have stop := parts.stop
    rw [← List.append_assoc] at stop ⊢
    exact stop.tail gap (by cases base <;> rfl)
  sized := by rw [NumeralSize.marked?_tail parts.sized next gap, parts.sized]

theorem Piece.numeral_tail (own : List Char)
    (whole : (numeral (own ++ (front ++ back))).text = own)
    (same : NumeralBase.marked? (own ++ (front ++ back')) =
      NumeralBase.marked? (own ++ (front ++ back)))
    (next : TokenNext front back) (gap : SpaceOrEnd back') :
    numeral (own ++ (front ++ back')) = numeral (own ++ (front ++ back)) := by
  obtain ⟨base, mark, digits, size, after, cut, parts⟩ :=
    exists_numeralParts (own ++ (front ++ back))
  rw [cut, parts.numeral_eq] at whole
  obtain rfl : mark ++ (digits ++ size) = own := whole
  simp only [List.append_assoc] at cut same ⊢
  obtain rfl : front ++ back = after := by simpa only [List.append_cancel_left_eq] using cut
  rw [(parts.tail same next gap).numeral_eq, parts.numeral_eq]

theorem StopsBefore.tail_cons {c d : Char} {rest rest' own : List Char}
    (stop : rest.head? ≠ some d) (whole : c :: rest = own ++ (front ++ back))
    (whole' : c :: rest' = own ++ (front ++ back')) (some : own ≠ []) (gap : SpaceOrEnd back')
    (other : d ≠ ' ') : rest'.head? ≠ .some d := by
  obtain ⟨x, own, rfl⟩ := List.exists_cons_of_ne_nil some
  rw [List.cons_append] at whole whole'
  obtain ⟨-, rfl⟩ := List.cons.inj whole
  obtain ⟨-, rfl⟩ := List.cons.inj whole'
  have before : StopsBefore (· == d) ((own ++ front) ++ back) := by
    intro x first
    rw [List.append_assoc] at first
    apply Bool.eq_false_iff.2
    intro same
    exact stop (beq_iff_eq.1 same ▸ first)
  have after := before.tail gap (by simpa using other.symm)
  intro first
  rw [List.append_assoc] at after
  simpa using after d first

namespace Piece

variable {lookback : Lookback} {lineRead : List Char} {c : Char} {rest rest' : List Char}

theorem not_isToken_of_kind? {p : Piece} (none : p.kind? = none) : ¬ p.IsToken := by
  rintro ⟨kind, found, -⟩
  rw [none] at found
  cases found

theorem text_of_read (lookback : Lookback) (lineRead : List Char) (c : Char) (rest : List Char) :
    ∃ own, (read false lookback lineRead c rest).text = c :: own :=
  exists_cons_of_front (read_text_front _ _ _ _ _) (read_text_ne_nil _ _ _ _ _)

theorem stopsBefore_of_isToken (token : (read false lookback lineRead c rest).IsToken)
    (after : List Char) :
    StopsBefore isBlank ((read false lookback lineRead c rest).text ++ after) := by
  obtain ⟨own, opens⟩ := text_of_read lookback lineRead c rest
  rw [opens]
  intro d first
  obtain rfl := Option.some.inj first
  apply Bool.eq_false_iff.2
  intro blank
  rw [read_of_isBlank blank] at token
  exact not_isToken_of_kind? rfl token

theorem word_tail (whole : c :: rest = (word false c rest).text ++ (front ++ back))
    (gap : SpaceOrEnd back') (whole' : c :: rest' = (word false c rest).text ++ (front ++ back')) :
    word false c rest' = word false c rest := by
  rw [word_alone] at whole whole'
  have after : rest = rest.takeWhile continuesName ++ (front ++ back) := (List.cons.inj whole).2
  have after' : rest' = rest.takeWhile continuesName ++ (front ++ back') :=
    (List.cons.inj whole').2
  have left : rest.dropWhile continuesName = front ++ back :=
    List.append_cancel_left (List.takeWhile_append_dropWhile.trans after)
  have stop := stopsBefore_dropWhile continuesName rest
  rw [left] at stop
  rw [word_alone, word_alone, after',
    (stop.tail gap rfl).takeWhile_append fun _ => List.mem_takeWhile_imp]

theorem string_of_closed {text : List Char} (closed : '"' ∈ text) :
    ∃ contents, string text = ⟨.string contents true, '"' :: (contents ++ ['"'])⟩ := by
  rw [string]
  split
  · exact ⟨_, rfl⟩
  · rename_i long
    have all := (List.takeWhile_prefix (· != '"')).eq_of_length_le (Nat.le_of_not_lt long)
    rw [← all] at closed
    simpa using List.mem_takeWhile_imp closed

theorem string_tail (whole : '"' :: rest = (string rest).text ++ (front ++ back))
    (ends : ∀ contents, (string rest).lexeme = .string contents false → back' = [])
    (whole' : '"' :: rest' = (string rest).text ++ (front ++ back')) :
    string rest' = string rest := by
  by_cases closed : '"' ∈ rest
  · obtain ⟨contents, read⟩ := string_of_closed closed
    rw [read] at whole whole'
    have after : rest = (contents ++ ['"']) ++ (front ++ back) := (List.cons.inj whole).2
    have after' : rest' = (contents ++ ['"']) ++ (front ++ back') := (List.cons.inj whole').2
    have mark : '"' ∈ contents ++ ['"'] := List.mem_append_right _ List.mem_cons_self
    rw [after, after', string_append mark, string_append mark]
  · rw [string_of_open closed] at whole whole' ends
    have after : rest = rest ++ (front ++ back) := (List.cons.inj whole).2
    have after' : rest' = rest ++ (front ++ back') := (List.cons.inj whole').2
    have nothing := List.append_eq_nil_iff.1 (List.append_right_eq_self.1 after.symm)
    rw [after', ends _ rfl, nothing.1, List.append_nil, List.append_nil]

theorem sign?_tail {p : Piece} (read : sign? lookback (c :: rest) = some p)
    (whole : c :: rest = p.text ++ (front ++ back)) (next : TokenNext front back)
    (gap : SpaceOrEnd back') : sign? lookback (p.text ++ (front ++ back')) = some p := by
  obtain ⟨found, longest, rfl⟩ := Option.map_eq_some_iff.1 read
  have size : found.1.length = ((c :: rest).take found.1.length).length :=
    (List.length_take_of_le (Sign.length_le_of_longest? longest)).symm
  have longest' : Sign.longest? ((c :: rest).take found.1.length ++ (front ++ back)) = some found :=
    whole ▸ longest
  rw [sign?, Sign.longest?_tail longest' size next gap, Option.map_some]
  simp only [List.take_left' size.symm]

theorem not_percent_of_sign? {p : Piece} (read : sign? lookback (c :: rest) = some p) :
    c ≠ '%' := by
  rintro rfl
  obtain ⟨found, longest, -⟩ := Option.map_eq_some_iff.1 read
  obtain ⟨member, spelled⟩ := Sign.mem_of_longest? longest
  have positive := Sign.length_pos_of_mem_spellings member
  have here : '%' ∈ ('%' :: rest).take found.1.toList.length := by
    rw [show found.1.toList.length = found.1.length from rfl]
    obtain ⟨n, size⟩ := Nat.exists_eq_add_of_lt positive
    rw [size, List.take_succ_cons]
    exact List.mem_cons_self
  exact Sign.noPercent_spellings _ member
    (mem_of_sameSpelling (Bool.and_eq_true_iff.1 spelled).1 rfl rfl here)

theorem marked?_tail
    (digit : c.isDigit = true ∨ c = '%' ∧ (NumeralBase.marked? (c :: rest)).isSome = true)
    (token : (numeral (c :: rest)).IsToken)
    (whole : c :: rest = (numeral (c :: rest)).text ++ (front ++ back))
    (whole' : c :: rest' = (numeral (c :: rest)).text ++ (front ++ back')) :
    NumeralBase.marked? (c :: rest') = NumeralBase.marked? (c :: rest) := by
  rcases digit with digit | ⟨rfl, marked⟩
  · have other : c ≠ '%' := by
      rintro rfl
      cases digit
    rw [NumeralBase.marked?_of_ne other, NumeralBase.marked?_of_ne other]
  · obtain ⟨after, cut, segment⟩ := numeral_segment (.inr marked)
    obtain ⟨others, opens⟩ := exists_cons_of_front (numeral_front _) segment.text_ne_nil
    rcases segment.of_percent token opens with long | ⟨d, others, rfl, octal⟩
    · calc NumeralBase.marked? ('%' :: rest')
        _ = NumeralBase.marked? ((numeral ('%' :: rest)).text ++ (front ++ back')) := by
            rw [← whole']
        _ = NumeralBase.marked? ((numeral ('%' :: rest)).text ++ (front ++ back)) :=
            NumeralBase.marked?_append long _ _
        _ = NumeralBase.marked? ('%' :: rest) := by rw [← whole]
    · rw [opens] at whole whole'
      obtain ⟨-, rfl⟩ := List.cons.inj whole
      obtain ⟨-, rfl⟩ := List.cons.inj whole'
      exact (NumeralBase.marked?_octal octal _).trans (NumeralBase.marked?_octal octal _).symm

theorem read_tail (token : (read false lookback lineRead c rest).IsToken)
    (whole : c :: rest = (read false lookback lineRead c rest).text ++ (front ++ back))
    (next : TokenNext front back) (gap : SpaceOrEnd back')
    (ends : ∀ contents,
      (read false lookback lineRead c rest).lexeme = .string contents false → back' = [])
    (whole' : c :: rest' = (read false lookback lineRead c rest).text ++ (front ++ back')) :
    read false lookback lineRead c rest' = read false lookback lineRead c rest := by
  have some := read_text_ne_nil false lookback lineRead c rest
  revert token whole ends whole' some
  fun_cases read false lookback lineRead c rest with
  | case1 => exact fun token => absurd token (not_isToken_of_kind? rfl)
  | case2 => rintro ⟨_, ⟨⟩, ⟨⟩⟩
  | case3 =>
      rw [comment]
      split <;> rintro ⟨_, ⟨⟩, ⟨⟩⟩
  | case4 blank hyphens comment directive =>
      subst directive
      intros
      rfl
  | case5 blank hyphens comment directive digit =>
      intro token whole ends whole' some
      have same := marked?_tail digit token whole whole'
      have noHyphen : c ≠ '-' := by
        rintro rfl
        rcases digit with digit | ⟨percent, -⟩
        · cases digit
        · cases percent
      have read := numeral_tail (numeral (c :: rest)).text (by rw [← whole])
        (by rw [← whole, ← whole', same]) next gap
      rw [← whole, ← whole'] at read
      rw [Piece.read, if_neg blank, if_neg fun hyphens => noHyphen hyphens.1, if_neg comment,
        if_neg directive, if_pos (same ▸ digit), read]
  | case6 blank hyphens comment directive digit opens =>
      intro token whole ends whole' some
      rw [read_of_startsName opens, Bool.false_and, word_tail whole gap whole']
  | case7 blank hyphens comment directive digit opens mark =>
      intro token whole ends whole' some
      subst mark
      exact string_tail whole ends whole'
  | case8 blank hyphens comment directive digit opens mark =>
      intro token whole ends whole' some
      have hyphens' : ¬ (c = '-' ∧ rest'.head? = .some '-') := fun both =>
        StopsBefore.tail_cons (fun first => hyphens ⟨both.1, first⟩) whole whole' some gap
          (by decide) both.2
      cases read : sign? lookback (c :: rest) with
      | none =>
          rw [read] at token
          exact absurd token (not_isToken_of_kind? rfl)
      | some p =>
          rw [read, Option.getD_some] at whole whole'
          have digit' : ¬ (c.isDigit = true ∨
              c = '%' ∧ (NumeralBase.marked? (c :: rest')).isSome = true) := by
            rintro (isDigit | ⟨percent, -⟩)
            · exact digit (.inl isDigit)
            · exact not_percent_of_sign? read percent
          rw [Piece.read, if_neg blank, if_neg hyphens', if_neg comment, if_neg directive,
            if_neg digit', if_neg opens, if_neg mark, whole', sign?_tail read whole next gap]

end Piece
end TalAnalysis
