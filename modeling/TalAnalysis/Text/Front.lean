namespace TalAnalysis.Text

variable {α : Type}

theorem drop_length_takeWhile (p : α → Bool) (text : List α) :
    text.drop (text.takeWhile p).length = text.dropWhile p := by
  induction text with
  | nil => rfl
  | cons c text ih => by_cases h : p c <;> simp [h, ih]

theorem takeWhile_front (p : α → Bool) (text : List α) : text.takeWhile p <+: text :=
  ⟨text.dropWhile p, List.takeWhile_append_dropWhile⟩

theorem take_front (n : Nat) (text : List α) : text.take n <+: text :=
  ⟨text.drop n, List.take_append_drop n text⟩

theorem takeWhile_append_front {p : α → Bool} {text tail : List α}
    (h : tail <+: text.dropWhile p) : text.takeWhile p ++ tail <+: text := by
  conv => rhs; rw [← List.takeWhile_append_dropWhile (p := p) (l := text)]
  exact (List.prefix_append_right_inj _).2 h

theorem not_of_dropWhile {p : α → Bool} {text rest : List α} {c : α}
    (h : text.dropWhile p = c :: rest) : p c = false := by
  induction text with
  | nil => simp at h
  | cons d text ih =>
    rw [List.dropWhile_cons] at h
    by_cases member : p d
    · rw [if_pos member] at h; exact ih h
    · rw [if_neg member] at h; cases h; simpa using member

theorem eq_of_dropWhile_ne [BEq α] [LawfulBEq α] {text rest : List α} {c d : α}
    (h : text.dropWhile (· != d) = c :: rest) : c = d := by
  simpa using not_of_dropWhile h

theorem in_front_or_after {front back text after : List α} {c : α}
    (cut : front ++ c :: back = text ++ after) :
    (∃ left, text = front ++ c :: left) ∨
      ∃ front', front = text ++ front' ∧ after = front' ++ c :: back := by
  rcases List.append_eq_append_iff.1 cut with ⟨left, inside, rest⟩ | later
  · rcases List.append_eq_cons_iff.1 rest.symm with ⟨rfl, rest⟩ | ⟨left, rfl, -⟩
    · exact .inr ⟨[], by rw [inside, List.append_nil, List.append_nil], rest.symm⟩
    · exact .inl ⟨left, inside⟩
  · exact .inr later

end TalAnalysis.Text
