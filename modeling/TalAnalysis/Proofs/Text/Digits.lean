import TalAnalysis.Text.Character

namespace TalAnalysis.Text

variable {radix : Nat}

theorem numberIn_concat (radix : Nat) (digits : List Char) (c : Char) :
    numberIn radix (digits ++ [c]) = numberIn radix digits * radix + digitValue c := by
  rw [numberIn, List.foldl_append]
  rfl

theorem digit_of_mem_toDigits (low : 1 < radix) {n : Nat} {c : Char}
    (member : c ∈ Nat.toDigits radix n) : ∃ d < radix, c = d.digitChar := by
  induction n using Nat.strongRecOn with
  | ind n ih =>
      by_cases small : n < radix
      · rw [Nat.toDigits_of_lt_base small, List.mem_singleton] at member
        exact ⟨n, small, member⟩
      · have large := Nat.le_of_not_lt small
        rw [Nat.toDigits_of_base_le low large] at member
        rcases List.mem_append.1 member with front | last
        · exact ih (n / radix) (Nat.div_lt_self (by omega) low) front
        · exact ⟨n % radix, Nat.mod_lt n (by omega), List.mem_singleton.1 last⟩

theorem numberIn_toDigits (low : 1 < radix) (high : radix ≤ 16) (n : Nat) :
    numberIn radix (Nat.toDigits radix n) = n := by
  have digit : ∀ d < 16, digitValue d.digitChar = d := by decide
  induction n using Nat.strongRecOn with
  | ind n ih =>
      by_cases small : n < radix
      · rw [Nat.toDigits_of_lt_base small]
        simp [numberIn, digit n (Nat.lt_of_lt_of_le small high)]
      · have large := Nat.le_of_not_lt small
        have last := Nat.mod_lt n (Nat.zero_lt_of_lt low)
        rw [Nat.toDigits_of_base_le low large, numberIn_concat,
          ih (n / radix) (Nat.div_lt_self (by omega) low),
          digit _ (Nat.lt_of_lt_of_le last high), Nat.mul_comm, Nat.div_add_mod]

theorem toDigits_injective (low : 1 < radix) (high : radix ≤ 16) {m n : Nat}
    (same : Nat.toDigits radix m = Nat.toDigits radix n) : m = n := by
  rw [← numberIn_toDigits low high m, same, numberIn_toDigits low high]

end TalAnalysis.Text
