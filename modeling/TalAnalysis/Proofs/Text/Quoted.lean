import TalAnalysis.Proofs.Text.Digits
import TalAnalysis.Text.Quoted

namespace TalAnalysis.Text

theorem isPrintable_of_mem_quotedChar {c d : Char} (member : d ∈ quotedChar c) :
    isPrintable d = true := by
  let signs := ['\\', '0', 't', 'r', 'n', '"', 'u', '\x7b', '\x7d']
  have shown : signs.all isPrintable = true := by decide +kernel
  have shown_of {marks : List Char} (listed : marks ⊆ signs) (member : d ∈ marks) :
      isPrintable d = true := List.all_eq_true.1 shown d (listed member)
  have digits : ∀ d < 16, isPrintable (Nat.digitChar d) = true := by decide +kernel
  revert member
  fun_cases quotedChar c with
  | case7 _ _ _ _ _ _ printable =>
      intro member
      exact List.mem_singleton.1 member ▸ printable
  | case8 =>
      intro member
      rcases List.mem_append.1 member with front | last
      · rcases List.mem_append.1 front with opening | code
        · exact shown_of (by decide) opening
        · obtain ⟨n, below, rfl⟩ := digit_of_mem_toDigits (by decide) code
          exact digits n below
      · exact shown_of (by decide) last
  | _ => exact shown_of (by decide)

theorem isPrintable_of_mem_quoted {text : String} {d : Char} (member : d ∈ (quoted text).toList) :
    isPrintable d = true := by
  have mark : isPrintable '"' = true := by decide +kernel
  rw [quoted, String.toList_ofList] at member
  rcases List.mem_cons.1 member with rfl | member
  · exact mark
  · rcases List.mem_append.1 member with inside | last
    · obtain ⟨c, -, own⟩ := List.mem_flatMap.1 inside
      exact isPrintable_of_mem_quotedChar own
    · exact List.mem_singleton.1 last ▸ mark

def markedChar : Char → Char
  | '0' => '\x00'
  | 't' => '\t'
  | 'r' => '\r'
  | 'n' => '\n'
  | c => c

def readQuotedChar : List Char → Option (Char × List Char)
  | '\\' :: 'u' :: _ :: code =>
      some (.ofNat (numberIn 16 (code.takeWhile (· != '\x7d'))),
        (code.dropWhile (· != '\x7d')).tail)
  | '\\' :: mark :: rest => some (markedChar mark, rest)
  | c :: rest => some (c, rest)
  | [] => none

theorem readQuotedChar_quotedChar (c : Char) (rest : List Char) :
    readQuotedChar (quotedChar c ++ rest) = some (c, rest) := by
  fun_cases quotedChar c with
  | case7 _ _ _ _ _ noBackslash => simp [readQuotedChar, noBackslash]
  | case8 =>
      have inCode : ∀ d ∈ Nat.toDigits 16 c.toNat, (d != '\x7d') = true := by
        intro d member
        obtain ⟨n, below, rfl⟩ := digit_of_mem_toDigits (by decide) member
        exact (by decide : ∀ n < 16, (Nat.digitChar n != '\x7d') = true) n below
      simp [writtenCode, readQuotedChar, List.takeWhile_append_of_pos inCode,
        List.dropWhile_append_of_pos inCode,
        numberIn_toDigits (by decide : 1 < 16) (Nat.le_refl 16)]
  | _ => simp_all [readQuotedChar, markedChar]

theorem flatMap_quotedChar_injective {a b : List Char}
    (same : a.flatMap quotedChar = b.flatMap quotedChar) : a = b := by
  induction a generalizing b with
  | nil =>
      cases b with
      | nil => rfl
      | cons d b =>
          have read := congrArg readQuotedChar same
          rw [List.flatMap_cons, readQuotedChar_quotedChar] at read
          cases read
  | cons c a ih =>
      have read := congrArg readQuotedChar same
      rw [List.flatMap_cons, readQuotedChar_quotedChar] at read
      cases b with
      | nil => cases read
      | cons d b =>
          rw [List.flatMap_cons, readQuotedChar_quotedChar] at read
          obtain ⟨rfl, rest⟩ := Prod.mk.inj (Option.some.inj read)
          exact congrArg (c :: ·) (ih rest)

theorem quoted_injective {a b : String} (same : quoted a = quoted b) : a = b := by
  rw [quoted, quoted, String.ofList_inj, List.cons.injEq, List.append_left_inj] at same
  exact String.toList_injective (flatMap_quotedChar_injective same.2)

end TalAnalysis.Text
