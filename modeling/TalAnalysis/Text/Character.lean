namespace TalAnalysis.Text

def isLineBreak (c : Char) : Bool := c == '\n' || c == '\r'

def isBlank (c : Char) : Bool := c == ' ' || c == '\t' || c == '\x0c'

/-- The characters a name may open with; `$` opens the names of the standard functions. -/
def startsName (c : Char) : Bool := c.isAlpha || c == '_' || c == '^' || c == '$'

def continuesName (c : Char) : Bool := c.isAlphanum || c == '_' || c == '^'

def digitValue (c : Char) : Nat :=
  if c.isDigit then c.toNat - '0'.toNat else c.toLower.toNat - 'a'.toNat + 10

def isDigitIn (radix : Nat) (c : Char) : Bool := c.isAlphanum && digitValue c < radix

theorem isDigitIn_ten (c : Char) : isDigitIn 10 c = c.isDigit := by
  rw [isDigitIn, digitValue, Char.isAlphanum]
  cases digit : c.isDigit with
  | true =>
    have bounds := digit
    simp only [Char.isDigit, Bool.and_eq_true, decide_eq_true_eq, UInt32.le_iff_toNat_le,
      ge_iff_le] at bounds
    have : c.toNat = c.val.toNat := rfl
    have : '9'.val.toNat = 57 := rfl
    have : '0'.toNat = 48 := rfl
    simp; omega
  | false => simp

def numberIn (radix : Nat) (digits : List Char) : Nat :=
  digits.foldl (fun value c => value * radix + digitValue c) 0

def foldCase (text : List Char) : List Char := text.map Char.toLower

def sameSpelling (a b : List Char) : Bool := foldCase a == foldCase b

def opensWith (text spelling : List Char) : Bool :=
  sameSpelling (text.take spelling.length) spelling

theorem sameSpelling_iff {a b : List Char} : sameSpelling a b = true ↔ foldCase a = foldCase b := by
  simp [sameSpelling]

theorem sameSpelling_refl (a : List Char) : sameSpelling a a = true := by simp [sameSpelling]

theorem sameSpelling_comm (a b : List Char) : sameSpelling a b = sameSpelling b a := by
  simp only [sameSpelling, Bool.beq_comm]

theorem length_eq_of_sameSpelling {a b : List Char} (h : sameSpelling a b = true) :
    a.length = b.length := by
  simpa [foldCase] using congrArg List.length (sameSpelling_iff.1 h)

theorem eq_of_toLower_eq {c d : Char} (noLetter : d.isLower = false) (h : c.toLower = d) :
    c = d := by
  subst h
  unfold Char.toLower at noLetter ⊢
  split
  · rename_i upper
    obtain ⟨low, high⟩ := upper
    rw [dif_pos ⟨low, high⟩] at noLetter
    simp only [ge_iff_le, UInt32.le_iff_toNat_le] at low high
    have : 'A'.val.toNat = 65 := rfl
    have : 'Z'.val.toNat = 90 := rfl
    have : 'a'.val.toNat = 97 := rfl
    have : 'z'.val.toNat = 122 := rfl
    have : ('a'.val - 'A'.val).toNat = 32 := rfl
    unfold Char.isLower at noLetter
    simp only [ge_iff_le, UInt32.le_iff_toNat_le, UInt32.toNat_add, Bool.and_eq_false_iff,
      decide_eq_false_iff_not] at noLetter
    omega
  · rfl

theorem mem_of_sameSpelling {a b : List Char} {c : Char} (same : sameSpelling a b = true)
    (noLetter : c.isLower = false) (small : c.toLower = c) (h : c ∈ a) : c ∈ b := by
  have folded : c ∈ foldCase a := small ▸ List.mem_map_of_mem h
  rw [sameSpelling_iff.1 same] at folded
  obtain ⟨d, member, lower⟩ := List.mem_map.1 folded
  exact eq_of_toLower_eq noLetter lower ▸ member

end TalAnalysis.Text

namespace TalAnalysis

def sameWord (a b : String) : Bool := Text.sameSpelling a.toList b.toList

theorem sameWord_refl (a : String) : sameWord a a = true := Text.sameSpelling_refl _

end TalAnalysis
