namespace TalAnalysis.Text

def byteLength : List Char → Nat
  | [] => 0
  | c :: text => c.utf8Size + byteLength text

def unitSize (c : Char) : Nat := if c.toNat < 0x10000 then 1 else 2

def unitLength : List Char → Nat
  | [] => 0
  | c :: text => unitSize c + unitLength text

/-- The parts of a text before and after an offset. There are none if the offset falls inside a
character or beyond the end. -/
def cutAt? : List Char → Nat → Option (List Char × List Char)
  | text, 0 => some ([], text)
  | [], _ + 1 => none
  | c :: text, offset =>
      if c.utf8Size ≤ offset then (cutAt? text (offset - c.utf8Size)).map fun (a, b) => (c :: a, b)
      else none

def slice? (text : List Char) (start stop : Nat) : Option (List Char) := do
  let (_, tail) ← cutAt? text start
  guard (start ≤ stop)
  let (middle, _) ← cutAt? tail (stop - start)
  return middle

@[simp] theorem byteLength_nil : byteLength [] = 0 := rfl

@[simp] theorem byteLength_cons (c : Char) (text : List Char) :
    byteLength (c :: text) = c.utf8Size + byteLength text := rfl

@[simp] theorem byteLength_append (a b : List Char) :
    byteLength (a ++ b) = byteLength a + byteLength b := by
  induction a with
  | nil => simp
  | cons c a ih => simp [ih, Nat.add_assoc]

@[simp] theorem unitLength_nil : unitLength [] = 0 := rfl

@[simp] theorem unitLength_cons (c : Char) (text : List Char) :
    unitLength (c :: text) = unitSize c + unitLength text := rfl

theorem cutAt?_byteLength (a b : List Char) : cutAt? (a ++ b) (byteLength a) = some (a, b) := by
  induction a with
  | nil => cases b <;> simp [cutAt?]
  | cons c a ih =>
    have size : 0 < c.utf8Size := c.utf8Size_pos
    obtain ⟨n, same⟩ : ∃ n, byteLength (c :: a) = n + 1 := ⟨byteLength (c :: a) - 1, by simp; omega⟩
    have cut : n + 1 - c.utf8Size = byteLength a := by simp at same; omega
    have fits : c.utf8Size ≤ n + 1 := by simp at same; omega
    rw [same, List.cons_append, cutAt?, if_pos fits, cut, ih]
    · rfl
    · simp

end TalAnalysis.Text
