import Mathlib.Data.List.TakeWhile
import TalAnalysis.Text.Reader
import TalAnalysis.Text.WhiteSpace
import TalAnalysis.Vocabulary.Numeral

namespace TalAnalysis.Text

def capitals : List Char := (List.range 26).map fun n => Char.ofNat (65 + n)

theorem mem_capitals {c : Char} (upper : c.isUpper = true) : c ∈ capitals := by
  have bounds : 'A'.val ≤ c.val ∧ c.val ≤ 'Z'.val := of_decide_eq_true upper
  have low : 65 ≤ c.toNat := UInt32.le_iff_toNat_le.1 bounds.1
  have high : c.toNat ≤ 90 := UInt32.le_iff_toNat_le.1 bounds.2
  refine List.mem_map.2 ⟨c.toNat - 65, List.mem_range.2 (by omega), ?_⟩
  rw [Nat.add_sub_cancel' low, Char.ofNat_toNat]

theorem toLower_of_not_isUpper {c : Char} (other : c.isUpper = false) : c.toLower = c := by
  unfold Char.toLower
  exact dif_neg (of_decide_eq_false other)

def IgnoresCase {α : Type} (f : Char → α) : Prop := ∀ c, f c.toLower = f c

theorem ignoresCase_of_capitals {α : Type} {f : Char → α}
    (same : (capitals.map fun c => f c.toLower) = capitals.map f) : IgnoresCase f := by
  intro c
  cases upper : c.isUpper with
  | true => exact List.map_inj_left.1 same c (mem_capitals upper)
  | false => rw [toLower_of_not_isUpper upper]

theorem toLower_toLower (c : Char) : c.toLower.toLower = c.toLower :=
  ignoresCase_of_capitals (f := Char.toLower) (by decide) c

theorem isBlank_ignoresCase : IgnoresCase isBlank := ignoresCase_of_capitals (by decide)

theorem isLineBreak_ignoresCase : IgnoresCase isLineBreak := ignoresCase_of_capitals (by decide)

theorem isWhiteSpace_ignoresCase : IgnoresCase isWhiteSpace := ignoresCase_of_capitals (by decide)

theorem startsName_ignoresCase : IgnoresCase startsName := ignoresCase_of_capitals (by decide)

theorem continuesName_ignoresCase : IgnoresCase continuesName :=
  ignoresCase_of_capitals (by decide)

theorem isDigit_ignoresCase : IgnoresCase Char.isDigit := ignoresCase_of_capitals (by decide)

theorem digitValue_ignoresCase : IgnoresCase digitValue := ignoresCase_of_capitals (by decide)

theorem utf8Size_ignoresCase : IgnoresCase Char.utf8Size := ignoresCase_of_capitals (by decide)

theorem isDigit_base_ignoresCase (base : NumeralBase) : IgnoresCase base.isDigit := by
  cases base <;> exact ignoresCase_of_capitals (by decide)

theorem toLower_eq_iff {c d : Char} (noLetter : d.isLower = false) (small : d.toLower = d) :
    c.toLower = d ↔ c = d :=
  ⟨eq_of_toLower_eq noLetter, fun same => same ▸ small⟩

section Texts

variable {α : Type} {inClass : Char → Bool} {f : Char → α}

theorem IgnoresCase.comp (h : IgnoresCase f) : f ∘ Char.toLower = f := funext h

theorem IgnoresCase.takeWhile (h : IgnoresCase inClass) (text : List Char) :
    (foldCase text).takeWhile inClass = foldCase (text.takeWhile inClass) := by
  rw [foldCase, foldCase, List.takeWhile_map, h.comp]

theorem IgnoresCase.dropWhile (h : IgnoresCase inClass) (text : List Char) :
    (foldCase text).dropWhile inClass = foldCase (text.dropWhile inClass) := by
  rw [foldCase, foldCase, List.dropWhile_map, h.comp]

theorem IgnoresCase.all (h : IgnoresCase inClass) (text : List Char) :
    (foldCase text).all inClass = text.all inClass := by
  rw [foldCase, List.all_map, h.comp]

theorem IgnoresCase.head? (h : IgnoresCase f) (text : List Char) :
    (foldCase text).head?.map f = text.head?.map f := by
  rw [foldCase, List.head?_map, Option.map_map, h.comp]

theorem head?_foldCase_eq_iff {d : Char} (noLetter : d.isLower = false) (small : d.toLower = d) :
    (foldCase text).head? = some d ↔ text.head? = some d := by
  cases text with
  | nil => exact Iff.rfl
  | cons c text => simpa [foldCase] using toLower_eq_iff noLetter small

theorem foldCase_cons (c : Char) (text : List Char) :
    foldCase (c :: text) = c.toLower :: foldCase text := rfl

theorem foldCase_append (a b : List Char) : foldCase (a ++ b) = foldCase a ++ foldCase b :=
  List.map_append

@[simp] theorem length_foldCase (text : List Char) : (foldCase text).length = text.length :=
  List.length_map _

theorem foldCase_take (n : Nat) (text : List Char) :
    (foldCase text).take n = foldCase (text.take n) := List.map_take.symm

theorem foldCase_drop (n : Nat) (text : List Char) :
    (foldCase text).drop n = foldCase (text.drop n) := List.map_drop.symm

theorem foldCase_foldCase (text : List Char) : foldCase (foldCase text) = foldCase text := by
  rw [foldCase, foldCase, List.map_map]
  exact List.map_congr_left fun c _ => toLower_toLower c

theorem sameSpelling_foldCase (a b : List Char) :
    sameSpelling (foldCase a) b = sameSpelling a b := by
  rw [sameSpelling, sameSpelling, foldCase_foldCase]

theorem opensWith_foldCase (text spelling : List Char) :
    opensWith (foldCase text) spelling = opensWith text spelling := by
  rw [opensWith, opensWith, foldCase_take, sameSpelling_foldCase]

theorem sameWord_of_opensWith {a b : String} (opens : opensWith text a.toList = true)
    (opens' : opensWith text b.toList = true) (size : a.length = b.length) :
    sameWord a b = true := by
  rw [opensWith, sameSpelling_iff, String.length_toList] at opens opens'
  rw [size, opens'] at opens
  exact sameSpelling_iff.2 opens.symm

theorem numberIn_foldCase (radix : Nat) (digits : List Char) :
    numberIn radix (foldCase digits) = numberIn radix digits := by
  rw [numberIn, numberIn, foldCase, List.foldl_map]
  simp only [digitValue_ignoresCase _]

theorem byteLength_foldCase (text : List Char) : byteLength (foldCase text) = byteLength text := by
  induction text with
  | nil => rfl
  | cons c text ih => rw [foldCase_cons, byteLength_cons, byteLength_cons, ih, utf8Size_ignoresCase]

theorem byteLength_eq_of_sameSpelling {a b : List Char} (same : sameSpelling a b = true) :
    byteLength a = byteLength b := by
  rw [← byteLength_foldCase a, sameSpelling_iff.1 same, byteLength_foldCase]

theorem breaksLine_foldCase (c : Char) (rest : List Char) :
    breaksLine c.toLower (foldCase rest) = breaksLine c rest := by
  rw [Bool.eq_iff_iff]
  simp only [breaksLine, Bool.or_eq_true, Bool.and_eq_true, beq_iff_eq, bne_iff_ne, ne_eq,
    toLower_eq_iff (show '\n'.isLower = false from rfl) rfl,
    toLower_eq_iff (show '\r'.isLower = false from rfl) rfl,
    head?_foldCase_eq_iff (show '\n'.isLower = false from rfl) rfl]

end Texts

namespace Reader

def foldCase (r : Reader) : Reader := ⟨Text.foldCase r.rest, r.place, Text.foldCase r.lineRead⟩

theorem foldCase_ofText (text : List Char) :
    (ofText text).foldCase = ofText (Text.foldCase text) := rfl

theorem next_foldCase (r : Reader) : r.foldCase.next = r.next.foldCase := by
  obtain ⟨rest, place, lineRead⟩ := r
  cases rest with
  | nil => rfl
  | cons c rest =>
      simp only [foldCase, foldCase_cons, next, breaksLine_foldCase, utf8Size_ignoresCase c]
      split <;> rfl

theorem skip_foldCase (r : Reader) (n : Nat) : r.foldCase.skip n = (r.skip n).foldCase := by
  induction n generalizing r with
  | zero => rfl
  | succ n ih => rw [skip, skip, next_foldCase, ih]

end Reader
end TalAnalysis.Text
