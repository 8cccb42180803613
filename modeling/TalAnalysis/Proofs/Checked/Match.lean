import TalAnalysis.Proofs.Checked.Cursor
import TalAnalysis.Proofs.Text.Case

namespace TalAnalysis

namespace Text

def isBoundary (text : List Char) (offset : Nat) : Bool := (cutAt? text offset).isSome

end Text

namespace Checked
open Text

variable {rest spelling : List Char}

def startsWith? (rest spelling : List Char) : Option Bool := do
  if byteLength spelling ≤ byteLength rest ∧ isBoundary rest (byteLength spelling) then
    return sameSpelling (← front? rest (byteLength spelling)) spelling
  else return false

def opensWith? (rest spelling : List Char) (test : List Char → Bool) : Option Bool := do
  if ← startsWith? rest spelling then return test (← tail? rest (byteLength spelling))
  else return false

theorem tail?_of_opensWith (opens : opensWith rest spelling = true) :
    tail? rest (byteLength spelling) = some (rest.drop spelling.length) := by
  rw [← byteLength_eq_of_sameSpelling opens]
  exact tail?_take rest spelling.length

theorem startsWith?_eq (rest spelling : List Char) :
    startsWith? rest spelling = some (opensWith rest spelling) := by
  rw [startsWith?]
  cases opens : opensWith rest spelling with
  | true =>
      -- The text that the spelling matches has its size, so it ends where the spelling is cut off.
      have size := byteLength_eq_of_sameSpelling opens
      have cut : cutAt? rest (byteLength spelling) =
          some (rest.take spelling.length, rest.drop spelling.length) := by
        have whole := cutAt?_byteLength (rest.take spelling.length) (rest.drop spelling.length)
        rwa [List.take_append_drop, size] at whole
      have fits : byteLength spelling ≤ byteLength rest :=
        size ▸ byteLength_le_of_front (take_front spelling.length rest)
      have found : sameSpelling (rest.take spelling.length) spelling = true := opens
      simp [fits, isBoundary, front?, cut, found]
  | false =>
      split
      · rename_i inside
        obtain ⟨⟨front, after⟩, cut⟩ := Option.isSome_iff_exists.1 inside.2
        obtain ⟨rfl, -⟩ := cutAt?_eq_some cut
        have other : sameSpelling front spelling = false := by
          by_contra same
          rw [Bool.not_eq_false] at same
          rw [opensWith, ← length_eq_of_sameSpelling same, List.take_left, same] at opens
          cases opens
        simp [front?, cut, other]
      · rfl

theorem opensWith?_eq (rest spelling : List Char) (test : List Char → Bool) :
    opensWith? rest spelling test =
      some (opensWith rest spelling && test (rest.drop spelling.length)) := by
  rw [opensWith?, startsWith?_eq]
  cases opens : opensWith rest spelling with
  | true => simp [tail?_of_opensWith opens]
  | false => rfl

theorem Cursor.consumeBytes?_of_opensWith {source : List Char} {r : Reader} (h : r.Reads source)
    (opens : opensWith r.rest spelling = true) :
    (of source r).consumeBytes? (byteLength spelling) =
      some (r.rest.take spelling.length, of source (r.skip spelling.length)) := by
  have moved := consumeBytes?_of h (take_front spelling.length r.rest)
  rwa [byteLength_eq_of_sameSpelling opens, length_eq_of_sameSpelling opens] at moved

def matchesAt? (rest : List Char) (spelling : String) : Option Bool :=
  if (spelling.toList.getLast?.map Char.isAlpha).getD false then
    opensWith? rest spelling.toList fun after => !(after.head?.map continuesName).getD false
  else startsWith? rest spelling.toList

def longestMatch? (rest : List Char) : Option (Option (String × Sign)) :=
  Sign.spellings.foldlM (fun best listed => do
    if ← matchesAt? rest listed.1 then return Sign.longer best listed else return best) none

theorem matchesAt?_eq (rest : List Char) (spelling : String) :
    matchesAt? rest spelling = some (Sign.matchesAt rest spelling) := by
  rw [matchesAt?, Sign.matchesAt]
  split
  · rename_i letter
    rw [opensWith?_eq, letter, Bool.true_and, String.length_toList]
  · rename_i other
    rw [Bool.not_eq_true] at other
    rw [startsWith?_eq, other, Bool.false_and, Bool.not_false, Bool.and_true]

theorem longestMatch?_eq (rest : List Char) : longestMatch? rest = some (Sign.longest? rest) := by
  have each (best : Option (String × Sign)) (listed : String × Sign) :
      (do if ← matchesAt? rest listed.1 then return Sign.longer best listed else return best) =
        (pure (if Sign.matchesAt rest listed.1 then Sign.longer best listed else best) :
          Option (Option (String × Sign))) := by
    rw [matchesAt?_eq]
    cases Sign.matchesAt rest listed.1 <;> rfl
  rw [longestMatch?, Sign.longest?, List.foldl_filter]
  simp only [each]
  exact List.foldlM_pure

def basePrefix? (rest : List Char) : Option (Option (String × NumeralBase)) :=
  NumeralBase.marks.findM? fun (mark, base) =>
    opensWith? rest mark.toList fun after => (after.head?.map base.isDigit).getD false

def suffix? (base : NumeralBase) (rest : List Char) : Option (Option (String × NumeralSize)) :=
  NumeralSize.marks.findM? fun (mark, _) =>
    if NumeralSize.isMarkIn base mark then
      opensWith? rest mark.toList fun after => !(after.head?.map continuesName).getD false
    else some false

theorem basePrefix?_eq (rest : List Char) :
    basePrefix? rest = some (NumeralBase.marked? rest) := by
  rw [basePrefix?, NumeralBase.marked?]
  simp only [opensWith?_eq, String.length_toList]
  exact List.findM?_pure _ _

theorem suffix?_eq (base : NumeralBase) (rest : List Char) :
    suffix? base rest = some (NumeralSize.marked? base rest) := by
  have each (listed : String × NumeralSize) :
      (if NumeralSize.isMarkIn base listed.1 then
        opensWith? rest listed.1.toList fun after => !(after.head?.map continuesName).getD false
      else some false) = some (NumeralSize.isMarkIn base listed.1 &&
        opensWith rest listed.1.toList &&
        !((rest.drop listed.1.length).head?.map continuesName).getD false) := by
    split
    · rename_i inBase
      rw [opensWith?_eq, inBase, Bool.true_and, String.length_toList]
    · rename_i other
      rw [Bool.not_eq_true] at other
      rw [other, Bool.false_and, Bool.false_and]
  rw [suffix?, NumeralSize.marked?]
  simp only [each]
  exact List.findM?_pure _ _

def integer? (base : NumeralBase) (digits : List Char) : Option Nat :=
  if digits ≠ [] ∧ digits.all base.isDigit then some (numberIn base.radix digits) else none

def nextName? (rest : List Char) : Option (Option Nat) :=
  match rest with
  | ' ' :: word => do
    if (word.head?.map startsName).getD false then
      let size := byteLength (word.takeWhile continuesName)
      let name ← front? word size
      return if (TokenKind.ofWord (String.ofList name)).isName then some (1 + size) else none
    else return none
  | _ => some none

theorem nextName?_space (word : List Char) :
    nextName? (' ' :: word) =
      some ((Piece.nameAhead? word).map fun name => byteLength (' ' :: name)) := by
  rw [nextName?, Piece.nameAhead?]
  cases opens : (word.head?.map startsName).getD false with
  | false => rfl
  | true =>
      simp only [front?_takeWhile, if_true, Bool.true_and, Option.bind_eq_bind, Option.bind_some,
        Option.pure_def]
      split <;> rfl

theorem nextName?_of_ne (other : rest.head? ≠ some ' ') : nextName? rest = some none := by
  unfold nextName?
  split
  · exact absurd rfl other
  · rfl

end Checked
end TalAnalysis
