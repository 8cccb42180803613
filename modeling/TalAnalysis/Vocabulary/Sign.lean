import TalAnalysis.Vocabulary.Delimiter
import TalAnalysis.Vocabulary.Indirection
import TalAnalysis.Vocabulary.Operator

/-!
# Signs

Everything that is written without letters, or with letters that a dot or an apostrophe opens: the
signs of indirection, the delimiters, the operators that are not words, and the ends of lines. Many
spellings open with others, so a text is read by its longest sign: `<=` is not `<`, and `(*)` is not
`(`. Where two tables have the same spelling, the earlier of the four has it.

A spelling that ends in a letter counts only if the word ends with it: `.EXTRA` does not open with
`.EXT`.
-/

namespace TalAnalysis

inductive Sign
  | indirection (id : Indirection)
  | delimiter (id : Delimiter)
  | operator (id : Operator)
  | lineEnd
deriving DecidableEq, Repr, Inhabited

namespace Sign

def spellings : List (String × Sign) :=
  Indirection.signs.map (fun i => (i.spelling, .indirection i)) ++
    Delimiter.all.map (fun d => (d.spelling, .delimiter d)) ++
    Operator.signs.map (fun o => (o.spelling, .operator o)) ++
    lineTerminators.map (fun terminator => (terminator, .lineEnd))

/-- The text opens with the spelling, and with a whole word if the spelling ends in a letter. -/
def matchesAt (text : List Char) (spelling : String) : Bool :=
  Text.opensWith text spelling.toList &&
    !((spelling.toList.getLast?.map Char.isAlpha).getD false &&
      ((text.drop spelling.length).head?.map Text.continuesName).getD false)

def longer (best : Option (String × Sign)) (next : String × Sign) : Option (String × Sign) :=
  match best with
  | none => some next
  | some best => if best.1.length < next.1.length then some next else some best

def longest? (text : List Char) : Option (String × Sign) :=
  (spellings.filter fun (spelling, _) => matchesAt text spelling).foldl longer none

theorem foldl_longer_mem {candidates : List (String × Sign)} {best : Option (String × Sign)}
    {found : String × Sign} (h : candidates.foldl longer best = some found) :
    best = some found ∨ found ∈ candidates := by
  induction candidates generalizing best with
  | nil => exact .inl h
  | cons next candidates ih =>
    rcases ih h with kept | member
    · cases best with
      | none => simp_all [longer]
      | some best => simp only [longer] at kept; split at kept <;> simp_all
    · exact .inr (List.mem_cons_of_mem _ member)

theorem mem_of_longest? {text : List Char} {found : String × Sign}
    (h : longest? text = some found) :
    found ∈ spellings ∧ matchesAt text found.1 = true := by
  simpa using (foldl_longer_mem h).resolve_left (by simp)

theorem length_le_foldl_longer {candidates : List (String × Sign)} {best : Option (String × Sign)}
    {found : String × Sign} (h : candidates.foldl longer best = some found) :
    ∀ listed, best = some listed ∨ listed ∈ candidates → listed.1.length ≤ found.1.length := by
  induction candidates generalizing best with
  | nil =>
    rintro listed (rfl | member)
    · exact Option.some.inj h ▸ Nat.le_refl _
    · cases member
  | cons next candidates ih =>
    have later := ih h
    rintro listed (rfl | member)
    · rw [longer] at later
      split at later
      · rename_i shorter
        exact Nat.le_trans (Nat.le_of_lt shorter) (later next (.inl rfl))
      · exact later listed (.inl rfl)
    · rcases List.mem_cons.1 member with rfl | member
      · cases best with
        | none => exact later listed (.inl rfl)
        | some best =>
          rw [longer] at later
          split at later
          · exact later listed (.inl rfl)
          · rename_i longest
            exact Nat.le_trans (Nat.le_of_not_lt longest) (later best (.inl rfl))
      · exact later listed (.inr member)

theorem length_le_longest? {text : List Char} {found listed : String × Sign}
    (h : longest? text = some found) (member : listed ∈ spellings)
    (spelled : matchesAt text listed.1 = true) : listed.1.length ≤ found.1.length :=
  length_le_foldl_longer h listed (.inr (List.mem_filter.2 ⟨member, spelled⟩))

theorem foldl_longer_ne_none (candidates : List (String × Sign)) (best : String × Sign) :
    candidates.foldl longer (some best) ≠ none := by
  induction candidates generalizing best with
  | nil => simp
  | cons next candidates ih =>
    simp only [List.foldl_cons, longer]
    split <;> exact ih _

theorem longest?_eq_none_iff {text : List Char} :
    longest? text = none ↔ ∀ listed ∈ spellings, matchesAt text listed.1 = false := by
  rw [longest?]
  cases found : spellings.filter fun (spelling, _) => matchesAt text spelling with
  | nil => simpa using found
  | cons next candidates =>
    have member : next ∈ next :: candidates := List.mem_cons_self
    rw [← found, List.mem_filter] at member
    refine iff_of_false (foldl_longer_ne_none candidates next) fun none => ?_
    simp [none next member.1] at member

theorem length_pos_of_mem_spellings {listed : String × Sign} (h : listed ∈ spellings) :
    0 < listed.1.length := by
  revert listed
  decide +kernel

end Sign
end TalAnalysis
