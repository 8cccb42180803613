import Mathlib.Data.List.Find
import TalAnalysis.Proofs.Text.Case
import TalAnalysis.Vocabulary.Sign

namespace TalAnalysis

namespace Sign
open Text

/-- The text opens with the spelling, in any case, and the word ends there if the spelling ends in a
letter. -/
def StandsAt (text : List Char) (spelling : String) : Prop :=
  ∃ front after, text = front ++ after ∧ sameSpelling front spelling.toList = true ∧
    ∀ last ∈ spelling.toList.getLast?, last.isAlpha = true →
      ∀ next ∈ after.head?, continuesName next = false

theorem matchesAt_iff {text : List Char} {spelling : String} :
    matchesAt text spelling = true ↔ StandsAt text spelling := by
  have boundary (after : List Char) :
      ((spelling.toList.getLast?.map Char.isAlpha).getD false &&
        (after.head?.map continuesName).getD false) = false ↔
      ∀ last ∈ spelling.toList.getLast?, last.isAlpha = true →
        ∀ next ∈ after.head?, continuesName next = false := by
    cases spelling.toList.getLast? with
    | none => simp
    | some last => cases after <;> cases letter : last.isAlpha <;> simp [letter]
  rw [matchesAt, Bool.and_eq_true, Bool.not_eq_true', boundary]
  constructor
  · rintro ⟨opens, ends⟩
    exact ⟨_, _, (List.take_append_drop spelling.length text).symm, opens, ends⟩
  · rintro ⟨front, after, rfl, same, ends⟩
    have size := length_eq_of_sameSpelling same
    rw [String.length_toList] at size
    rw [opensWith, String.length_toList, List.take_left' size, List.drop_left' size]
    exact ⟨same, ends⟩

theorem eq_of_standsAt {text : List Char} {a b : String} (here : StandsAt text a)
    (here' : StandsAt text b) (size : a.length = b.length) : sameWord a b = true :=
  sameWord_of_opensWith (Bool.and_eq_true_iff.1 (matchesAt_iff.2 here)).1
    (Bool.and_eq_true_iff.1 (matchesAt_iff.2 here')).1 size

def longestIn? (table : List (String × Sign)) (text : List Char) : Option (String × Sign) :=
  (table.filter fun entry => matchesAt text entry.1).foldl longer none

def listedFor? (table : List (String × Sign)) (spelling : String) : Option Sign :=
  (table.find? fun entry => entry.1 == spelling).map (·.2)

def SpelledApart (table : List (String × Sign)) : Prop :=
  ∀ a ∈ table, ∀ b ∈ table, sameWord a.1 b.1 = true → a.1 = b.1

variable {table : List (String × Sign)} {text : List Char} {spelling : String} {sign : Sign}

theorem find?_of_foldl_longer {candidates : List (String × Sign)} {best : Option (String × Sign)}
    {found : String × Sign} (h : candidates.foldl longer best = some found) :
    (best.toList ++ candidates).find? (fun entry => entry.1.length == found.1.length) =
      some found := by
  -- The best so far is the first of the candidates that are left.
  induction candidates generalizing best with
  | nil =>
      obtain rfl : best = some found := h
      simp
  | cons next candidates ih =>
      have rest := ih h
      cases best with
      | none => exact rest
      | some best =>
          have greatest := length_le_foldl_longer h
          have atMost := greatest best (.inl rfl)
          rw [longer] at rest
          split at rest
          · rename_i shorter
            have := greatest next (.inr List.mem_cons_self)
            exact (List.find?_cons_of_neg (by simp; omega)).trans rest
          · rename_i longest
            rw [Option.toList_some, List.cons_append] at rest ⊢
            by_cases same : best.1.length = found.1.length
            · rw [List.find?_cons_of_pos (by simp [same])] at rest ⊢
              exact rest
            · rw [List.find?_cons_of_neg (by simp [same])] at rest ⊢
              exact (List.find?_cons_of_neg (by simp; omega)).trans rest

theorem longestIn?_eq_none_iff :
    longestIn? table text = none ↔ ∀ entry ∈ table, ¬ StandsAt text entry.1 := by
  rw [longestIn?]
  cases standing : table.filter fun entry => matchesAt text entry.1 with
  | nil =>
      refine iff_of_true rfl fun entry member => ?_
      have := List.filter_eq_nil_iff.1 standing entry member
      rwa [matchesAt_iff] at this
  | cons next candidates =>
      have member : next ∈ table.filter fun entry => matchesAt text entry.1 :=
        standing ▸ List.mem_cons_self
      rw [List.mem_filter, matchesAt_iff] at member
      exact iff_of_false (foldl_longer_ne_none candidates next)
        fun none => none next member.1 member.2

theorem mem_of_listedFor? (h : listedFor? table spelling = some sign) :
    (spelling, sign) ∈ table := by
  obtain ⟨entry, found, rfl⟩ := Option.map_eq_some_iff.1 h
  obtain rfl : entry.1 = spelling := by simpa using List.find?_some found
  exact List.mem_of_find?_eq_some found

theorem of_longestIn? (apart : SpelledApart table)
    (h : longestIn? table text = some (spelling, sign)) :
    listedFor? table spelling = some sign ∧ StandsAt text spelling ∧
      ∀ entry ∈ table, StandsAt text entry.1 → entry.1.length ≤ spelling.length := by
  have first := find?_of_foldl_longer h
  have member := List.mem_of_find?_eq_some first
  rw [Option.toList_none, List.nil_append, List.mem_filter, matchesAt_iff] at member
  refine ⟨?_, member.2, fun entry listed here => length_le_foldl_longer h entry
    (.inr (List.mem_filter.2 ⟨listed, matchesAt_iff.2 here⟩))⟩
  have same : (table.filter fun entry => matchesAt text entry.1).find?
      (fun entry => entry.1.length == spelling.length) =
      table.find? fun entry => entry.1 == spelling := by
    rw [List.find?_filter]
    apply List.find?_congr
    intro entry listed
    by_cases spelled : entry.1 = spelling
    · simp [spelled, matchesAt_iff.2 member.2]
    · have other : ¬ (matchesAt text entry.1 = true ∧ entry.1.length = spelling.length) := by
        rintro ⟨here, size⟩
        exact spelled (apart entry listed _ member.1
          (eq_of_standsAt (matchesAt_iff.1 here) member.2 size))
      rw [beq_eq_false_iff_ne.2 spelled, Bool.eq_false_iff]
      simpa using other
  rw [Option.toList_none, List.nil_append, same] at first
  rw [listedFor?, first]
  rfl

theorem longestIn?_eq_some_iff (apart : SpelledApart table) :
    longestIn? table text = some (spelling, sign) ↔
      listedFor? table spelling = some sign ∧ StandsAt text spelling ∧
        ∀ entry ∈ table, StandsAt text entry.1 → entry.1.length ≤ spelling.length := by
  refine ⟨of_longestIn? apart, fun ⟨listed, here, greatest⟩ => ?_⟩
  have member := mem_of_listedFor? listed
  cases found : longestIn? table text with
  | none => exact absurd here (longestIn?_eq_none_iff.1 found _ member)
  | some entry =>
      obtain ⟨spelling', sign'⟩ := entry
      obtain ⟨listed', here', greatest'⟩ := of_longestIn? apart found
      have member' := mem_of_listedFor? listed'
      have size := Nat.le_antisymm (greatest _ member' here') (greatest' _ member here)
      obtain rfl := apart _ member' _ member (eq_of_standsAt here' here size)
      rw [Option.some.inj (listed'.symm.trans listed)]

/-- The signs of four tables under their spellings, one table after the other. -/
def listing (indirections : List Indirection) (delimiters : List Delimiter)
    (operators : List Operator) (lineEnds : List String) : List (String × Sign) :=
  indirections.map (fun i => (i.spelling, .indirection i)) ++
    delimiters.map (fun d => (d.spelling, .delimiter d)) ++
    operators.map (fun o => (o.spelling, .operator o)) ++
    lineEnds.map (fun terminator => (terminator, .lineEnd))

def ofSpelling? (spelling : String) : Option Sign :=
  ((Indirection.signs.find? fun i => i.spelling == spelling).map .indirection).or <|
    ((Delimiter.ofSpelling? spelling).map .delimiter).or <|
      ((Operator.ofSign? spelling).map .operator).or <|
        if isLineTerminator spelling then some .lineEnd else none

theorem listedFor?_listing (indirections : List Indirection) (delimiters : List Delimiter)
    (operators : List Operator) (lineEnds : List String) (spelling : String) :
    listedFor? (listing indirections delimiters operators lineEnds) spelling =
      ((indirections.find? fun i => i.spelling == spelling).map .indirection).or
        (((delimiters.find? fun d => d.spelling == spelling).map .delimiter).or
          (((operators.find? fun o => o.spelling == spelling).map .operator).or
            ((lineEnds.find? fun terminator => terminator == spelling).map fun _ =>
              .lineEnd))) := by
  simp only [listedFor?, listing, List.find?_append, List.find?_map, Option.map_or, Option.map_map,
    Option.or_assoc]
  rfl

theorem listedFor?_spellings (spelling : String) :
    listedFor? spellings spelling = ofSpelling? spelling := by
  have lineEnd (terminators : List String) :
      (terminators.find? fun terminator => terminator == spelling).map (fun _ => Sign.lineEnd) =
        if terminators.contains spelling then some .lineEnd else none := by
    induction terminators with
    | nil => rfl
    | cons first others ih =>
        by_cases same : first = spelling
        · simp [same]
        · simp [same, Ne.symm same, ih]
  rw [ofSpelling?, isLineTerminator, ← lineEnd]
  exact listedFor?_listing _ _ _ _ spelling

theorem find?_spelling_of_perm {α : Type} {spell : α → String} {items others : List α}
    (apart : ∀ a ∈ items, ∀ b ∈ items, spell a = spell b → a = b) (same : others.Perm items)
    (spelling : String) :
    (others.find? fun item => spell item == spelling) =
      items.find? fun item => spell item == spelling := by
  refine (List.find?_eq_find?_of_perm same.symm ?_).symm
  rintro a ⟨member, spelled⟩ b ⟨member', spelled'⟩
  exact apart a member b member' ((beq_iff_eq.1 spelled).trans (beq_iff_eq.1 spelled').symm)

variable {indirections : List Indirection} {delimiters : List Delimiter}
  {operators : List Operator} {lineEnds : List String}

theorem listedFor?_of_perm (sameIndirections : indirections.Perm Indirection.signs)
    (sameDelimiters : delimiters.Perm Delimiter.all) (sameOperators : operators.Perm Operator.signs)
    (sameLineEnds : lineEnds.Perm lineTerminators) (spelling : String) :
    listedFor? (listing indirections delimiters operators lineEnds) spelling =
      listedFor? spellings spelling := by
  have terminators := @find?_spelling_of_perm _ id _ _ (fun _ _ _ _ => id) sameLineEnds spelling
  have canonical := listedFor?_listing Indirection.signs Delimiter.all Operator.signs
    lineTerminators spelling
  simp only [id_eq] at terminators
  refine Eq.trans ?_ canonical.symm
  -- No spelling is twice in one table; `=` is in two of them.
  rw [listedFor?_listing, find?_spelling_of_perm (by decide +kernel) sameIndirections,
    find?_spelling_of_perm (by decide +kernel) sameDelimiters,
    find?_spelling_of_perm (by decide +kernel) sameOperators, terminators]

theorem listing_perm (sameIndirections : indirections.Perm Indirection.signs)
    (sameDelimiters : delimiters.Perm Delimiter.all) (sameOperators : operators.Perm Operator.signs)
    (sameLineEnds : lineEnds.Perm lineTerminators) :
    (listing indirections delimiters operators lineEnds).Perm spellings :=
  (((sameIndirections.map _).append (sameDelimiters.map _)).append (sameOperators.map _)).append
    (sameLineEnds.map _)

theorem spelledApart_spellings : SpelledApart spellings := by
  unfold SpelledApart
  decide +kernel

def allSpellings : List String := spellings.map (·.1)

/-- The longest spelling at the front of the text is found, if there is any, with the sign that the
first table has for it. The order in which each table lists its signs does not matter. -/
theorem longest?_greatest (text : List Char) :
    (longest? text = none ↔ ∀ spelling ∈ allSpellings, ¬ StandsAt text spelling) ∧
    (∀ spelling sign, longest? text = some (spelling, sign) ↔
      spelling ∈ allSpellings ∧ StandsAt text spelling ∧
        (∀ other ∈ allSpellings, StandsAt text other →
          other.utf8ByteSize ≤ spelling.utf8ByteSize) ∧
        ofSpelling? spelling = some sign) ∧
    ∀ indirections delimiters operators lineEnds,
      indirections.Perm Indirection.signs → delimiters.Perm Delimiter.all →
      operators.Perm Operator.signs → lineEnds.Perm lineTerminators →
        longestIn? (listing indirections delimiters operators lineEnds) text = longest? text := by
  have bytes : ∀ entry ∈ spellings, entry.1.utf8ByteSize = entry.1.length := by decide +kernel
  have apart := spelledApart_spellings
  refine ⟨?_, fun spelling sign => ?_, fun indirections delimiters operators lineEnds
    sameIndirections sameDelimiters sameOperators sameLineEnds => ?_⟩
  · rw [allSpellings, List.forall_mem_map]
    exact longestIn?_eq_none_iff
  · refine (longestIn?_eq_some_iff apart).trans ?_
    rw [listedFor?_spellings, allSpellings, List.forall_mem_map, List.mem_map]
    constructor
    · rintro ⟨first, here, greatest⟩
      have member := mem_of_listedFor? ((listedFor?_spellings spelling).trans first)
      refine ⟨⟨_, member, rfl⟩, here, fun entry listed here' => ?_, first⟩
      rw [bytes entry listed, bytes _ member]
      exact greatest entry listed here'
    · rintro ⟨⟨entry, member, rfl⟩, here, greatest, first⟩
      refine ⟨first, here, fun entry' listed here' => ?_⟩
      rw [← bytes entry' listed, ← bytes entry member]
      exact greatest entry' listed here'
  · have same := listing_perm sameIndirections sameDelimiters sameOperators sameLineEnds
    have apart' : SpelledApart (listing indirections delimiters operators lineEnds) :=
      fun a member b member' => apart a (same.mem_iff.1 member) b (same.mem_iff.1 member')
    have lookUp := listedFor?_of_perm sameIndirections sameDelimiters sameOperators sameLineEnds
    apply Option.ext
    rintro ⟨spelling, sign⟩
    refine (longestIn?_eq_some_iff apart').trans (Iff.trans ?_ (longestIn?_eq_some_iff apart).symm)
    simp only [lookUp, same.mem_iff]

theorem longest?_greatest_dot :
    Indirection.signs.reverse.Perm Indirection.signs ∧ Delimiter.all.reverse.Perm Delimiter.all ∧
      Operator.signs.reverse.Perm Operator.signs ∧
      lineTerminators.reverse.Perm lineTerminators ∧
      StandsAt ".EXTRA".toList "." ∧ ¬ StandsAt ".EXTRA".toList ".EXT" ∧
      longestIn? (listing Indirection.signs.reverse Delimiter.all.reverse Operator.signs.reverse
        lineTerminators.reverse) ".EXTRA".toList = some (".", .delimiter .dot) := by
  have greatest := longest?_greatest ".EXTRA".toList
  have found : longest? ".EXTRA".toList = some (".", .delimiter .dot) := by decide +kernel
  refine ⟨List.reverse_perm _, List.reverse_perm _, List.reverse_perm _, List.reverse_perm _,
    ((greatest.2.1 _ _).1 found).2.1, ?_, ?_⟩
  · rw [← matchesAt_iff]
    decide +kernel
  · rw [greatest.2.2 _ _ _ _ (List.reverse_perm _) (List.reverse_perm _) (List.reverse_perm _)
      (List.reverse_perm _), found]

end Sign
end TalAnalysis
