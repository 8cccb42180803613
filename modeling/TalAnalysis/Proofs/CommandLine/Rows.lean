import Mathlib.Data.List.Basic
import TalAnalysis.CommandLine.Listing
import TalAnalysis.Proofs.Text.Quoted

/-!
# Texts in rows and fields

A line to a row, with tabs between its fields. Such a text tells its rows if no field holds a tab or
a line feed.

* `Lists.rows_eq`: the rows, cut out of the text.
* `Lists.count_lineFeed`: as many line feeds as rows.
-/

namespace TalAnalysis

def IsField (text : String) : Prop := '\t' ∉ text.toList ∧ '\n' ∉ text.toList

instance : DecidablePred IsField := fun text =>
  inferInstanceAs (Decidable ('\t' ∉ text.toList ∧ '\n' ∉ text.toList))

theorem IsField.append {a b : String} (h : IsField a) (h' : IsField b) : IsField (a ++ b) := by
  rw [IsField, String.toList_append, List.mem_append, List.mem_append]
  exact ⟨not_or.2 ⟨h.1, h'.1⟩, not_or.2 ⟨h.2, h'.2⟩⟩

theorem IsField.of_part {text part : String} (h : IsField text)
    (inside : part.toList <:+: text.toList) : IsField part :=
  ⟨fun tab => h.1 (inside.subset tab), fun feed => h.2 (inside.subset feed)⟩

theorem isDigit_of_mem_nat {n : Nat} {c : Char} (member : c ∈ (toString n).toList) :
    c.isDigit = true :=
  Nat.isDigit_of_mem_toDigits (by decide) (by decide) (Nat.toList_repr ▸ member)

theorem isField_nat (n : Nat) : IsField (toString n) :=
  ⟨fun tab => absurd (isDigit_of_mem_nat tab) (by decide),
    fun feed => absurd (isDigit_of_mem_nat feed) (by decide)⟩

theorem isField_int (n : Int) : IsField (toString n) := by
  cases n with
  | ofNat n => exact isField_nat n
  | negSucc n => exact IsField.append (by decide) (isField_nat (n + 1))

theorem isField_place (line start stop : Nat) : IsField (placeText line start stop) :=
  ((((isField_nat line).append (by decide)).append (isField_nat start)).append (by decide)).append
    (isField_nat stop)

theorem isField_quoted (text : String) : IsField (Text.quoted text) := by
  have parts : Text.isPrintable '\t' = false ∧ Text.isPrintable '\n' = false := by decide +kernel
  constructor
  · exact fun tab => Bool.eq_false_iff.1 parts.1 (Text.isPrintable_of_mem_quoted tab)
  · exact fun feed => Bool.eq_false_iff.1 parts.2 (Text.isPrintable_of_mem_quoted feed)

/-- The text is the rows, each on a line of its own and with tabs between its fields. No field goes
on behind a tab or a line feed. -/
structure Lists (text : String) (rows : List (List String)) : Prop where
  text_eq : text = String.join (rows.map fun fields => "\t".intercalate fields ++ "\n")
  some : ∀ fields ∈ rows, fields ≠ []
  fields : ∀ fields ∈ rows, ∀ field ∈ fields, IsField field

theorem lists_map_iff {α : Type} {line : α → String} {fields : α → List String}
    (line_eq : ∀ x, line x = "\t".intercalate (fields x) ++ "\n") (some : ∀ x, fields x ≠ [])
    (items : List α) :
    Lists (String.join (items.map line)) (items.map fields) ↔
      ∀ x ∈ items, ∀ field ∈ fields x, IsField field := by
  constructor
  · exact fun lists x member => lists.fields _ (List.mem_map_of_mem member)
  · intro clean
    refine ⟨?_, List.forall_mem_map.2 fun x _ => some x, List.forall_mem_map.2 clean⟩
    rw [List.map_map]
    exact congrArg String.join (List.map_congr_left fun x _ => line_eq x)

def rowsOf (text : String) : List (List String) :=
  ((text.toList.splitOn '\n').dropLast.map fun line => line.splitOn '\t').map
    (List.map String.ofList)

theorem flatMap_lines (lines : List (List Char)) :
    lines.flatMap (fun line => line ++ ['\n']) = ['\n'].intercalate (lines ++ [[]]) := by
  induction lines with
  | nil => rfl
  | cons line lines ih =>
      rw [List.flatMap_cons, ih, List.cons_append, List.intercalate_cons_of_ne_nil (by simp)]

theorem not_mem_intercalate {c d : Char} (other : c ≠ d) {fields : List (List Char)}
    (none : ∀ field ∈ fields, c ∉ field) : c ∉ [d].intercalate fields := by
  induction fields with
  | nil => exact List.not_mem_nil
  | cons field fields ih =>
      have first := none field List.mem_cons_self
      have others := ih fun field member => none field (List.mem_cons_of_mem _ member)
      cases fields with
      | nil => rwa [List.intercalate_singleton]
      | cons next fields =>
          rw [List.intercalate_cons_cons, List.mem_append, List.mem_append, List.mem_singleton]
          exact not_or.2 ⟨not_or.2 ⟨first, other⟩, others⟩

namespace Lists

variable {text : String} {rows : List (List String)}

def lines (rows : List (List String)) : List (List Char) :=
  rows.map fun fields => ['\t'].intercalate (fields.map String.toList)

theorem toList_eq (h : Lists text rows) :
    text.toList = (lines rows).flatMap fun line => line ++ ['\n'] := by
  rw [h.text_eq, String.toList_join, List.flatMap_map, lines, List.flatMap_map]
  refine congrArg (List.flatMap · rows) (funext fun fields => ?_)
  rw [String.toList_append, String.toList_intercalate]
  rfl

theorem not_mem_lines (h : Lists text rows) : ∀ line ∈ lines rows, '\n' ∉ line := by
  intro line member
  obtain ⟨fields, listed, rfl⟩ := List.mem_map.1 member
  refine not_mem_intercalate (by decide) fun field inner => ?_
  obtain ⟨text, own, rfl⟩ := List.mem_map.1 inner
  exact (h.fields fields listed text own).2

theorem rows_eq (h : Lists text rows) : rows = rowsOf text := by
  have apart : text.toList.splitOn '\n' = lines rows ++ [[]] := by
    rw [h.toList_eq, flatMap_lines, List.splitOn_intercalate '\n' ?_ (by simp)]
    intro line member
    rcases List.mem_append.1 member with listed | last
    · exact h.not_mem_lines line listed
    · exact List.mem_singleton.1 last ▸ List.not_mem_nil
  rw [rowsOf, apart, List.dropLast_concat, lines, List.map_map, List.map_map]
  refine (List.map_id rows).symm.trans (List.map_congr_left fun fields listed => ?_)
  rw [Function.comp_apply, Function.comp_apply, List.splitOn_intercalate '\t', List.map_map]
  · exact (List.map_id fields).symm.trans
      (List.map_congr_left fun field _ => String.ofList_toList.symm)
  · intro field member
    obtain ⟨text, own, rfl⟩ := List.mem_map.1 member
    exact (h.fields fields listed text own).1
  · exact mt List.map_eq_nil_iff.1 (h.some fields listed)

theorem count_lineFeed (h : Lists text rows) : text.toList.count '\n' = rows.length := by
  have one : ∀ line ∈ lines rows, (line ++ ['\n']).count '\n' = 1 := by
    intro line member
    rw [List.count_append, List.count_eq_zero.2 (h.not_mem_lines line member)]
    rfl
  calc
    text.toList.count '\n' = ((lines rows).map fun line => (line ++ ['\n']).count '\n').sum := by
      rw [h.toList_eq, List.count_flatMap]
      rfl
    _ = ((lines rows).map fun _ => 1).sum := by rw [List.map_congr_left one]
    _ = rows.length := by
      rw [List.map_const', List.sum_replicate_nat, Nat.mul_one, lines, List.length_map]

end Lists
end TalAnalysis
