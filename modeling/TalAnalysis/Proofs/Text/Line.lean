import Mathlib.Algebra.GroupWithZero.Nat
import Mathlib.Data.List.TakeWhile
import TalAnalysis.Text.Front
import TalAnalysis.Text.Reader

namespace TalAnalysis.Text

/-- How many lines a text ends: a carriage return with its line feed ends one, and so does each of
them alone. -/
def lineEnds : List Char → Nat
  | [] => 0
  | '\r' :: '\n' :: text => lineEnds text + 1
  | c :: text => lineEnds text + if isLineBreak c then 1 else 0

def lastLine (text : List Char) : List Char :=
  (text.reverse.takeWhile fun c => !isLineBreak c).reverse

/-- The cut between two parts of a text falls between a carriage return and its line feed. -/
def SplitsPair (before after : List Char) : Prop :=
  before.getLast? = some '\r' ∧ after.head? = some '\n'

def advance (width : Char → Nat) (after : List Char) (line column : Nat) : List Char → Nat × Nat
  | [] => (line, column)
  | c :: text =>
    if breaksLine c (text ++ after) then advance width after (line + 1) 0 text
    else advance width after line (column + width c) text

variable {before text after : List Char} {c : Char}

theorem lastLine_cons (c : Char) (text : List Char) :
    lastLine (c :: text) =
      if text.any isLineBreak || isLineBreak c then lastLine text else c :: lastLine text := by
  rw [lastLine, lastLine, List.reverse_cons, List.takeWhile_append]
  cases broken : text.any isLineBreak with
  | true =>
      obtain ⟨d, member, breaks⟩ := List.any_eq_true.1 broken
      rw [if_neg]
      · rfl
      · intro whole
        have all := (List.takeWhile_prefix _).eq_of_length whole
        have := List.takeWhile_eq_self_iff.1 all d (List.mem_reverse.2 member)
        simp [breaks] at this
  | false =>
      have whole : text.reverse.takeWhile (fun c => !isLineBreak c) = text.reverse := by
        apply List.takeWhile_eq_self_iff.2
        intro d member
        rw [List.any_eq_false] at broken
        simpa using broken d (List.mem_reverse.1 member)
      rw [whole, if_pos rfl]
      cases breaks : isLineBreak c <;> simp [breaks]

theorem breaksLine_append (whole : ¬ SplitsPair (c :: text) after)
    (alone : ∀ rest, c = '\r' → text ≠ '\n' :: rest) :
    breaksLine c (text ++ after) = isLineBreak c := by
  by_cases return_ : c = '\r'
  · have other : (text ++ after).head? ≠ some '\n' := by
      cases text with
      | nil => exact fun feed => whole ⟨congrArg some return_, feed⟩
      | cons d rest =>
          intro feed
          obtain rfl := Option.some.inj feed
          exact alone rest return_ rfl
    rw [breaksLine, bne_iff_ne.2 other, Bool.and_true, isLineBreak]
  · rw [breaksLine, isLineBreak, beq_false_of_ne return_, Bool.false_and]

theorem not_splitsPair_nil (text : List Char) : ¬ SplitsPair text [] := by
  rintro ⟨-, feed⟩
  cases feed

theorem isLineBreak_of_breaksLine {rest : List Char} (h : breaksLine c rest = true) :
    isLineBreak c = true := by
  rcases Bool.or_eq_true_iff.1 h with feed | return_
  · rw [isLineBreak, feed, Bool.true_or]
  · rw [isLineBreak, (Bool.and_eq_true_iff.1 return_).1, Bool.or_true]

theorem lineEnds_cons (c : Char) (text : List Char) :
    lineEnds (c :: text) = lineEnds text + if breaksLine c text then 1 else 0 := by
  by_cases pair : ∃ rest, c = '\r' ∧ text = '\n' :: rest
  · obtain ⟨rest, rfl, rfl⟩ := pair
    rfl
  · have alone : ∀ rest, c = '\r' → text ≠ '\n' :: rest :=
      fun rest return_ feed => pair ⟨rest, return_, feed⟩
    have same := breaksLine_append (not_splitsPair_nil (c :: text)) alone
    rw [List.append_nil] at same
    rw [lineEnds, same]
    exact alone

theorem lineEnds_le_length (text : List Char) : lineEnds text ≤ text.length := by
  induction text with
  | nil => exact le_refl 0
  | cons c text ih =>
      rw [lineEnds_cons, List.length_cons]
      split <;> omega

theorem not_splitsPair_of_cons (whole : ¬ SplitsPair (c :: text) after) :
    ¬ SplitsPair text after := by
  rintro ⟨last, feed⟩
  refine whole ⟨?_, feed⟩
  rw [List.getLast?_cons, last]
  rfl

theorem advance_eq (width : Char → Nat) (line column : Nat) (whole : ¬ SplitsPair text after) :
    advance width after line column text =
      (line + lineEnds text,
        (if text.any isLineBreak then 0 else column) + ((lastLine text).map width).sum) := by
  fun_induction lineEnds text generalizing line column with
  | case1 => rfl
  | case2 text ih =>
      have later := not_splitsPair_of_cons (not_splitsPair_of_cons whole)
      have pair : breaksLine '\r' ('\n' :: text ++ after) = false := rfl
      have feed : breaksLine '\n' (text ++ after) = true := rfl
      rw [advance, if_neg (by rw [pair]; exact Bool.false_ne_true), advance, if_pos feed,
        ih _ _ later, ite_self, lastLine_cons, lastLine_cons, if_pos, if_pos]
      · simp [isLineBreak, Nat.add_assoc, Nat.add_comm]
      · simp [isLineBreak]
      · simp [isLineBreak]
  | case3 c text alone ih =>
      have later := not_splitsPair_of_cons whole
      rw [advance, breaksLine_append whole alone, ih _ _ later, ih _ _ later, lastLine_cons]
      cases broken : text.any isLineBreak <;> cases breaks : isLineBreak c <;>
        simp [broken, breaks, Nat.add_assoc, Nat.add_comm 1]

theorem lineEnds_append (whole : ¬ SplitsPair before text) :
    lineEnds (before ++ text) = lineEnds before + lineEnds text := by
  fun_induction lineEnds before with
  | case1 => exact (Nat.zero_add _).symm
  | case2 before ih =>
      rw [List.cons_append, List.cons_append, lineEnds,
        ih (not_splitsPair_of_cons (not_splitsPair_of_cons whole)), Nat.add_right_comm]
  | case3 c before alone ih =>
      rw [List.cons_append, lineEnds, ih (not_splitsPair_of_cons whole), Nat.add_right_comm]
      rintro rest rfl pair
      cases before with
      | nil => exact whole ⟨rfl, by rw [← List.nil_append text, pair]; rfl⟩
      | cons d before => exact alone before rfl (by rw [(List.cons.inj pair).1])

theorem onLine_lastLine (text : List Char) : ∀ c ∈ lastLine text, isLineBreak c = false := by
  intro c member
  simpa using List.mem_takeWhile_imp (List.mem_reverse.1 member)

theorem lastLine_append_onLine (before : List Char)
    (onLine : ∀ c ∈ text, isLineBreak c = false) :
    lastLine (before ++ text) = lastLine before ++ text := by
  have whole : text.reverse.takeWhile (fun c => !isLineBreak c) = text.reverse := by
    apply List.takeWhile_eq_self_iff.2
    intro c member
    rw [onLine c (List.mem_reverse.1 member), Bool.not_false]
  rw [lastLine, lastLine, List.reverse_append, List.takeWhile_append, whole, if_pos rfl,
    List.reverse_append, List.reverse_reverse]

theorem lineEnds_onLine (onLine : ∀ c ∈ text, isLineBreak c = false) : lineEnds text = 0 := by
  fun_induction lineEnds text with
  | case1 => rfl
  | case2 text ih => exact absurd (onLine '\r' List.mem_cons_self) (by decide)
  | case3 c text alone ih =>
      obtain ⟨first, others⟩ := List.forall_mem_cons.1 onLine
      rw [ih others, first]
      rfl

theorem lineEnds_append_onLine (before : List Char)
    (onLine : ∀ c ∈ text, isLineBreak c = false) : lineEnds (before ++ text) = lineEnds before := by
  fun_induction lineEnds before with
  | case1 => exact lineEnds_onLine onLine
  | case2 before ih => rw [List.cons_append, List.cons_append, lineEnds, ih]
  | case3 c before alone ih =>
      rw [List.cons_append, lineEnds, ih]
      rintro rest rfl pair
      cases before with
      | nil =>
          subst pair
          exact absurd (onLine '\n' List.mem_cons_self) (by decide)
      | cons d before => exact alone before rfl (by rw [(List.cons.inj pair).1])

theorem onLine_of_lineEnds (none : lineEnds text = 0) : ∀ c ∈ text, isLineBreak c = false := by
  fun_induction lineEnds text with
  | case1 => exact fun c member => absurd member List.not_mem_nil
  | case2 text ih => cases none
  | case3 c text alone ih =>
      obtain ⟨others, first⟩ := Nat.add_eq_zero_iff.1 none
      refine List.forall_mem_cons.2 ⟨?_, ih others⟩
      simpa using first

theorem lineEnds_lt (whole : ¬ SplitsPair before text) (inside : c ∈ text)
    (breaks : isLineBreak c = true) : lineEnds before < lineEnds (before ++ text) := by
  rw [lineEnds_append whole]
  refine Nat.lt_add_of_pos_right (Nat.pos_of_ne_zero fun none => ?_)
  exact absurd breaks (Bool.eq_false_iff.1 (onLine_of_lineEnds none c inside))

theorem lastLine_eq_nil (ends : ∀ c ∈ text.getLast?, isLineBreak c = true) :
    lastLine text = [] := by
  rw [lastLine, List.reverse_eq_nil_iff]
  cases last : text.reverse with
  | nil => rfl
  | cons c others =>
      have breaks := ends c (by rw [← List.head?_reverse, last]; rfl)
      exact List.takeWhile_cons_of_neg (by simp [breaks])

theorem exists_earlier (text : List Char) :
    ∃ earlier, text = earlier ++ lastLine text ∧ ∀ c ∈ earlier.getLast?, isLineBreak c = true := by
  refine ⟨(text.reverse.dropWhile fun c => !isLineBreak c).reverse, ?_, fun c last => ?_⟩
  · rw [lastLine, ← List.reverse_append, List.takeWhile_append_dropWhile, List.reverse_reverse]
  · rw [List.getLast?_reverse, Option.mem_def] at last
    obtain ⟨others, cut⟩ := List.head?_eq_some_iff.1 last
    simpa using not_of_dropWhile cut

namespace Reader

theorem place_next {r : Reader} {rest : List Char} (unread : r.rest = c :: rest) :
    r.next.place = ⟨r.place.offset + c.utf8Size,
      r.place.line + (if breaksLine c rest then 1 else 0),
      if breaksLine c rest then 0 else r.place.column + 1⟩ := by
  obtain ⟨_, place, lineRead⟩ := r
  subst unread
  simp only [next]
  split <;> simp_all

theorem place_skip_advance {r : Reader} (unread : r.rest = text ++ after) :
    let stop := advance (fun _ => 1) after r.place.line r.place.column text
    (r.skip text.length).place = ⟨r.place.offset + byteLength text, stop.1, stop.2⟩ := by
  induction text generalizing r with
  | nil => rfl
  | cons c text ih =>
      rw [List.cons_append] at unread
      have left : r.next.rest = text ++ after := by rw [rest_next, unread, List.tail_cons]
      rw [List.length_cons, skip, ih left, place_next unread, advance]
      cases breaks : breaksLine c (text ++ after) <;> simp [Nat.add_assoc]

theorem place_skip {r : Reader} (unread : r.rest = text ++ after)
    (whole : ¬ SplitsPair text after) :
    (r.skip text.length).place =
      ⟨r.place.offset + byteLength text, r.place.line + lineEnds text,
        (if text.any isLineBreak then 0 else r.place.column) + (lastLine text).length⟩ := by
  have ones : ((lastLine text).map fun _ => 1).sum = (lastLine text).length := by
    rw [List.map_const', List.sum_replicate_nat, Nat.mul_one]
  rw [place_skip_advance unread, advance_eq _ _ _ whole, ones]

theorem lineRead_next {r : Reader} {rest : List Char} (unread : r.rest = c :: rest) :
    r.next.lineRead = if breaksLine c rest then [] else c :: r.lineRead := by
  obtain ⟨_, place, lineRead⟩ := r
  subst unread
  simp only [next]
  split <;> rfl

theorem lineRead_skip {r : Reader} (unread : r.rest = text ++ after)
    (whole : ¬ SplitsPair text after) :
    (r.skip text.length).lineRead =
      (lastLine text).reverse ++ if text.any isLineBreak then [] else r.lineRead := by
  fun_induction lineEnds text generalizing r with
  | case1 => rfl
  | case2 text ih =>
      have feed : r.next.rest = '\n' :: (text ++ after) := by rw [rest_next, unread]; rfl
      have left : r.next.next.rest = text ++ after := by rw [rest_next, feed, List.tail_cons]
      have fresh : r.next.next.lineRead = [] := lineRead_next feed
      rw [List.length_cons, List.length_cons, skip, skip,
        ih left (not_splitsPair_of_cons (not_splitsPair_of_cons whole)), fresh, lastLine_cons,
        lastLine_cons]
      simp [isLineBreak]
  | case3 c text alone ih =>
      rw [List.cons_append] at unread
      have left : r.next.rest = text ++ after := by rw [rest_next, unread, List.tail_cons]
      rw [List.length_cons, skip, ih left (not_splitsPair_of_cons whole), lineRead_next unread,
        breaksLine_append whole alone, lastLine_cons]
      cases broken : text.any isLineBreak <;> cases breaks : isLineBreak c <;> simp [broken, breaks]

end Reader
end TalAnalysis.Text
