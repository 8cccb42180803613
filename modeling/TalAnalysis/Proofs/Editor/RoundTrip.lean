import Mathlib.Data.Prod.Lex
import Mathlib.Order.Bounds.Basic
import TalAnalysis.Proofs.Editor.Position

/-!
# Offsets and positions are inverse

Positions are ordered by line, and on a line by character. Going from an offset to its position
keeps the order, and keeps places apart. Going back gives the last place on the line that is not
beyond the position, so a place comes back from its own position (`positions_inverse`).
-/

namespace TalAnalysis.Editor
open Text

instance : LinearOrder Position :=
  LinearOrder.lift' (fun p => toLex (p.line, p.character)) fun ⟨_, _⟩ ⟨_, _⟩ same => by
    obtain ⟨rfl, rfl⟩ := Prod.mk.inj (toLex_inj.1 same)
    rfl

theorem Position.lt_iff {p q : Position} :
    p < q ↔ p.line < q.line ∨ p.line = q.line ∧ p.character < q.character :=
  Prod.Lex.lt_iff

theorem Position.le_iff {p q : Position} :
    p ≤ q ↔ p.line < q.line ∨ p.line = q.line ∧ p.character ≤ q.character :=
  Prod.Lex.le_iff

theorem unitSize_pos (c : Char) : 0 < unitSize c := by
  rw [unitSize]
  split <;> decide

variable {p q target : Position} {c : Char} {rest text before after : List Char}

theorem Position.lt_after (p : Position) (whole : ¬ SplitsPair [c] rest) : p < p.after c rest := by
  rw [Position.after]
  split_ifs with breaks return_
  · exact lt_iff.2 (.inl (Nat.lt_succ_self p.line))
  · subst return_
    have feed : rest.head? = some '\n' := by simpa [breaksLine] using breaks
    exact absurd ⟨rfl, feed⟩ whole
  · exact lt_iff.2 (.inr ⟨rfl, Nat.lt_add_of_pos_right (unitSize_pos c)⟩)

theorem Position.le_after (p : Position) (c : Char) (rest : List Char) : p ≤ p.after c rest := by
  rw [Position.after]
  split_ifs
  · exact le_iff.2 (.inl (Nat.lt_succ_self p.line))
  · exact le_refl p
  · exact le_iff.2 (.inr ⟨rfl, Nat.le_add_right _ _⟩)

theorem positionFrom_zero (p : Position) (text : List Char) : positionFrom p 0 text = p := by
  cases text <;> rfl

theorem le_positionFrom (p : Position) (offset : Nat) (text : List Char) :
    p ≤ positionFrom p offset text := by
  fun_induction positionFrom p offset text with
  | case1 => exact le_refl _
  | case2 => exact le_refl _
  | case3 p offset c text more ih => exact (p.le_after c text).trans ih

theorem positionFrom_mono {a b : Nat} (h : a ≤ b) (p : Position) (text : List Char) :
    positionFrom p a text ≤ positionFrom p b text := by
  fun_induction positionFrom p a text generalizing b with
  | case1 => exact le_refl _
  | case2 => exact le_positionFrom _ b _
  | case3 p a c text more ih =>
      rw [positionFrom, if_neg (by omega)]
      exact ih (Nat.sub_le_sub_right h _)

theorem positionFrom_append (p : Position) (before after : List Char) (offset : Nat) :
    positionFrom p (byteLength before + offset) (before ++ after) =
      positionFrom (positionFrom p (byteLength before) (before ++ after)) offset after := by
  induction before generalizing p with
  | nil => rw [byteLength_nil, Nat.zero_add, List.nil_append, positionFrom_zero]
  | cons c before ih =>
      rw [byteLength_cons, List.cons_append, Nat.add_assoc, positionFrom_cons, positionFrom_cons, ih]

theorem lt_positionFrom (p : Position) (some : text ≠ []) (whole : ¬ SplitsPair text after) :
    p < positionFrom p (byteLength text) (text ++ after) := by
  induction text generalizing p with
  | nil => exact absurd rfl some
  | cons c text ih =>
      rw [byteLength_cons, List.cons_append, positionFrom_cons]
      cases text with
      | nil => exact (p.lt_after whole).trans_le (le_positionFrom _ _ _)
      | cons d text =>
          have later := ih (p.after c (d :: text ++ after)) (List.cons_ne_nil _ _)
            (not_splitsPair_of_cons whole)
          exact (p.le_after c _).trans_lt later

theorem positionFrom_next (p : Position) (before : List Char) (c : Char) (after : List Char) :
    (positionFrom p (byteLength before) (before ++ c :: after)).character + unitSize c ≤
      p.character + unitLength (before ++ c :: after) := by
  induction before generalizing p with
  | nil =>
      rw [byteLength_nil, positionFrom_zero, List.nil_append, unitLength_cons]
      omega
  | cons d before ih =>
      rw [byteLength_cons, List.cons_append, positionFrom_cons, unitLength_cons]
      have := ih (p.after d (before ++ c :: after))
      have := p.character_after d (before ++ c :: after)
      omega

variable {source : String} {offset : Nat}

theorem positionAt_monotone (source : String) : Monotone (positionAt source) :=
  fun _ _ h => positionFrom_mono h _ _

/-- The offset is a place of the source: not inside a character, and not between a carriage return
and its line feed. -/
def IsPlace (source : String) (offset : Nat) : Prop :=
  ∃ before after, source.toList = before ++ after ∧ byteLength before = offset ∧
    ¬ SplitsPair before after

theorem positionAt_strictMonoOn (source : String) :
    StrictMonoOn (positionAt source) {offset | IsPlace source offset} := by
  rintro _ ⟨before, after, cut, rfl, -⟩ _ ⟨before', after', cut', rfl, whole⟩ less
  rcases List.append_eq_append_iff.1 (cut.symm.trans cut') with
    ⟨text, rfl, rfl⟩ | ⟨text, rfl, rfl⟩
  · have some : text ≠ [] := by
      rintro rfl
      simp at less
    have whole : ¬ SplitsPair text after' := by
      rintro ⟨last, feed⟩
      rw [SplitsPair, List.getLast?_append_of_ne_nil _ some] at whole
      exact whole ⟨last, feed⟩
    rw [positionAt, positionAt, cut, byteLength_append, positionFrom_append]
    exact lt_positionFrom _ some whole
  · rw [byteLength_append] at less
    omega

theorem offsetFrom?_eq_none_iff (reached : p.line ≤ target.line) :
    offsetFrom? target p offset text = none ↔ p.line + lineEnds text < target.line := by
  fun_induction offsetFrom? target p offset text with
  | case1 p offset here => simp [here, lineEnds]
  | case2 p offset elsewhere =>
      refine iff_of_true rfl ?_
      rw [lineEnds, Nat.add_zero]
      exact Nat.lt_of_le_of_ne reached elsewhere
  | case3 p offset c text stop =>
      refine iff_of_false (Option.some_ne_none _) ?_
      rw [stop.1]
      omega
  | case4 p offset c text further ih =>
      have line := p.line_after c text
      have next : (p.after c text).line ≤ target.line := by
        by_contra beyond
        have breaks : breaksLine c text = true := by
          by_contra inLine
          rw [if_neg inLine] at line
          omega
        rw [if_pos breaks] at line
        exact further ⟨by omega, .inr (isLineBreak_of_breaksLine breaks)⟩
      rw [ih next, line, lineEnds_cons, Nat.add_assoc, Nat.add_comm (lineEnds text)]

/-- The scan for the position `target` stops at `p`, between `before` and `after`: on the line and
not beyond the column, and with the next character it would be. -/
structure StopsAt (target p : Position) (before after : List Char) : Prop where
  line : p.line = target.line
  within : p.character ≤ target.character
  whole : ¬ SplitsPair before after
  last : ∀ c rest, after = c :: rest →
    target.character < p.character + unitSize c ∨ isLineBreak c = true

theorem within_after
    (further : ¬ (p.line = target.line ∧
      (target.character < p.character + unitSize c ∨ isLineBreak c = true)))
    (within : p.line = target.line → p.character ≤ target.character)
    (here : (p.after c text).line = target.line) :
    (p.after c text).character ≤ target.character := by
  rw [Position.after] at here ⊢
  split_ifs at here ⊢ with breaks return_
  · exact Nat.zero_le _
  · exact within here
  · by_contra beyond
    exact further ⟨here, .inl (Nat.lt_of_not_le beyond)⟩

theorem exists_stopsAt {stop : Nat} (found : offsetFrom? target p offset text = some stop)
    (within : p.line = target.line → p.character ≤ target.character) :
    ∃ before after, text = before ++ after ∧ stop = offset + byteLength before ∧
      StopsAt target (positionFrom p (byteLength before) text) before after := by
  fun_induction offsetFrom? target p offset text with
  | case1 p offset here =>
      obtain rfl := Option.some.inj found
      exact ⟨[], [], rfl, rfl, here, within here, not_splitsPair_nil _, by simp⟩
  | case2 => cases found
  | case3 p offset c text stops =>
      obtain rfl := Option.some.inj found
      refine ⟨[], c :: text, rfl, rfl, stops.1, within stops.1, by simp [SplitsPair], ?_⟩
      rintro _ _ ⟨rfl, rfl⟩
      exact stops.2
  | case4 p offset c text further ih =>
      obtain ⟨before, after, rfl, rfl, stop⟩ := ih found (within_after further within)
      refine ⟨c :: before, after, rfl, by rw [byteLength_cons, Nat.add_assoc], ?_⟩
      rw [byteLength_cons, positionFrom_cons]
      refine ⟨stop.line, stop.within, ?_, stop.last⟩
      rintro ⟨last, feed⟩
      cases before with
      | nil =>
          -- The scan would have stopped before the carriage return, on the same line.
          obtain rfl := Option.some.inj last
          have stays : p.after '\r' after = p := by
            simp [Position.after, breaksLine, feed]
          have line := stop.line
          rw [byteLength_nil, positionFrom_zero, List.nil_append, stays] at line
          exact further ⟨line, .inr rfl⟩
      | cons d before =>
          rw [List.getLast?_cons_cons] at last
          exact stop.whole ⟨last, feed⟩

theorem line_positionFrom (breaks : breaksLine c rest = true) (some : offset ≠ 0) :
    p.line < (positionFrom p offset (c :: rest)).line := by
  have reached := le_positionFrom (p.after c rest) (offset - c.utf8Size) rest
  rw [positionFrom, if_neg some]
  rw [Position.after, if_pos breaks] at reached ⊢
  rcases Position.le_iff.1 reached with later | ⟨here, -⟩
  · exact Nat.lt_of_succ_lt later
  · exact Nat.lt_of_succ_le here.le

/-- Nothing behind the stop is on the line and not beyond the column, unless it shows in the column
of the stop. -/
theorem StopsAt.greatest (stop : StopsAt target p before after)
    (line : (positionFrom p offset after).line = target.line)
    (within : (positionFrom p offset after).character ≤ target.character) :
    (positionFrom p offset after).character ≤ p.character := by
  have same : ¬ p.line < (positionFrom p offset after).line := by
    rw [line, stop.line]
    exact Nat.lt_irrefl _
  cases after with
  | nil => exact le_refl _
  | cons c rest =>
      by_cases start : offset = 0
      · rw [start, positionFrom_zero]
      have inLine : breaksLine c rest ≠ true := fun breaks => same (line_positionFrom breaks start)
      by_cases return_ : c = '\r'
      · -- What is left is the line feed of the pair, and the position does not move before it.
        subst return_
        have feed : rest.head? = some '\n' := by simpa [breaksLine] using inLine
        obtain ⟨rest, rfl⟩ := List.head?_eq_some_iff.1 feed
        have stays : p.after '\r' ('\n' :: rest) = p := rfl
        rw [positionFrom, if_neg start, stays] at same ⊢
        by_cases atFeed : offset - '\r'.utf8Size = 0
        · rw [atFeed, positionFrom_zero]
        · exact absurd (line_positionFrom rfl atFeed) same
      · have reached := le_positionFrom (p.after c rest) (offset - c.utf8Size) rest
        rw [positionFrom, if_neg start] at same within ⊢
        rw [Position.after, if_neg inLine, if_neg return_] at reached same within ⊢
        rcases stop.last c rest rfl with wide | breaks
        · rcases Position.le_iff.1 reached with later | ⟨-, column⟩
          · exact absurd later same
          · exact absurd (wide.trans_le column) (Nat.not_lt.2 within)
        · rcases Bool.or_eq_true_iff.1 breaks with feed | return'
          · exact absurd (Bool.or_eq_true_iff.2 (.inl feed)) inLine
          · exact absurd (eq_of_beq return') return_

theorem offsetAt?_eq_none_iff {p : Position} :
    offsetAt? source p = none ↔ lineEnds source.toList < p.line := by
  rw [offsetAt?, offsetFrom?_eq_none_iff (Nat.zero_le _), Nat.zero_add]

/-- The columns up to that of the position which offsets have on its line. -/
def columnsUpTo (source : String) (p : Position) : Set Nat :=
  {column | column ≤ p.character ∧
    ∃ offset, (positionAt source offset).line = p.line ∧
      (positionAt source offset).character = column}

theorem offsetAt?_greatest {p : Position} (found : offsetAt? source p = some offset) :
    IsPlace source offset ∧ (positionAt source offset).line = p.line ∧
      IsGreatest (columnsUpTo source p) (positionAt source offset).character := by
  obtain ⟨before, after, cut, same, stop⟩ := exists_stopsAt found fun _ => Nat.zero_le _
  rw [Nat.zero_add] at same
  subst same
  have line : (positionAt source (byteLength before)).line = p.line := stop.line
  refine ⟨⟨before, after, cut, rfl, stop.whole⟩, line, ⟨stop.within, _, line, rfl⟩, ?_⟩
  rintro _ ⟨within, other, line', rfl⟩
  rcases Nat.le_total other (byteLength before) with earlier | later
  · have ordered := Position.le_iff.1 (positionAt_monotone source earlier)
    rw [line', line] at ordered
    exact (ordered.resolve_left (Nat.lt_irrefl _)).2
  · obtain ⟨further, rfl⟩ := Nat.exists_eq_add_of_le later
    have reached : positionAt source (byteLength before + further) =
        positionFrom (positionAt source (byteLength before)) further after := by
      rw [positionAt, positionAt, cut, positionFrom_append]
    rw [reached] at within line' ⊢
    exact stop.greatest line' within

theorem offsetAt?_positionAt (place : IsPlace source offset) :
    offsetAt? source (positionAt source offset) = some offset := by
  cases found : offsetAt? source (positionAt source offset) with
  | none =>
      exact absurd (offsetAt?_eq_none_iff.1 found) (Nat.not_lt.2 (positionAt_fits source offset).1)
  | some other =>
      obtain ⟨otherPlace, line, greatest⟩ := offsetAt?_greatest found
      have column : (positionAt source other).character = (positionAt source offset).character :=
        Nat.le_antisymm greatest.1.1 (greatest.2 ⟨le_refl _, offset, rfl, rfl⟩)
      have same : positionAt source other = positionAt source offset :=
        le_antisymm (Position.le_iff.2 (.inr ⟨line, column.le⟩))
          (Position.le_iff.2 (.inr ⟨line.symm, column.ge⟩))
      rw [(positionAt_strictMonoOn source).injOn otherPlace place same]

theorem offsetAt?_mono {p q : Position} (h : p ≤ q) {b : Nat} (found : offsetAt? source q = some b) :
    ∃ a, offsetAt? source p = some a ∧ a ≤ b := by
  have lines := Position.le_iff.1 h
  cases found' : offsetAt? source p with
  | none =>
      have reached : ¬ lineEnds source.toList < q.line := by
        rw [← offsetAt?_eq_none_iff, found]
        exact Option.some_ne_none b
      have := offsetAt?_eq_none_iff.1 found'
      omega
  | some a =>
      obtain ⟨placeA, lineA, greatestA⟩ := offsetAt?_greatest found'
      obtain ⟨placeB, lineB, greatestB⟩ := offsetAt?_greatest found
      refine ⟨a, rfl, ?_⟩
      by_contra beyond
      have order := Position.lt_iff.1
        (positionAt_strictMonoOn source placeB placeA (Nat.lt_of_not_le beyond))
      -- So both are on one line, where `a` is not beyond `q` and yet behind the last such place.
      have within := greatestA.1.1
      have column : (positionAt source a).character ≤ (positionAt source b).character :=
        greatestB.2 ⟨by omega, a, by omega, rfl⟩
      omega

/-- The two ways between offsets and positions. A position counts no more lines and units than the
source has, so where these counts fit in a machine word, so does every position. -/
theorem positions_inverse (source : String) :
    (∀ offset, (positionAt source offset).line ≤ lineEnds source.toList ∧
      (positionAt source offset).character ≤ unitLength source.toList) ∧
    (∀ offset, IsPlace source offset →
      offsetAt? source (positionAt source offset) = some offset) ∧
    (∀ p : Position, (offsetAt? source p = none ↔ lineEnds source.toList < p.line) ∧
      ∀ offset, offsetAt? source p = some offset →
        IsPlace source offset ∧ (positionAt source offset).line = p.line ∧
          IsGreatest (columnsUpTo source p) (positionAt source offset).character) ∧
    Monotone (positionAt source) ∧
    ∀ p q : Position, p ≤ q → ∀ b, offsetAt? source q = some b →
      ∃ a, offsetAt? source p = some a ∧ a ≤ b := by
  refine ⟨fun offset => positionAt_fits source offset, fun _ => offsetAt?_positionAt, fun p => ?_,
    positionAt_monotone source, fun _ _ order _ => offsetAt?_mono order⟩
  exact ⟨offsetAt?_eq_none_iff, fun _ => offsetAt?_greatest⟩

theorem positions_inverse_wide :
    IsPlace "😀\r\né" 6 ∧ offsetAt? "😀\r\né" (positionAt "😀\r\né" 6) = some 6 := by
  have place : IsPlace "😀\r\né" 6 :=
    ⟨['😀', '\r', '\n'], ['é'], rfl, by decide, fun pair => absurd pair.1 (by decide)⟩
  exact ⟨place, (positions_inverse "😀\r\né").2.1 6 place⟩

end TalAnalysis.Editor
