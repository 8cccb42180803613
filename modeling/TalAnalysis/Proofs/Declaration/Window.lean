import Mathlib.Order.Bounds.Basic
import TalAnalysis.Proofs.Declaration.Lists.Syntax

/-!
# Where windows end

A window ends at the first place where its reader is stopped. What stops the reader is told by the
token at the place and by the tokens that the window has passed (`EndsAt`), in which brackets are
counted.

* `Stops`: the tokens cut at the first such place; each reader finds this cut (`between_append`,
  `value_append`, `upTo_append`).
* `level_iff_depth`: a value stands in no brackets where no end of what it has passed opens more
  brackets than it closes.
* `windows_exact`: all three kinds of windows, at any place of any list of tokens.
-/

namespace TalAnalysis.Declaration

variable {ends : List Token → Token → Prop} {opening closing d : Delimiter}
  {tokens before front tail : List Token} {t : Token} {n m : Nat}

/-- A reader from the place `start` on is stopped at the place `stop`: `ends` holds of the tokens
passed and the token there. -/
def EndsAt (ends : List Token → Token → Prop) (tokens : List Token) (start stop : Nat) : Prop :=
  start ≤ stop ∧ ∃ t ∈ tokens[stop]?, ends (tokens.extract start stop) t

instance [∀ before t, Decidable (ends before t)] (tokens : List Token) (start stop : Nat) :
    Decidable (EndsAt ends tokens start stop) :=
  inferInstanceAs (Decidable (_ ∧ ∃ t ∈ tokens[stop]?, _))

theorem EndsAt.lt_length {start stop : Nat} (h : EndsAt ends tokens start stop) :
    stop < tokens.length := by
  obtain ⟨-, t, here, -⟩ := h
  exact (List.getElem?_eq_some_iff.1 here).1

/-- Nothing in `front` stops the reader, and the first token of `tail` does. -/
structure Stops (ends : List Token → Token → Prop) (front tail : List Token) : Prop where
  passed : ∀ before t after, front = before ++ t :: after → ¬ ends before t
  stopped : ∀ t ∈ tail.head?, ends front t

theorem Stops.cons (h : Stops ends (t :: front) tail) :
    ¬ ends [] t ∧ Stops (fun before => ends (t :: before)) front tail := by
  refine ⟨h.passed [] t front rfl, fun before u after cut => ?_, h.stopped⟩
  exact h.passed (t :: before) u after (congrArg (t :: ·) cut)

theorem Stops.mono {ends' : List Token → Token → Prop} (h : Stops ends front tail)
    (same : ∀ before t, ends before t ↔ ends' before t) : Stops ends' front tail where
  passed before t after cut := mt (same before t).2 (h.passed before t after cut)
  stopped t member := (same front t).1 (h.stopped t member)

theorem endsAt_of_cut {after : List Token} (cut : before ++ t :: after <+: tokens.drop n)
    (h : ends before t) : EndsAt ends tokens n (n + before.length) := by
  obtain ⟨rest, cut⟩ := cut
  have passed : tokens.extract n (n + before.length) = before := by
    rw [List.extract_eq_take_drop, Nat.add_sub_cancel_left, ← cut, List.append_assoc,
      List.take_left]
  have here : tokens[n + before.length]? = some t := by
    rw [← List.getElem?_drop, ← cut]
    simp
  exact ⟨Nat.le_add_right _ _, t, here, passed.symm ▸ h⟩

theorem stops_of_isLeast (first : IsLeast {m | EndsAt ends tokens n m} m) :
    Stops ends (tokens.extract n m) (tokens.drop m) := by
  obtain ⟨⟨_, t, here, stopped⟩, least⟩ := first
  constructor
  · intro before u after cut earlier
    have part : before ++ u :: after <+: tokens.drop n := cut ▸ List.take_prefix _ _
    have later := least (endsAt_of_cut part earlier)
    have short : (tokens.extract n m).length ≤ m - n := List.length_take_le _ _
    rw [cut, List.length_append, List.length_cons] at short
    omega
  · intro u member
    rw [List.head?_drop] at member
    rwa [Option.mem_unique member here]

theorem stops_of_never (never : ∀ m, ¬ EndsAt ends tokens n m) : Stops ends (tokens.drop n) [] where
  passed _ _ _ cut stopped := never _ (endsAt_of_cut (by rw [cut]) stopped)
  stopped _ member := nomatch member

theorem extract_append_drop (le : n ≤ m) : tokens.extract n m ++ tokens.drop m = tokens.drop n := by
  have whole := List.take_append_drop (m - n) (tokens.drop n)
  rwa [List.drop_drop, Nat.add_sub_cancel' le] at whole

/-- How many brackets the tokens open, less those that they close. A token that opens a bracket
closes none. -/
def rise (opening closing : Delimiter) (tokens : List Token) : Int :=
  tokens.countP (·.isDelimiter opening) -
    tokens.countP fun t => t.isDelimiter closing && !t.isDelimiter opening

/-- Up to and with `t` as many brackets have been closed as opened. -/
def Closes (opening closing : Delimiter) (before : List Token) (t : Token) : Prop :=
  rise opening closing (before ++ [t]) = 0

instance (before : List Token) (t : Token) : Decidable (Closes opening closing before t) :=
  inferInstanceAs (Decidable (_ = _))

def isOuterComma (opening closing : Delimiter) (before : List Token) (t : Token) : Bool :=
  t.isDelimiter .comma && rise opening closing [t] == 0 && rise opening closing before == 0

def withoutOuterCommas (opening closing : Delimiter) (tokens : List Token) : List Token :=
  (tokens.zipIdx.filter fun (t, n) => !isOuterComma opening closing (tokens.take n) t).map Prod.fst

@[simp] theorem rise_nil : rise opening closing [] = 0 := rfl

theorem rise_append (front back : List Token) :
    rise opening closing (front ++ back) =
      rise opening closing front + rise opening closing back := by
  simp only [rise, List.countP_append]
  omega

theorem rise_singleton (opening closing : Delimiter) (t : Token) : rise opening closing [t] =
    if t.isDelimiter opening then 1 else if t.isDelimiter closing then -1 else 0 := by
  cases opens : t.isDelimiter opening with
  | true => simp [rise, opens]
  | false => cases closes : t.isDelimiter closing <;> simp [rise, opens, closes]

theorem neg_one_le_rise (opening closing : Delimiter) (t : Token) :
    -1 ≤ rise opening closing [t] := by
  rw [rise_singleton]
  split
  · decide
  · split <;> decide

theorem rise_eq_height (apart : opening ≠ closing) (tokens : List Token) :
    rise opening closing tokens = height opening closing tokens := by
  have same : ∀ t ∈ tokens, (t.isDelimiter closing && !t.isDelimiter opening) = true ↔
      t.isDelimiter closing = true := by
    intro t _
    rw [Bool.and_eq_true, Bool.not_eq_true', and_iff_left_iff_imp]
    exact isDelimiter_eq_false apart.symm
  rw [rise, List.countP_congr same, height]

/-- What is left of `front` without its outer commas, when `before` stands between it and the
opening bracket. -/
def keptAfter (opening closing : Delimiter) (before front : List Token) : List Token :=
  ((front.zipIdx before.length).filter fun (t, n) =>
    !isOuterComma opening closing ((before ++ front).take n) t).map Prod.fst

theorem keptAfter_cons (opening closing : Delimiter) (before : List Token) (t : Token)
    (front : List Token) :
    keptAfter opening closing before (t :: front) =
      if isOuterComma opening closing before t then keptAfter opening closing (before ++ [t]) front
      else t :: keptAfter opening closing (before ++ [t]) front := by
  have later : keptAfter opening closing (before ++ [t]) front =
      ((front.zipIdx (before.length + 1)).filter fun (u, n) =>
        !isOuterComma opening closing ((before ++ t :: front).take n) u).map Prod.fst := by
    rw [keptAfter, List.append_assoc, List.singleton_append, List.length_append,
      List.length_singleton]
  rw [keptAfter, List.zipIdx_cons, later]
  cases outer : isOuterComma opening closing before t with
  | true => rw [List.filter_cons_of_neg (by simp [outer])]; rfl
  | false => rw [List.filter_cons_of_pos (by simp [outer])]; rfl

theorem inside_step {depth : Nat} (deep : rise opening closing before = depth) (t : Token)
    (tokens : List Token) :
    inside opening closing depth (t :: tokens) =
      let later := inside opening closing (depth + rise opening closing [t]).toNat tokens
      if 1 + depth + rise opening closing [t] = 0 then ⟨[], tokens⟩
      else if isOuterComma opening closing before t then later
      else later.cons t := by
  rw [inside_cons, isOuterComma, deep, rise_singleton]
  cases opens : t.isDelimiter opening with
  | true =>
      have deeper : 1 + (depth : Int) + 1 ≠ 0 := by omega
      have open_ : ((depth : Int) + 1).toNat = depth + 1 := by omega
      simp [deeper, open_]
  | false =>
      cases closes : t.isDelimiter closing with
      | true =>
          have ground : depth = 0 ↔ 1 + (depth : Int) + -1 = 0 := by omega
          have closed : ((depth : Int) + -1).toNat = depth - 1 := by omega
          simp only [Bool.false_eq_true, if_false, if_true, closed]
          exact if_congr ground rfl (by simp)
      | false =>
          have inner : 1 + (depth : Int) ≠ 0 := by omega
          simp [inner, and_comm]

theorem rise_concat {depth : Nat} (deep : rise opening closing before = depth) (t : Token) :
    rise opening closing (before ++ [t]) = depth + rise opening closing [t] := by
  rw [rise_append, deep]

theorem inside_append (before : List Token) {depth : Nat}
    (deep : rise opening closing before = depth)
    (stops : Stops (fun passed t => 1 + rise opening closing (before ++ passed ++ [t]) = 0)
      front tail) :
    inside opening closing depth (front ++ tail) =
      ⟨keptAfter opening closing before front, tail.tail⟩ := by
  induction front generalizing before depth with
  | nil =>
      cases tail with
      | nil => rfl
      | cons t tail =>
          have closes := stops.stopped t rfl
          rw [List.append_nil, rise_concat deep, ← Int.add_assoc] at closes
          rw [List.nil_append, inside_step deep, if_pos closes]
          rfl
  | cons t front ih =>
      obtain ⟨goesOn, stopsLater⟩ := stops.cons
      rw [List.append_nil, rise_concat deep, ← Int.add_assoc] at goesOn
      -- A token that does not close the outer pair leaves no less than nothing open inside it.
      have deepLater : rise opening closing (before ++ [t]) =
          ((depth + rise opening closing [t]).toNat : Int) := by
        have := neg_one_le_rise opening closing t
        rw [rise_concat deep]
        omega
      have later := ih (before ++ [t]) deepLater (by simpa using stopsLater)
      rw [List.cons_append, inside_step deep, if_neg goesOn, keptAfter_cons, later]
      split
      · rfl
      · rfl

theorem between_append (opens : t.isDelimiter opening = true)
    (stops : Stops (Closes opening closing) (t :: front) tail) :
    between opening closing (t :: front ++ tail) =
      ⟨withoutOuterCommas opening closing front, tail.tail⟩ := by
  have one : rise opening closing [t] = 1 := by rw [rise_singleton, if_pos opens]
  rw [List.cons_append, between, if_pos opens, inside_append [] rise_nil]
  · rfl
  · -- The opening bracket is the one that the depth does not count.
    refine stops.cons.2.mono fun passed u => ?_
    rw [Closes, List.cons_append, ← List.singleton_append, rise_append, one]
    rfl

def nesting (tokens : List Token) : Int :=
  height .lParen .rParen tokens + height .lBracket .rBracket tokens

def Level (tokens : List Token) : Prop := ∀ back, back <:+ tokens → nesting back ≤ 0

def EndsValue (before : List Token) (t : Token) : Prop := separates t = true ∧ Level before

theorem nesting_append (front back : List Token) :
    nesting (front ++ back) = nesting front + nesting back := by
  simp only [nesting, height_append]
  omega

theorem depthAfter_eq (depth : Nat) (t : Token) :
    (depthAfter depth t : Int) = max 0 (depth + nesting [t]) := by
  rw [depthAfter, nesting]
  cases kind : t.kind with
  | delimiter d => cases d <;> simp [height, Token.isDelimiter, kind] <;> omega
  | _ => simp [height, Token.isDelimiter, kind]

theorem depth_le_iff (tokens : List Token) (bound : Int) :
    (tokens.foldl depthAfter 0 : Nat) ≤ bound ↔ ∀ back, back <:+ tokens → nesting back ≤ bound := by
  -- The depth is counted from the front on, and the ends of the tokens all grow with the last one.
  induction tokens using List.reverseRecOn generalizing bound with
  | nil => simp [nesting, height]
  | append_singleton tokens t ih =>
      have shift (x : Int) : x + nesting [t] ≤ bound ↔ x ≤ bound - nesting [t] := by omega
      have inner : (tokens.foldl depthAfter 0 : Nat) + nesting [t] ≤ bound ↔
          ∀ back, back <:+ tokens → nesting (back ++ [t]) ≤ bound := by
        simp only [nesting_append, shift, ih]
      rw [List.foldl_concat, depthAfter_eq, Int.max_le, inner]
      simp only [List.suffix_concat_iff]
      constructor
      · rintro ⟨nonneg, bounded⟩ _ (rfl | ⟨back, rfl, within⟩)
        · exact nonneg
        · exact bounded back within
      · intro bounded
        exact ⟨bounded [] (.inl rfl), fun back within => bounded _ (.inr ⟨back, rfl, within⟩)⟩

theorem level_iff_depth (tokens : List Token) : Level tokens ↔ tokens.foldl depthAfter 0 = 0 := by
  rw [Level, ← depth_le_iff]
  omega

instance (tokens : List Token) : Decidable (Level tokens) :=
  decidable_of_iff _ (level_iff_depth tokens).symm

instance (before : List Token) (t : Token) : Decidable (EndsValue before t) :=
  inferInstanceAs (Decidable (_ ∧ _))

theorem value_append {depth : Nat}
    (stops : Stops (fun passed t => separates t = true ∧ passed.foldl depthAfter depth = 0)
      front tail) : value depth (front ++ tail) = ⟨front, tail⟩ := by
  have reached (depth : Nat) (t : Token) :
      (depth = 0 ∧ (t.isDelimiter .comma ∨ t.isDelimiter .semicolon)) ↔
        separates t = true ∧ [].foldl depthAfter depth = 0 := by
    rw [separates, Bool.or_eq_true, and_comm, List.foldl_nil]
  induction front generalizing depth with
  | nil =>
      cases tail with
      | nil => rfl
      | cons t tail =>
          have here := (reached depth t).2 (stops.stopped t rfl)
          rw [List.nil_append, value, if_pos here]
  | cons t front ih =>
      obtain ⟨goesOn, stopsLater⟩ := stops.cons
      rw [List.cons_append, value, if_neg (mt (reached depth t).1 goesOn), ih stopsLater]
      rfl

theorem upTo_append (stops : Stops (fun _ t => t.isDelimiter d = true) front tail) :
    upTo d (front ++ tail) = (⟨front, tail.tail⟩, !tail.isEmpty) := by
  induction front with
  | nil =>
      cases tail with
      | nil => rfl
      | cons t tail =>
          have found : t.isDelimiter d = true := stops.stopped t rfl
          simp [upTo, found]
  | cons t front ih =>
      obtain ⟨goesOn, stopsLater⟩ := stops.cons
      have later := ih stopsLater
      simp only [upTo, Prod.mk.injEq, Window.mk.injEq] at later
      simp [upTo, goesOn, later]

theorem drop_of_getElem? (here : tokens[n]? = some t) :
    tokens.drop n = t :: tokens.drop (n + 1) := by
  obtain ⟨within, rfl⟩ := List.getElem?_eq_some_iff.1 here
  exact List.drop_eq_getElem_cons within

theorem extract_of_getElem? (here : tokens[n]? = some t) (later : n < m) :
    tokens.extract n m = t :: tokens.extract (n + 1) m := by
  have size : m - n = m - (n + 1) + 1 := by omega
  rw [List.extract_eq_take_drop, drop_of_getElem? here, size, List.take_succ_cons]

section Between
variable (opens : ∃ t ∈ tokens[n]?, t.isDelimiter opening = true)
include opens

theorem lt_of_closes (closed : EndsAt (Closes opening closing) tokens n m) : n < m := by
  obtain ⟨u, opened, opens⟩ := opens
  obtain ⟨le, t, here, closes⟩ := closed
  refine Nat.lt_of_le_of_ne le ?_
  rintro rfl
  obtain rfl := Option.mem_unique here opened
  have none : tokens.extract n n = [] := by
    rw [List.extract_eq_take_drop, Nat.sub_self, List.take_zero]
  rw [Closes, none, List.nil_append, rise_singleton, if_pos opens] at closes
  cases closes

theorem between_closed_at (first : IsLeast {m | EndsAt (Closes opening closing) tokens n m} m) :
    between opening closing (tokens.drop n) =
      ⟨withoutOuterCommas opening closing (tokens.extract (n + 1) m), tokens.drop (m + 1)⟩ := by
  have later := lt_of_closes opens first.1
  have stops := stops_of_isLeast first
  obtain ⟨t, here, opens⟩ := opens
  rw [extract_of_getElem? here later] at stops
  rw [← extract_append_drop (Nat.le_of_lt later), extract_of_getElem? here later,
    between_append opens stops, List.tail_drop]

theorem between_open (never : ∀ m, ¬ EndsAt (Closes opening closing) tokens n m) :
    between opening closing (tokens.drop n) =
      ⟨withoutOuterCommas opening closing (tokens.drop (n + 1)), []⟩ := by
  have stops := stops_of_never never
  obtain ⟨t, here, opens⟩ := opens
  rw [drop_of_getElem? here] at stops ⊢
  have read := between_append opens stops
  rwa [List.append_nil] at read

end Between

theorem between_elsewhere (other : ∀ t ∈ tokens[n]?, t.isDelimiter opening = false) :
    between opening closing (tokens.drop n) = ⟨[], tokens.drop n⟩ := by
  rw [← List.head?_drop] at other
  cases left : tokens.drop n with
  | nil => rfl
  | cons t rest => exact between_of_other (other t (by rw [left]; rfl)) closing rest

theorem stops_value (stops : Stops EndsValue front tail) :
    value 0 (front ++ tail) = ⟨front, tail⟩ :=
  value_append (stops.mono fun before t => by rw [EndsValue, level_iff_depth])

/-- Windows from the place `n` on. Between two brackets a window takes all up to the place that
closes its opening bracket, without the outer commas, and leaves what comes after that place; where
the bracket stays open it takes all the rest, and where there is none it takes nothing. A value ends
at the first comma or semicolon in no brackets, and a window up to a delimiter at the first of its
kind. -/
theorem windows_exact (opening closing d : Delimiter) (tokens : List Token) (n : Nat) :
    ((∃ t ∈ tokens[n]?, t.isDelimiter opening = true) →
      (∀ m, IsLeast {m | EndsAt (Closes opening closing) tokens n m} m →
        between opening closing (tokens.drop n) =
          ⟨withoutOuterCommas opening closing (tokens.extract (n + 1) m), tokens.drop (m + 1)⟩) ∧
      ((∀ m, ¬ EndsAt (Closes opening closing) tokens n m) →
        between opening closing (tokens.drop n) =
          ⟨withoutOuterCommas opening closing (tokens.drop (n + 1)), []⟩)) ∧
    ((∀ t ∈ tokens[n]?, t.isDelimiter opening = false) →
      between opening closing (tokens.drop n) = ⟨[], tokens.drop n⟩) ∧
    (∀ m, IsLeast {m | EndsAt EndsValue tokens n m} m →
      value 0 (tokens.drop n) = ⟨tokens.extract n m, tokens.drop m⟩) ∧
    ((∀ m, ¬ EndsAt EndsValue tokens n m) → value 0 (tokens.drop n) = ⟨tokens.drop n, []⟩) ∧
    (∀ m, IsLeast {m | EndsAt (fun _ t => t.isDelimiter d = true) tokens n m} m →
      upTo d (tokens.drop n) = (⟨tokens.extract n m, tokens.drop (m + 1)⟩, true)) ∧
    ((∀ m, ¬ EndsAt (fun _ t => t.isDelimiter d = true) tokens n m) →
      upTo d (tokens.drop n) = (⟨tokens.drop n, []⟩, false)) := by
  refine ⟨fun opens => ⟨fun m => between_closed_at opens, between_open opens⟩, between_elsewhere,
    fun m first => ?_, fun never => ?_, fun m first => ?_, fun never => ?_⟩
  · rw [← extract_append_drop first.1.1]
    exact stops_value (stops_of_isLeast first)
  · have read := stops_value (stops_of_never never)
    rwa [List.append_nil] at read
  · have here : EndsAt (fun _ t => t.isDelimiter d = true) tokens n m := first.1
    have found : tokens.drop m ≠ [] := mt List.drop_eq_nil_iff.1 (Nat.not_le.2 here.lt_length)
    rw [← extract_append_drop first.1.1, upTo_append (stops_of_isLeast first), List.tail_drop,
      List.isEmpty_eq_false_iff.2 found]
    rfl
  · have read := upTo_append (stops_of_never never)
    rwa [List.append_nil] at read

theorem windows_exact_nested :
    let tokens := [TokenKind.delimiter .lParen, .delimiter .lParen, .name "a", .delimiter .comma,
      .name "b", .delimiter .rParen, .delimiter .comma, .name "c", .delimiter .rParen,
      .delimiter .semicolon, .name "d"].map fun kind => Token.write kind "" ⟨0, 0⟩ 0 0
    between .lParen .rParen tokens =
        ⟨tokens.extract 1 6 ++ tokens.extract 7 8, tokens.drop 9⟩ ∧
      value 0 (tokens.drop 7) = ⟨tokens.extract 7 9, tokens.drop 9⟩ ∧
      upTo .semicolon (tokens.drop 10) = (⟨tokens.drop 10, []⟩, false) := by
  intro tokens
  have first {ends : List Token → Token → Prop} {start stop : Nat}
      (here : EndsAt ends tokens start stop) (before : ∀ n < stop, ¬ EndsAt ends tokens start n) :
      IsLeast {n | EndsAt ends tokens start n} stop :=
    ⟨here, fun n ends => Nat.not_lt.1 fun earlier => before n earlier ends⟩
  have closed := ((windows_exact .lParen .rParen .hash tokens 0).1 (by decide)).1 8
    (first (by decide +kernel) (by decide +kernel))
  have ended := (windows_exact .lParen .rParen .hash tokens 7).2.2.1 9
    (first (by decide +kernel) (by decide +kernel))
  have none : ∀ n < tokens.length,
      ¬ EndsAt (fun _ t => t.isDelimiter .semicolon = true) tokens 10 n := by decide +kernel
  have unended := (windows_exact .lParen .rParen .semicolon tokens 10).2.2.2.2.2 fun n ends =>
    none n ends.lt_length ends
  exact ⟨closed.trans (by decide +kernel), ended, unended⟩

end TalAnalysis.Declaration
