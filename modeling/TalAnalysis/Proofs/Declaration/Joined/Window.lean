import TalAnalysis.Proofs.Declaration.Extension.Window
import TalAnalysis.Proofs.Declaration.Lists.Item
import TalAnalysis.Proofs.Lexer.Joined

namespace TalAnalysis

namespace Token

variable {t u first : Token} {further plain joined : List Token} {α : Type}

theorem not_endsLine_of_isName (isName : t.kind.isName = true) : t.kind.endsLine = false := by
  obtain ⟨name, kind⟩ := Declaration.kind_of_isName isName
  rw [kind]
  rfl

theorem not_marksPointer_of_isName (isName : t.kind.isName = true) :
    t.kind.marksPointer = false := by
  obtain ⟨name, kind⟩ := Declaration.kind_of_isName isName
  rw [kind]
  rfl

theorem not_marksDirective_of_isName (isName : t.kind.isName = true) :
    t.kind.marksDirective = false := by
  obtain ⟨name, kind⟩ := Declaration.kind_of_isName isName
  rw [kind]
  rfl

theorem not_isDelimiter_of_isName (isName : t.kind.isName = true) (d : Delimiter) :
    t.isDelimiter d = false :=
  Declaration.name_isDelimiter ⟨t, isName⟩ d

namespace Joins

theorem dropWhile {passes : Token → Bool} {names : Bool} (h : Joins plain joined)
    (alike : ∀ t : Token, t.kind.isName = true → passes t = names) :
    Joins (plain.dropWhile passes) (joined.dropWhile passes) := by
  induction h with
  | nil => exact .nil
  | @same t plain joined single others ih =>
      cases pass : passes t with
      | true => rwa [List.dropWhile_cons_of_pos pass, List.dropWhile_cons_of_pos pass]
      | false =>
          rw [List.dropWhile_cons_of_neg (by simp [pass]),
            List.dropWhile_cons_of_neg (by simp [pass])]
          exact .same single others
  | @joined first further t plain joined h others ih =>
      cases names with
      | true =>
          have pass (u : Token) (member : u ∈ first :: further) : passes u = true :=
            alike u (h.names u member).1
          rw [List.dropWhile_cons_of_pos (alike t h.isName), ← List.cons_append,
            List.dropWhile_append_of_pos pass]
          exact ih
      | false =>
          rw [List.dropWhile_cons_of_neg (by simp [alike first h.single.1]),
            List.dropWhile_cons_of_neg (by simp [alike t h.isName])]
          exact .joined h others

theorem takeWhile {passes : Token → Bool} (h : Joins plain joined)
    (alike : ∀ t : Token, t.kind.isName = true → passes t = true) :
    Joins (plain.takeWhile passes) (joined.takeWhile passes) := by
  induction h with
  | nil => exact .nil
  | @same t plain joined single others ih =>
      cases pass : passes t with
      | true =>
          rw [List.takeWhile_cons_of_pos pass, List.takeWhile_cons_of_pos pass]
          exact .same single ih
      | false =>
          rw [List.takeWhile_cons_of_neg (by simp [pass]),
            List.takeWhile_cons_of_neg (by simp [pass])]
          exact .nil
  | @joined first further t plain joined h others ih =>
      have pass (u : Token) (member : u ∈ first :: further) : passes u = true :=
        alike u (h.names u member).1
      rw [List.takeWhile_cons_of_pos (alike t h.isName), ← List.cons_append,
        List.takeWhile_append_of_pos pass]
      exact .joined h ih

theorem of_not_isName {rest : List Token} (h : Joins plain (t :: rest))
    (other : t.kind.isName = false) : ∃ rest', plain = t :: rest' ∧ Joins rest' rest := by
  cases h with
  | same single others => exact ⟨_, rfl, others⟩
  | joined h => rw [h.isName] at other; cases other

theorem tail (h : Joins plain joined) (other : ∀ t ∈ joined.head?, t.kind.isName = false) :
    Joins plain.tail joined.tail := by
  cases h with
  | nil => exact .nil
  | same single others => exact others
  | joined h others =>
      have isName := h.isName
      rw [other _ rfl] at isName
      cases isName

theorem tail_dropWhile {passes : Token → Bool} (h : Joins plain joined)
    (alike : ∀ t : Token, t.kind.isName = true → passes t = true) :
    Joins (plain.dropWhile passes).tail (joined.dropWhile passes).tail := by
  refine (h.dropWhile alike).tail fun t first => Bool.eq_false_iff.2 fun isName => ?_
  obtain ⟨rest, found⟩ := List.head?_eq_some_iff.1 first
  have stops := Text.not_of_dropWhile found
  rw [alike t isName] at stops
  cases stops

theorem map_head? {f : Token → α} {names : α} (h : Joins plain joined)
    (alike : ∀ t : Token, t.kind.isName = true → f t = names) :
    plain.head?.map f = joined.head?.map f := by
  cases h with
  | nil => rfl
  | same => rfl
  | joined h others =>
      rw [List.head?_cons, List.head?_cons, Option.map_some, Option.map_some, alike _ h.single.1,
        alike _ h.isName]

end Joins

theorem pieces_run {start stop : Nat} {text : List Char} (h : NameRun start further text stop)
    (others : List Token) :
    String.join (pieces (some start) (further ++ others)) =
      String.ofList text ++ String.join (pieces (some stop) others) := by
  induction h with
  | none => simp
  | @more start stop name names text single gap run ih =>
      simp only [List.cons_append, pieces, Option.any_some, gap, decide_true, if_true,
        String.join_cons, ih]
      apply String.toList_inj.1
      simp

theorem pieces_joins (h : Joins plain joined) (lastStop : Option Nat) :
    String.join (pieces lastStop plain) = String.join (pieces lastStop joined) := by
  induction h generalizing lastStop with
  | nil => rfl
  | same single others ih => simp only [pieces, String.join_cons, ih]
  | @joined first further t plain joined h others ih =>
      obtain ⟨text, run, whole⟩ := h.run
      simp only [pieces, String.join_cons, pieces_run run, h.start, whole, ih]
      apply String.toList_inj.1
      simp

theorem Joins.filter {keeps : Token → Bool} (h : Joins plain joined)
    (names : ∀ t : Token, t.kind.isName = true → keeps t = true) :
    Joins (plain.filter keeps) (joined.filter keeps) := by
  induction h with
  | nil => exact .nil
  | @same t plain joined single others ih =>
      cases keep : keeps t with
      | true =>
          rw [List.filter_cons_of_pos keep, List.filter_cons_of_pos keep]
          exact .same single ih
      | false =>
          rw [List.filter_cons_of_neg (by simp [keep]), List.filter_cons_of_neg (by simp [keep])]
          exact ih
  | @joined first further t plain joined h others ih =>
      have all : (first :: further).filter keeps = first :: further :=
        List.filter_eq_self.2 fun u member => names u (h.names u member).1
      rw [List.filter_cons_of_pos (names t h.isName), ← List.cons_append, List.filter_append, all]
      exact .joined h ih

theorem Joins.joinText (h : Joins plain joined) : Token.joinText plain = Token.joinText joined := by
  refine pieces_joins (h.filter fun t isName => ?_) none
  rw [Declaration.name_not_isLayout ⟨t, isName⟩]
  rfl

end Token

namespace Declaration
open Token

variable {plain joined further : List Token} {first t : Token}

theorem skipLayout_joins (h : Joins plain joined) :
    Joins (skipLayout plain) (skipLayout joined) :=
  h.dropWhile fun t isName => name_not_isLayout ⟨t, isName⟩

theorem skipPointers_joins (h : Joins plain joined) :
    Joins (skipPointers plain) (skipPointers joined) :=
  h.dropWhile fun _ isName => not_marksPointer_of_isName isName

theorem pastDelimiter_joins (h : Joins plain joined) (d : Delimiter) :
    Joins (plain.dropWhile fun t => !t.isDelimiter d).tail
      (joined.dropWhile fun t => !t.isDelimiter d).tail :=
  h.tail_dropWhile fun t isName => by rw [not_isDelimiter_of_isName isName, Bool.not_false]

theorem pastSemicolon_joins (h : Joins plain joined) :
    Joins (pastSemicolon plain) (pastSemicolon joined) := pastDelimiter_joins h .semicolon

theorem opensWith_joins (h : Joins plain joined) (d : Delimiter) :
    opensWith plain d = opensWith joined d := by
  rw [opensWith, opensWith, h.map_head? fun t isName => not_isDelimiter_of_isName isName d]

theorem skipLayout_names (names : ∀ u ∈ further, u.IsSingle) (several : further ≠ [])
    (rest : List Token) : skipLayout (further ++ rest) = further ++ rest := by
  obtain ⟨u, others, rfl⟩ := List.exists_cons_of_ne_nil several
  rw [List.cons_append, skipLayout, List.dropWhile_cons_of_neg]
  simp [name_not_isLayout ⟨u, (names u List.mem_cons_self).1⟩]

theorem pastSemicolon_names (names : ∀ u ∈ further, u.IsSingle) (rest : List Token) :
    pastSemicolon (further ++ rest) = pastSemicolon rest := by
  rw [pastSemicolon, List.dropWhile_append_of_pos]
  · rfl
  · intro u member
    rw [not_isDelimiter_of_isName (names u member).1, Bool.not_false]

structure Window.Joins (plain joined : Window) : Prop where
  inside : Token.Joins plain.inside joined.inside
  rest : Token.Joins plain.rest joined.rest

theorem Window.Joins.cons {v w : Window} (h : v.Joins w) (single : t.isJoined = false) :
    (v.cons t).Joins (w.cons t) := ⟨.same single h.inside, h.rest⟩

theorem inside_joins (h : Joins plain joined) (opening closing : Delimiter) (depth : Nat) :
    (inside opening closing depth plain).Joins (inside opening closing depth joined) := by
  induction h generalizing depth with
  | nil => exact ⟨.nil, .nil⟩
  | @same t plain joined single others ih =>
      rw [inside_cons, inside_cons]
      split_ifs
      · exact (ih (depth + 1)).cons single
      · exact ⟨.nil, others⟩
      · exact (ih (depth - 1)).cons single
      · exact ih depth
      · exact (ih depth).cons single
  | @joined first further t plain joined h others ih =>
      have names : ∀ u ∈ first :: further, ∀ d, u.isDelimiter d = false :=
        fun u member => not_isDelimiter_of_isName (h.names u member).1
      have other := not_isDelimiter_of_isName h.isName
      rw [← List.cons_append, inside_append_plain names, inside_cons]
      simp only [other, Bool.false_eq_true, and_false, if_false]
      exact ⟨.joined h (ih depth).inside, (ih depth).rest⟩

theorem between_joins (h : Joins plain joined) (opening closing : Delimiter) :
    (between opening closing plain).Joins (between opening closing joined) := by
  cases h with
  | nil => exact ⟨.nil, .nil⟩
  | same single others =>
      rw [between, between]
      split
      · exact inside_joins others opening closing 0
      · exact ⟨.nil, .same single others⟩
  | joined h others =>
      rw [between_of_other (not_isDelimiter_of_isName h.single.1 opening),
        between_of_other (not_isDelimiter_of_isName h.isName opening)]
      exact ⟨.nil, .joined h others⟩

theorem between_names (names : ∀ u ∈ further, u.IsSingle) (several : further ≠ [])
    (opening closing : Delimiter) (rest : List Token) :
    between opening closing (further ++ rest) = ⟨[], further ++ rest⟩ := by
  obtain ⟨u, others, rfl⟩ := List.exists_cons_of_ne_nil several
  have isName := (names u List.mem_cons_self).1
  exact between_of_other (not_isDelimiter_of_isName isName opening) closing _

theorem value_names (names : ∀ u ∈ further, u.IsSingle) (depth : Nat) (rest : List Token) :
    (value depth (further ++ rest)).rest = (value depth rest).rest := by
  induction further with
  | nil => rfl
  | cons u further ih =>
      obtain ⟨single, names⟩ := List.forall_mem_cons.1 names
      rw [List.cons_append, value]
      simp only [depthAfter, not_isDelimiter_of_isName single.1, Bool.false_eq_true, or_self,
        and_false, if_false]
      exact ih names

theorem value_joins (h : Joins plain joined) (depth : Nat) :
    Joins (value depth plain).rest (value depth joined).rest := by
  induction h generalizing depth with
  | nil => exact .nil
  | @same t plain joined single others ih =>
      rw [value, value]
      split
      · exact .same single others
      · exact ih _
  | @joined first further t plain joined h others ih =>
      have other := not_isDelimiter_of_isName h.isName
      rw [← List.cons_append, value_names h.names, value]
      simp only [depthAfter, other, Bool.false_eq_true, or_self, and_false, if_false]
      exact ih depth

inductive ListEnd.Joins : ListEnd → ListEnd → Prop
  | another {plain joined : List Token} (h : Token.Joins plain joined) :
      Joins (.another plain) (.another joined)
  | closed {plain joined : List Token} (h : Token.Joins plain joined) :
      Joins (.closed plain) (.closed joined)
  | broken {plain joined : List Token} (h : Token.Joins plain joined) :
      Joins (.broken plain) (.broken joined)

namespace ListEnd.Joins

variable {e : ListEnd} {rest : List Token}

theorem of_another (h : e.Joins (.another rest)) :
    ∃ rest', e = .another rest' ∧ Token.Joins rest' rest := by
  cases h with
  | another h => exact ⟨_, rfl, h⟩

theorem of_closed (h : e.Joins (.closed rest)) :
    ∃ rest', e = .closed rest' ∧ Token.Joins rest' rest := by
  cases h with
  | closed h => exact ⟨_, rfl, h⟩

theorem of_broken (h : e.Joins (.broken rest)) :
    ∃ rest', e = .broken rest' ∧ Token.Joins rest' rest := by
  cases h with
  | broken h => exact ⟨_, rfl, h⟩

end ListEnd.Joins

theorem listEnd_joins (h : Joins plain joined) : (listEnd plain).Joins (listEnd joined) := by
  have front := skipLayout_joins h
  rw [listEnd, listEnd]
  generalize skipLayout plain = plain at front ⊢
  generalize skipLayout joined = joined at front ⊢
  cases front with
  | nil => exact .broken .nil
  | same single others =>
      simp only
      split_ifs
      · exact .another others
      · exact .closed others
      · exact .broken (.same single others)
  | joined h others =>
      simp only [not_isDelimiter_of_isName h.single.1, not_isDelimiter_of_isName h.isName,
        Bool.false_eq_true, if_false]
      exact .broken (.joined h others)

theorem listEnd_names (names : ∀ u ∈ further, u.IsSingle) (several : further ≠ [])
    (rest : List Token) : listEnd (further ++ rest) = .broken (further ++ rest) := by
  rw [listEnd, skipLayout_names names several]
  obtain ⟨u, others, rfl⟩ := List.exists_cons_of_ne_nil several
  simp only [List.cons_append, not_isDelimiter_of_isName (names u List.mem_cons_self).1,
    Bool.false_eq_true, if_false]

end Declaration
end TalAnalysis
