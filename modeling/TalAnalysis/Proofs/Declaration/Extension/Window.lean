import TalAnalysis.Proofs.Declaration.Layout

/-!
# Windows when more tokens come

Whatever reads tokens from the front either stops before their end, and then stops there whatever
comes after them, or comes to their end with nothing but layout left. In the second case it may go
on when more tokens come, and then it takes what it has taken and more. `Window.Extends` states this
alternative, and here it is proved of all windows.
-/

namespace TalAnalysis.Declaration

def Window.Extends (after : List Token) (cut whole : Window) : Prop :=
  whole = ⟨cut.inside, cut.rest ++ after⟩ ∨ OnlyLayout cut.rest ∧ cut.inside <+: whole.inside

variable {tokens after : List Token}

theorem dropWhile_append_of_cons {p : Token → Bool} {t : Token} {rest : List Token}
    (stop : tokens.dropWhile p = t :: rest) (after : List Token) :
    (tokens ++ after).dropWhile p = t :: (rest ++ after) := by
  rw [List.dropWhile_append, stop]
  rfl

theorem takeWhile_append_of_cons {p : Token → Bool} {t : Token} {rest : List Token}
    (stop : tokens.dropWhile p = t :: rest) (after : List Token) :
    (tokens ++ after).takeWhile p = tokens.takeWhile p := by
  have cut := List.takeWhile_append_dropWhile (p := p) (l := tokens)
  have other : ¬ p t = true := by rw [Text.not_of_dropWhile stop]; exact Bool.false_ne_true
  rw [stop] at cut
  conv => lhs; rw [← cut, List.append_assoc, List.cons_append]
  rw [List.takeWhile_append_of_pos (fun _ => List.mem_takeWhile_imp),
    List.takeWhile_cons_of_neg other, List.append_nil]

theorem pastSemicolon_append (tokens after : List Token) :
    pastSemicolon (tokens ++ after) = pastSemicolon tokens ++ after ∨
      pastSemicolon tokens = [] := by
  rw [pastSemicolon, pastSemicolon]
  cases stop : tokens.dropWhile fun t => !t.isDelimiter .semicolon with
  | nil => exact .inr rfl
  | cons t rest =>
      rw [dropWhile_append_of_cons stop]
      exact .inl rfl

namespace Window.Extends

theorem nothing (whole : Window) : Window.Extends after ⟨[], []⟩ whole :=
  .inr ⟨.nil, List.nil_prefix⟩

theorem cons {cut whole : Window} (h : Window.Extends after cut whole) (t : Token) :
    Window.Extends after (cut.cons t) (whole.cons t) := by
  rcases h with same | ⟨layout, front⟩
  · exact .inl (congrArg (Window.cons t) same)
  · exact .inr ⟨layout, (List.prefix_cons_inj t).2 front⟩

end Window.Extends

theorem inside_extends (opening closing : Delimiter) (depth : Nat) (tokens after : List Token) :
    Window.Extends after (inside opening closing depth tokens)
      (inside opening closing depth (tokens ++ after)) := by
  fun_induction inside opening closing depth tokens with
  | case1 depth => exact .nothing _
  | case2 depth t tokens opens ih =>
      rw [List.cons_append, inside_cons, if_pos opens]
      exact ih.cons t
  | case3 t tokens opens closes =>
      rw [List.cons_append, inside_cons, if_neg opens, if_pos closes, if_pos rfl]
      exact .inl rfl
  | case4 t tokens opens closes depth ih =>
      rw [List.cons_append, inside_cons, if_neg opens, if_pos closes,
        if_neg (Nat.succ_ne_zero depth)]
      exact ih.cons t
  | case5 depth t tokens opens closes separates ih =>
      rw [List.cons_append, inside_cons, if_neg opens, if_neg closes, if_pos separates]
      exact ih
  | case6 depth t tokens opens closes other ih =>
      rw [List.cons_append, inside_cons, if_neg opens, if_neg closes, if_neg other]
      exact ih.cons t

theorem between_extends (opening closing : Delimiter) (tokens after : List Token) :
    Window.Extends after (between opening closing tokens)
      (between opening closing (tokens ++ after)) := by
  cases tokens with
  | nil => exact .nothing _
  | cons t tokens =>
      rw [List.cons_append, between, between]
      split
      · exact inside_extends opening closing 0 tokens after
      · exact .inl rfl

theorem between_skipLayout_extends (opening closing : Delimiter) (tokens after : List Token) :
    Window.Extends after (between opening closing (skipLayout tokens))
      (between opening closing (skipLayout (tokens ++ after))) := by
  cases stop : skipLayout tokens with
  | nil => exact .nothing _
  | cons t rest =>
      rw [skipLayout, dropWhile_append_of_cons stop, ← List.cons_append]
      exact between_extends opening closing (t :: rest) after

theorem value_extends (depth : Nat) (tokens after : List Token) :
    Window.Extends after (value depth tokens) (value depth (tokens ++ after)) := by
  fun_induction value depth tokens with
  | case1 depth => exact .nothing _
  | case2 depth t tokens ends =>
      rw [List.cons_append, value, if_pos ends]
      exact .inl rfl
  | case3 depth t tokens other ih =>
      rw [List.cons_append, value, if_neg other]
      exact ih.cons t

theorem argument_extends (wholeLine : Bool) (depth : Nat) (tokens after : List Token) :
    Window.Extends after (argument wholeLine depth tokens)
      (argument wholeLine depth (tokens ++ after)) := by
  fun_induction argument wholeLine depth tokens with
  | case1 depth => exact .nothing _
  | case2 depth t tokens ends =>
      rw [List.cons_append, argument, if_pos ends]
      exact .inl rfl
  | case3 depth t tokens line ends =>
      rw [List.cons_append, argument, if_neg line, if_pos ends]
      exact .inl rfl
  | case4 depth t tokens line other deeper ih =>
      rw [List.cons_append, argument, if_neg line, if_neg other]
      exact ih.cons t

theorem sections_cons (depth : Nat) (t : Token) (tokens : List Token) :
    sections depth (t :: tokens) =
      if t.kind.endsLine then
        match tokens with
        | [] => ⟨[], [t]⟩
        | marker :: rest =>
          if marker.kind.marksDirective then sections depth rest else ⟨[], t :: marker :: rest⟩
      else if t.isDelimiter .lParen then sections (depth + 1) tokens
      else if t.isDelimiter .rParen then
        if depth = 0 then ⟨[], tokens⟩ else sections (depth - 1) tokens
      else if t.kind.isWord ∧ depth = 0 then (sections depth tokens).cons t
      else sections depth tokens := by
  rw [sections.eq_def]
  cases depth <;> rfl

theorem sections_extends (depth : Nat) (tokens after : List Token) :
    Window.Extends after (sections depth tokens) (sections depth (tokens ++ after)) := by
  fun_induction sections depth tokens with
  | case1 depth => exact .nothing _
  | case2 depth t ends =>
      -- The mark that would carry the list on may be the first of the tokens that come.
      refine .inr ⟨?_, List.nil_prefix⟩
      intro u member
      exact List.mem_singleton.1 member ▸ isLayout_of_endsLine ends
  | case3 depth t ends marker rest marks ih =>
      rw [List.cons_append, List.cons_append, sections_cons, if_pos ends]
      simpa only [if_pos marks] using ih
  | case4 depth t ends marker rest other =>
      rw [List.cons_append, List.cons_append, sections_cons, if_pos ends]
      simp only [if_neg other]
      exact .inl rfl
  | case5 depth t tokens line opens ih =>
      rw [List.cons_append, sections_cons, if_neg line, if_pos opens]
      exact ih
  | case6 t tokens line opens closes =>
      rw [List.cons_append, sections_cons, if_neg line, if_neg opens, if_pos closes, if_pos rfl]
      exact .inl rfl
  | case7 t tokens line opens closes depth ih =>
      rw [List.cons_append, sections_cons, if_neg line, if_neg opens, if_pos closes,
        if_neg (Nat.succ_ne_zero depth)]
      exact ih
  | case8 depth t tokens line opens closes word ih =>
      rw [List.cons_append, sections_cons, if_neg line, if_neg opens, if_neg closes, if_pos word]
      exact ih.cons t
  | case9 depth t tokens line opens closes other ih =>
      rw [List.cons_append, sections_cons, if_neg line, if_neg opens, if_neg closes, if_neg other]
      exact ih

def ListEnd.append (after : List Token) : ListEnd → ListEnd
  | .another rest => .another (rest ++ after)
  | .closed rest => .closed (rest ++ after)
  | .broken rest => .broken (rest ++ after)

theorem listEnd_append (tokens after : List Token) :
    listEnd (tokens ++ after) = (listEnd tokens).append after ∨
      OnlyLayout tokens ∧ listEnd tokens = .broken [] := by
  rw [listEnd, listEnd]
  cases stop : skipLayout tokens with
  | nil => exact .inr ⟨skipLayout_eq_nil_iff.1 stop, rfl⟩
  | cons t rest =>
      rw [skipLayout, dropWhile_append_of_cons stop]
      refine .inl ?_
      simp only
      split
      · rfl
      · split <;> rfl

end TalAnalysis.Declaration
