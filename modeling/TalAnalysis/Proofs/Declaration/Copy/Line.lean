import Mathlib.Data.List.Forall2
import TalAnalysis.Declaration.DirectiveLine
import TalAnalysis.Proofs.Declaration.Copy.Window
import TalAnalysis.Proofs.Declaration.Extension.Window

namespace TalAnalysis.Declaration.TokenCopy

variable (c : TokenCopy)

/-- The line does not lose its end while tokens come after it. -/
def EndKept : List Token → Prop
  | [] => True
  | t :: ts => if t.kind.endsLine then c.leavesOut t = true → c.tokens ts = [] else EndKept ts

instance decidableEndKept : (ts : List Token) → Decidable (c.EndKept ts)
  | [] => .isTrue trivial
  | t :: ts =>
    have := decidableEndKept ts
    inferInstanceAs (Decidable
      (if t.kind.endsLine then c.leavesOut t = true → c.tokens ts = [] else c.EndKept ts))

/-- The list of sections goes on over the same lines in the copy, and none of these loses its end.
-/
def listKept : Nat → List Token → Bool
  | _, [] => true
  | depth, t :: ts =>
    if t.kind.endsLine then
      match ts with
      | [] => true
      | marker :: rest =>
        if marker.kind.marksDirective then decide (c.EndKept rest) && listKept depth rest
        else (c.tokens (marker :: rest)).head?.all fun u => !u.kind.marksDirective
    else if t.isDelimiter .lParen then listKept (depth + 1) ts
    else if t.isDelimiter .rParen then
      match depth with
      | 0 => true
      | depth + 1 => listKept depth ts
    else listKept depth ts

/-- Nothing but the end of the line is left out right after TARGET, and the sections of a SOURCE go
on alike. -/
structure ItemKept (t : Token) (ts : List Token) : Prop where
  target : Directive.ofSpelling? t.text = some .target →
    ∀ u ∈ ts.head?, c.leavesOut u = true → u.kind.endsLine = true
  source : Directive.ofSpelling? t.text = some .source →
    opensWith (ts.dropWhile fun u => !endsFile u) .lParen = true →
      c.listKept 0 (ts.dropWhile fun u => !endsFile u).tail = true

def ItemsKept (ts : List Token) : Prop :=
  match ts with
  | [] => True
  | t :: ts =>
    if t.kind.endsLine then True
    else if t.kind.isWord then
      have _shorter := (directiveItem_suffix t ts).length_le
      c.ItemKept t ts ∧ ItemsKept (directiveItem t ts).2
    else ItemsKept ts
termination_by ts.length
decreasing_by all_goals simp; try omega

/-- Neither the end of a directive line nor anything that its directives need is left out. -/
structure LineKept (ts : List Token) : Prop where
  ends : c.EndKept ts
  items : c.ItemsKept ts

variable {c} {ts : List Token} {t : Token}

instance : Decidable (c.ItemKept t ts) :=
  decidable_of_iff
    ((Directive.ofSpelling? t.text = some .target →
        ∀ u ∈ ts.head?, c.leavesOut u = true → u.kind.endsLine = true) ∧
      (Directive.ofSpelling? t.text = some .source →
        opensWith (ts.dropWhile fun u => !endsFile u) .lParen = true →
          c.listKept 0 (ts.dropWhile fun u => !endsFile u).tail = true))
    ⟨fun h => ⟨h.1, h.2⟩, fun h => ⟨h.target, h.source⟩⟩

theorem itemsKept_cons (t : Token) (ts : List Token) :
    c.ItemsKept (t :: ts) ↔
      if t.kind.endsLine then True
      else if t.kind.isWord then c.ItemKept t ts ∧ c.ItemsKept (directiveItem t ts).2
      else c.ItemsKept ts := by
  rw [ItemsKept]

instance decidableItemsKept (ts : List Token) : Decidable (c.ItemsKept ts) :=
  match ts with
  | [] => .isTrue (by rw [ItemsKept]; trivial)
  | t :: ts =>
    have _shorter := (directiveItem_suffix t ts).length_le
    have := decidableItemsKept ts
    have := decidableItemsKept (directiveItem t ts).2
    decidable_of_iff _ (itemsKept_cons t ts).symm
termination_by ts.length
decreasing_by all_goals simp; try omega

instance : Decidable (c.LineKept ts) :=
  decidable_of_iff (c.EndKept ts ∧ c.ItemsKept ts) ⟨fun h => ⟨h.1, h.2⟩, fun h => ⟨h.ends, h.items⟩⟩

theorem kept_of_isWord (word : t.kind.isWord = true) : c.leavesOut t = false := by
  apply c.kept_of_not_isLayout
  apply Bool.eq_false_iff.2
  intro layout
  rw [not_isWord_of_isLayout layout] at word
  cases word

theorem EndKept.end_ (h : c.EndKept (t :: ts)) (ends : t.kind.endsLine = true)
    (left : c.leavesOut t = true) : c.tokens (t :: ts) = [] := by
  rw [EndKept, if_pos ends] at h
  rw [c.tokens_cons_leftOut left, h left]

theorem EndKept.tail (h : c.EndKept (t :: ts)) (inLine : t.kind.endsLine = false) :
    c.EndKept ts := by
  rwa [EndKept, if_neg (by simp [inLine])] at h

theorem EndKept.argument_tokens (h : c.EndKept ts) (wholeLine : Bool) (depth : Nat) :
    argument wholeLine depth (c.tokens ts) =
        c.window (argument wholeLine depth ts) ∧
      c.EndKept (argument wholeLine depth ts).rest := by
  induction ts generalizing depth with
  | nil => exact ⟨rfl, trivial⟩
  | cons t ts ih =>
      cases left : c.leavesOut t with
      | true =>
          have other := not_isDelimiter_of_isLayout (c.layout t left)
          cases ends : t.kind.endsLine with
          | true =>
              have stops : argument wholeLine depth (t :: ts) = ⟨[], t :: ts⟩ := by
                rw [argument, if_pos ends]
              rw [stops, window, h.end_ ends left]
              exact ⟨rfl, h⟩
          | false =>
              rw [c.tokens_cons_leftOut left, argument]
              simp only [ends, other, Bool.false_eq_true, false_and, if_false,
                c.window_cons_leftOut left]
              exact ih (h.tail ends) depth
      | false =>
          rw [c.tokens_cons_kept left, argument, argument]
          simp only [endsLine_copy, isDelimiter_copy]
          split
          · rw [window, c.tokens_cons_kept left]
            exact ⟨rfl, h⟩
          · rename_i inLine
            split
            · rw [window, c.tokens_cons_kept left]
              exact ⟨rfl, h⟩
            · have later := ih (h.tail (by simpa using inLine))
              rw [c.window_cons_kept left, (later _).1]
              exact ⟨rfl, (later _).2⟩

theorem EndKept.file_tokens (h : c.EndKept ts) :
    (c.tokens ts).takeWhile (fun u => !endsFile u) = c.tokens (ts.takeWhile fun u => !endsFile u) ∧
      (c.tokens ts).dropWhile (fun u => !endsFile u) =
        c.tokens (ts.dropWhile fun u => !endsFile u) ∧
      c.EndKept (ts.dropWhile fun u => !endsFile u) := by
  induction ts with
  | nil => exact ⟨rfl, rfl, trivial⟩
  | cons t ts ih =>
      have same : endsFile (c.copy t) = endsFile t := by simp [endsFile]
      cases stops : endsFile t with
      | true =>
          rw [List.takeWhile_cons_of_neg (by simp [stops]),
            List.dropWhile_cons_of_neg (by simp [stops])]
          cases left : c.leavesOut t with
          | true =>
              have ends : t.kind.endsLine = true := by
                have other := not_isDelimiter_of_isLayout (c.layout t left)
                simpa [endsFile, other] using stops
              rw [h.end_ ends left]
              exact ⟨rfl, rfl, h⟩
          | false =>
              rw [c.tokens_cons_kept left, List.takeWhile_cons_of_neg (by simp [same, stops]),
                List.dropWhile_cons_of_neg (by simp [same, stops])]
              exact ⟨rfl, rfl, h⟩
      | false =>
          have inLine : t.kind.endsLine = false := by
            simp only [endsFile, Bool.or_eq_false_iff] at stops
            exact stops.1.1
          obtain ⟨taken, left, later⟩ := ih (h.tail inLine)
          rw [List.takeWhile_cons_of_pos (by simp [stops]),
            List.dropWhile_cons_of_pos (by simp [stops])]
          cases out : c.leavesOut t with
          | true =>
              rw [c.tokens_cons_leftOut out, c.tokens_cons_leftOut out]
              exact ⟨taken, left, later⟩
          | false =>
              rw [c.tokens_cons_kept out, c.tokens_cons_kept out,
                List.takeWhile_cons_of_pos (by simp [same, stops]),
                List.dropWhile_cons_of_pos (by simp [same, stops]), taken]
              exact ⟨rfl, left, later⟩

theorem listKept_cons (depth : Nat) (t : Token) (ts : List Token) :
    c.listKept depth (t :: ts) =
      if t.kind.endsLine then
        match ts with
        | [] => true
        | marker :: rest =>
          if marker.kind.marksDirective then decide (c.EndKept rest) && c.listKept depth rest
          else (c.tokens (marker :: rest)).head?.all fun u => !u.kind.marksDirective
      else if t.isDelimiter .lParen then c.listKept (depth + 1) ts
      else if t.isDelimiter .rParen then if depth = 0 then true else c.listKept (depth - 1) ts
      else c.listKept depth ts := by
  rw [listKept.eq_def]
  cases depth <;> rfl

theorem EndKept.sections_tokens {depth : Nat} (h : c.EndKept ts)
    (list : c.listKept depth ts = true) :
    sections depth (c.tokens ts) =
        ⟨(sections depth ts).inside.map c.copy,
          c.tokens (sections depth ts).rest⟩ ∧
      c.EndKept (sections depth ts).rest := by
  fun_induction sections depth ts with
  | case1 => exact ⟨rfl, trivial⟩
  | case2 depth t ends =>
      refine ⟨?_, h⟩
      cases left : c.leavesOut t with
      | true => rw [h.end_ ends left]; rfl
      | false =>
          rw [c.tokens_cons_kept left, tokens_nil, sections_cons, if_pos (by simpa using ends)]
          rfl
  | case3 depth t ends marker rest marks ih =>
      have kept : c.leavesOut marker = false := by
        apply c.kept_of_not_isLayout
        rcases kind_of_marksDirective marks with kind | kind <;> rw [kind] <;> rfl
      have kept' : c.leavesOut t = false := by
        apply Bool.eq_false_iff.2
        intro left
        have none := h.end_ ends left
        rw [c.tokens_cons_leftOut left, c.tokens_cons_kept kept] at none
        cases none
      rw [listKept_cons, if_pos ends] at list
      simp only [if_pos marks, Bool.and_eq_true, decide_eq_true_eq] at list
      rw [c.tokens_cons_kept kept', c.tokens_cons_kept kept, sections_cons,
        if_pos (by simpa using ends)]
      simp only [marksDirective_copy, if_pos marks]
      exact ih list.1 list.2
  | case4 depth t ends marker rest other =>
      refine ⟨?_, h⟩
      cases left : c.leavesOut t with
      | true => rw [h.end_ ends left]; rfl
      | false =>
          rw [listKept_cons, if_pos ends] at list
          simp only [if_neg other] at list
          rw [c.tokens_cons_kept left, sections_cons, if_pos (by simpa using ends)]
          cases found : c.tokens (marker :: rest) with
          | nil => rfl
          | cons u us =>
              have unmarked : u.kind.marksDirective = false := by simpa [found] using list
              simp [unmarked]
  | case5 depth t ts inLine opens ih =>
      have kept := c.kept_of_isDelimiter opens
      rw [listKept_cons, if_neg inLine, if_pos opens] at list
      rw [c.tokens_cons_kept kept, sections_cons, if_neg (by simpa using inLine),
        if_pos (by simpa using opens)]
      exact ih (h.tail (by simpa using inLine)) list
  | case6 t ts inLine other closes =>
      have kept := c.kept_of_isDelimiter closes
      rw [c.tokens_cons_kept kept, sections_cons, if_neg (by simpa using inLine),
        if_neg (by simpa using other), if_pos (by simpa using closes), if_pos rfl]
      exact ⟨rfl, h.tail (by simpa using inLine)⟩
  | case7 t ts inLine other closes depth ih =>
      have kept := c.kept_of_isDelimiter closes
      rw [listKept_cons, if_neg inLine, if_neg other, if_pos closes,
        if_neg (Nat.succ_ne_zero depth)] at list
      rw [c.tokens_cons_kept kept, sections_cons, if_neg (by simpa using inLine),
        if_neg (by simpa using other), if_pos (by simpa using closes),
        if_neg (Nat.succ_ne_zero depth)]
      exact ih (h.tail (by simpa using inLine)) list
  | case8 depth t ts inLine other other' word ih =>
      have kept : c.leavesOut t = false := kept_of_isWord word.1
      rw [listKept_cons, if_neg inLine, if_neg other, if_neg other'] at list
      rw [c.tokens_cons_kept kept, sections_cons, if_neg (by simpa using inLine),
        if_neg (by simpa using other), if_neg (by simpa using other'), if_pos (by simpa using word)]
      obtain ⟨same, later⟩ := ih (h.tail (by simpa using inLine)) list
      rw [same]
      exact ⟨rfl, later⟩
  | case9 depth t ts inLine other other' word ih =>
      rw [listKept_cons, if_neg inLine, if_neg other, if_neg other'] at list
      have later := ih (h.tail (by simpa using inLine)) list
      cases left : c.leavesOut t with
      | true =>
          rw [c.tokens_cons_leftOut left]
          exact later
      | false =>
          rw [c.tokens_cons_kept left, sections_cons, if_neg (by simpa using inLine),
            if_neg (by simpa using other), if_neg (by simpa using other'),
            if_neg (by simpa using word)]
          exact later

structure DirectiveCopies (c : TokenCopy) (item item' : DirectiveItem) : Prop where
  token : item'.token = c.copy item.token
  name : item'.name = item.name
  file : item'.file = item.file
  sections : item'.sections = item.sections.map c.copy
  argument : item'.argument? = item.argument? ∨
    (∃ t, c.leavesOut t = true) ∧ item.argument? = some "" ∧ item'.argument? = none

def Follows (c : TokenCopy) (item item' : DirectiveItem × List Token) : Prop :=
  DirectiveCopies c item.1 item'.1 ∧ item'.2 = c.tokens item.2 ∧ c.EndKept item.2

theorem EndKept.opensWith_tokens {u : Token} {rest : List Token} (h : c.EndKept (u :: rest))
    (stops : endsFile u = true) (d : Delimiter) :
    opensWith (c.tokens (u :: rest)) d = opensWith (u :: rest) d := by
  cases left : c.leavesOut u with
  | true =>
      have other := not_isDelimiter_of_isLayout (c.layout u left)
      have ends : u.kind.endsLine = true := by simpa [endsFile, other] using stops
      rw [h.end_ ends left]
      simp [opensWith, other]
  | false =>
      rw [c.tokens_cons_kept left]
      simp [opensWith]

theorem EndKept.sourceItem_tokens (h : c.EndKept ts) (item : c.ItemKept t ts)
    (source : Directive.ofSpelling? t.text = some .source) :
    Follows c (sourceItem t ts) (sourceItem (c.copy t) (c.tokens ts)) := by
  obtain ⟨taken, left, later⟩ := h.file_tokens
  have list := item.source source
  simp only [sourceItem, taken, left, joinText_tokens]
  cases found : ts.dropWhile (fun u => !endsFile u) with
  | nil => exact ⟨⟨rfl, rfl, rfl, rfl, .inl rfl⟩, rfl, trivial⟩
  | cons u rest =>
      have stops : endsFile u = true := by simpa using Text.not_of_dropWhile found
      rw [found] at later list
      rw [later.opensWith_tokens stops]
      cases opens : opensWith (u :: rest) .lParen with
      | false => exact ⟨⟨rfl, rfl, rfl, rfl, .inl rfl⟩, rfl, later⟩
      | true =>
          have isOpen : u.isDelimiter .lParen = true := by simpa [opensWith] using opens
          have inLine : u.kind.endsLine = false := by
            apply Bool.eq_false_iff.2
            intro ends
            rw [not_isDelimiter_of_isLayout (isLayout_of_endsLine ends)] at isOpen
            cases isOpen
          obtain ⟨same, last⟩ := (later.tail inLine).sections_tokens (list opens)
          rw [c.tokens_cons_kept (c.kept_of_isDelimiter isOpen), List.tail_cons, List.tail_cons,
            if_pos rfl, if_pos rfl, same]
          exact ⟨⟨rfl, rfl, rfl, rfl, .inl rfl⟩, rfl, last⟩

theorem EndKept.targetItem_tokens (h : c.EndKept ts) (item : c.ItemKept t ts)
    (target : Directive.ofSpelling? t.text = some .target) :
    Follows c (targetItem t ts) (targetItem (c.copy t) (c.tokens ts)) := by
  have next := item.target target
  cases ts with
  | nil => exact ⟨⟨rfl, rfl, rfl, rfl, .inl rfl⟩, rfl, trivial⟩
  | cons u rest =>
      cases left : c.leavesOut u with
      | true =>
          have ends := next u rfl left
          rw [h.end_ ends left, targetItem, targetItem,
            if_pos (.inl ends)]
          exact ⟨⟨rfl, rfl, rfl, rfl, .inl rfl⟩, (h.end_ ends left).symm, h⟩
      | false =>
          rw [c.tokens_cons_kept left, targetItem, targetItem]
          simp only [endsLine_copy, isDelimiter_copy, text_copy]
          split
          · exact ⟨⟨rfl, rfl, rfl, rfl, .inl rfl⟩, (c.tokens_cons_kept left rest).symm, h⟩
          · rename_i other
            have inLine : u.kind.endsLine = false := by
              apply Bool.eq_false_iff.2
              intro ends
              exact other (.inl ends)
            exact ⟨⟨rfl, rfl, rfl, rfl, .inl rfl⟩, rfl, h.tail inLine⟩

theorem EndKept.argumentItem_tokens (h : c.EndKept ts) (t : Token) (name : String)
    (wholeLine : Bool) :
    Follows c (argumentItem t name wholeLine ts)
      (argumentItem (c.copy t) name wholeLine (c.tokens ts)) := by
  obtain ⟨same, later⟩ := h.argument_tokens wholeLine 0
  refine ⟨⟨rfl, rfl, rfl, rfl, ?_⟩, by rw [argumentItem, same]; rfl, later⟩
  simp only [argumentItem, same, window, joinText_tokens]
  cases found : (argument wholeLine 0 ts).inside with
  | nil => exact .inl rfl
  | cons u inside =>
      cases copied : c.tokens (u :: inside) with
      | nil =>
          refine .inr ⟨⟨u, ?_⟩, ?_, rfl⟩
          · apply (Bool.eq_false_or_eq_true (c.leavesOut u)).resolve_right
            intro kept
            rw [c.tokens_cons_kept kept] at copied
            cases copied
          · rw [← c.joinText_tokens, copied]
            rfl
      | cons => exact .inl rfl

theorem EndKept.directiveItem_tokens (h : c.EndKept ts) (item : c.ItemKept t ts) :
    Follows c (directiveItem t ts) (directiveItem (c.copy t) (c.tokens ts)) := by
  simp only [directiveItem, text_copy]
  split
  · exact h.sourceItem_tokens item ‹_›
  · exact h.targetItem_tokens item ‹_›
  · rename_i d _ _ found
    cases d.form with
    | simple => exact ⟨⟨rfl, rfl, rfl, rfl, .inl rfl⟩, rfl, h⟩
    | complex => exact h.argumentItem_tokens t _ _
  · exact h.argumentItem_tokens t _ _

theorem LineKept.directiveLine_tokens (h : c.LineKept ts) :
    List.Forall₂ (DirectiveCopies c) (directiveLine ts).1 (directiveLine (c.tokens ts)).1 ∧
      (directiveLine (c.tokens ts)).2 = c.tokens (directiveLine ts).2 := by
  have nothing : directiveLine [] = ([], []) := by rw [directiveLine]
  obtain ⟨ends, items⟩ := h
  fun_induction directiveLine ts with
  | case1 =>
      rw [tokens_nil, nothing]
      exact ⟨.nil, rfl⟩
  | case2 t rest last =>
      cases left : c.leavesOut t with
      | true =>
          have none := ends.end_ last left
          rw [none, nothing]
          rw [c.tokens_cons_leftOut left] at none
          exact ⟨.nil, none.symm⟩
      | false =>
          rw [c.tokens_cons_kept left, directiveLine, if_pos (by simpa using last)]
          exact ⟨.nil, rfl⟩
  | case3 t rest inLine word _ others ih =>
      rw [itemsKept_cons, if_neg inLine, if_pos word] at items
      have onLine : t.kind.endsLine = false := by simpa using inLine
      obtain ⟨item, left, later⟩ := (ends.tail onLine).directiveItem_tokens items.1
      obtain ⟨same, last⟩ := ih later items.2
      rw [c.tokens_cons_kept (kept_of_isWord word), directiveLine,
        if_neg (by simp [onLine]), if_pos (by simpa using word), left]
      exact ⟨.cons item same, last⟩
  | case4 t rest inLine other ih =>
      rw [itemsKept_cons, if_neg inLine, if_neg other] at items
      have onLine : t.kind.endsLine = false := by simpa using inLine
      have later := ih (ends.tail onLine) items
      cases left : c.leavesOut t with
      | true =>
          rw [c.tokens_cons_leftOut left]
          exact later
      | false =>
          rw [c.tokens_cons_kept left, directiveLine, if_neg (by simp [onLine]),
            if_neg (by simpa using other)]
          exact later

end TalAnalysis.Declaration.TokenCopy
