import TalAnalysis.Proofs.Declaration.Directive.Line
import TalAnalysis.Proofs.Declaration.Joined.Item
import TalAnalysis.Proofs.Declaration.Origin

namespace TalAnalysis

def namesDirective (name : String) : Bool := (Directive.ofSpelling? name).isSome

theorem ofSpelling?_of_spaced {name : String} (several : spaced name = true) :
    Directive.ofSpelling? name = none := by
  have noSpace : ∀ d ∈ Directive.all, ' ' ∉ d.spelling.toList := by decide
  refine findWord?_eq_none_iff.2 fun d member => Bool.eq_false_iff.2 fun same => ?_
  have space : ' ' ∈ name.toList := by simpa [spaced] using several
  exact noSpace d member (Text.mem_of_sameSpelling same rfl rfl space)

theorem namesDirective_of_spaced {name : String} (several : spaced name = true) :
    namesDirective name = false := by
  rw [namesDirective, ofSpelling?_of_spaced several]
  rfl

namespace Declaration
open Token

variable {plain joined further : List Token} {first t : Token}

theorem argument_names (names : ∀ u ∈ further, u.IsSingle) (wholeLine : Bool) (depth : Nat)
    (rest : List Token) :
    (argument wholeLine depth (further ++ rest)).rest = (argument wholeLine depth rest).rest := by
  induction further with
  | nil => rfl
  | cons u further ih =>
      obtain ⟨single, names⟩ := List.forall_mem_cons.1 names
      rw [List.cons_append, argument]
      simp only [not_endsLine_of_isName single.1, not_isDelimiter_of_isName single.1,
        Bool.false_eq_true, false_and, if_false]
      exact ih names

theorem argument_joins (h : Joins plain joined) (wholeLine : Bool) (depth : Nat) :
    Joins (argument wholeLine depth plain).rest (argument wholeLine depth joined).rest := by
  induction h generalizing depth with
  | nil => exact .nil
  | @same t plain joined single others ih =>
      rw [argument, argument]
      split
      · exact .same single others
      · split
        · exact .same single others
        · exact ih _
  | @joined first further t plain joined h others ih =>
      rw [← List.cons_append, argument_names h.names, argument]
      simp only [not_endsLine_of_isName h.isName, not_isDelimiter_of_isName h.isName,
        Bool.false_eq_true, false_and, if_false]
      exact ih depth

theorem sections_names (names : ∀ u ∈ further, u.IsSingle) (depth : Nat) (rest : List Token) :
    sections depth (further ++ rest) =
      ⟨(if depth = 0 then further else []) ++ (sections depth rest).inside,
        (sections depth rest).rest⟩ := by
  induction further with
  | nil => split <;> rfl
  | cons u further ih =>
      obtain ⟨single, names⟩ := List.forall_mem_cons.1 names
      rw [List.cons_append, sections_cons]
      simp only [not_endsLine_of_isName single.1, not_isDelimiter_of_isName single.1,
        isWord_of_isName single.1, Bool.false_eq_true, true_and, if_false, ih names]
      split <;> rfl

theorem not_isName_of_endsLine (ends : t.kind.endsLine = true) : t.kind.isName = false :=
  Bool.eq_false_iff.2 fun isName => by
    rw [not_endsLine_of_isName isName] at ends
    cases ends

theorem not_isName_of_isDelimiter {d : Delimiter} (is : t.isDelimiter d = true) :
    t.kind.isName = false :=
  Bool.eq_false_iff.2 fun isName => by
    rw [not_isDelimiter_of_isName isName] at is
    cases is

theorem not_isJoined_of_not_isName (other : t.kind.isName = false) : t.isJoined = false := by
  rw [isJoined, other, Bool.false_and]

theorem sections_joins (h : Joins plain joined) (depth : Nat) :
    (sections depth plain).Joins (sections depth joined) := by
  fun_induction sections depth joined generalizing plain with
  | case1 depth =>
      cases h
      exact ⟨.nil, .nil⟩
  | case2 depth t ends =>
      have other := not_isName_of_endsLine ends
      obtain ⟨rest, rfl, others⟩ := h.of_not_isName other
      cases others
      rw [sections_cons, if_pos ends]
      exact ⟨.nil, .same (not_isJoined_of_not_isName other) .nil⟩
  | case3 depth t ends marker rest marks ih =>
      have other : marker.kind.isName = false := Bool.eq_false_iff.2 fun isName =>
        Bool.false_ne_true ((not_marksDirective_of_isName isName).symm.trans marks)
      obtain ⟨_, rfl, next⟩ := h.of_not_isName (not_isName_of_endsLine ends)
      obtain ⟨rest', rfl, others⟩ := next.of_not_isName other
      rw [sections_cons, if_pos ends]
      simp only [if_pos marks]
      exact ih others
  | case4 depth t ends marker rest other =>
      have single := not_isJoined_of_not_isName (not_isName_of_endsLine ends)
      obtain ⟨tokens, rfl, others⟩ := h.of_not_isName (not_isName_of_endsLine ends)
      rw [sections_cons, if_pos ends]
      cases others with
      | same single' others =>
          simp only [if_neg other]
          exact ⟨.nil, .same single (.same single' others)⟩
      | joined name others =>
          have unmarked := not_marksDirective_of_isName name.single.1
          simp only [unmarked, Bool.false_eq_true, if_false]
          exact ⟨.nil, .same single (.joined name others)⟩
  | case5 depth t tokens inLine opens ih =>
      obtain ⟨tokens', rfl, others⟩ := h.of_not_isName (not_isName_of_isDelimiter opens)
      rw [sections_cons, if_neg inLine, if_pos opens]
      exact ih others
  | case6 t tokens inLine other closes =>
      obtain ⟨tokens', rfl, others⟩ := h.of_not_isName (not_isName_of_isDelimiter closes)
      rw [sections_cons, if_neg inLine, if_neg other, if_pos closes, if_pos rfl]
      exact ⟨.nil, others⟩
  | case7 t tokens inLine other closes depth ih =>
      obtain ⟨tokens', rfl, others⟩ := h.of_not_isName (not_isName_of_isDelimiter closes)
      rw [sections_cons, if_neg inLine, if_neg other, if_pos closes,
        if_neg (Nat.succ_ne_zero depth)]
      exact ih others
  | case8 depth t tokens inLine other other' word ih =>
      cases h with
      | same single others =>
          rw [sections_cons, if_neg inLine, if_neg other, if_neg other', if_pos word]
          exact (ih others).cons single
      | joined name others =>
          rw [← List.cons_append, sections_names name.names, if_pos word.2]
          exact ⟨.joined name (ih others).inside, (ih others).rest⟩
  | case9 depth t tokens inLine other other' word ih =>
      cases h with
      | same single others =>
          rw [sections_cons, if_neg inLine, if_neg other, if_neg other', if_neg word]
          exact ih others
      | joined name others =>
          have deep : depth ≠ 0 := fun here => word ⟨isWord_of_isName name.isName, here⟩
          rw [← List.cons_append, sections_names name.names, if_neg deep]
          exact ih others

structure DirectiveItem.Joins (plain joined : DirectiveItem) : Prop where
  name : plain.name = joined.name
  file : plain.file = joined.file
  sections : Token.Joins plain.sections joined.sections

theorem endsFile_of_isName (isName : t.kind.isName = true) : (!endsFile t) = true := by
  simp [endsFile, not_endsLine_of_isName isName, not_isDelimiter_of_isName isName]

theorem sourceItem_joins (h : Joins plain joined) (t : Token) :
    (sourceItem t plain).1.Joins (sourceItem t joined).1 ∧
      Joins (sourceItem t plain).2 (sourceItem t joined).2 := by
  have file := (h.takeWhile fun t => endsFile_of_isName).joinText
  have left : Token.Joins (plain.dropWhile fun t => !endsFile t)
      (joined.dropWhile fun t => !endsFile t) := h.dropWhile fun t => endsFile_of_isName
  have list := sections_joins (h.tail_dropWhile fun t => endsFile_of_isName) 0
  simp only [sourceItem, opensWith_joins left]
  cases opensWith (joined.dropWhile fun t => !endsFile t) .lParen with
  | true => exact ⟨⟨rfl, file, list.inside⟩, list.rest⟩
  | false => exact ⟨⟨rfl, file, .nil⟩, left⟩

theorem targetItem_joins (h : Joins plain joined) (t : Token)
    (single : ∀ u ∈ joined.head?, u.isJoined = false) :
    (targetItem t plain).1.Joins (targetItem t joined).1 ∧
      Joins (targetItem t plain).2 (targetItem t joined).2 := by
  cases h with
  | nil => exact ⟨⟨rfl, rfl, .nil⟩, .nil⟩
  | same alone others =>
      rw [targetItem, targetItem]
      split
      · exact ⟨⟨rfl, rfl, .nil⟩, .same alone others⟩
      · exact ⟨⟨rfl, rfl, .nil⟩, others⟩
  | joined name others =>
      exact absurd ((single _ rfl).symm.trans name.isJoined) Bool.false_ne_true

theorem argumentItem_joins (h : Joins plain joined) (t : Token) (name : String) (wholeLine : Bool) :
    (argumentItem t name wholeLine plain).1.Joins (argumentItem t name wholeLine joined).1 ∧
      Joins (argumentItem t name wholeLine plain).2 (argumentItem t name wholeLine joined).2 :=
  ⟨⟨rfl, rfl, .nil⟩, argument_joins h wholeLine 0⟩

theorem directiveItem_joins (h : Joins plain joined) (t : Token)
    (single : Directive.ofSpelling? t.text = some .target →
      ∀ u ∈ joined.head?, u.isJoined = false) :
    (directiveItem t plain).1.Joins (directiveItem t joined).1 ∧
      Joins (directiveItem t plain).2 (directiveItem t joined).2 := by
  simp only [directiveItem]
  split
  · exact sourceItem_joins h t
  · rename_i target
    exact targetItem_joins h t (single target)
  · rename_i d _ _ known
    cases d.form with
    | simple => exact ⟨⟨rfl, rfl, .nil⟩, h⟩
    | complex => exact argumentItem_joins h t _ _
  · exact argumentItem_joins h t _ _

theorem directiveItem_unknown (unknown : namesDirective t.text = false) (rest : List Token) :
    directiveItem t rest = argumentItem t t.text false rest := by
  have none : Directive.ofSpelling? t.text = none := by simpa [namesDirective] using unknown
  rw [directiveItem, none]

theorem argumentItem_rest (t : Token) (name : String) (tokens : List Token) :
    (argumentItem t name false tokens).2 = (argument false 0 tokens).rest := rfl

theorem sections_of_unknown {item : DirectiveItem} {tokens : List Token}
    (listed : item ∈ (directiveLine tokens).1) (unknown : namesDirective item.name = false) :
    item.sections = [] := by
  have known : namesDirective (Directive.spelling .source) = true := by decide
  obtain ⟨name, rest, -, -, rfl⟩ := mem_directiveLine listed
  revert unknown
  fun_cases directiveItem name rest with
  | case1 => exact fun unknown => absurd (known.symm.trans unknown) (by decide)
  | case2 =>
      intro _
      fun_cases targetItem name rest <;> rfl
  | case3 | case4 | case5 => exact fun _ => rfl

/-- The known directives of a line, and the tokens after it. -/
def knownOnLine (tokens : List Token) : List DirectiveItem × List Token :=
  ((directiveLine tokens).1.filter fun item => namesDirective item.name, (directiveLine tokens).2)

def joinedTarget? (t : Token) : List Token → Option (Token × List Token)
  | [] => none
  | u :: rest =>
    if Directive.ofSpelling? t.text = some .target ∧ u.isJoined = true then some (u, rest)
    else none

theorem joinedTarget?_eq_some {tokens : List Token} {target : Token × List Token}
    (found : joinedTarget? t tokens = some target) :
    tokens = target.1 :: target.2 ∧ Directive.ofSpelling? t.text = some .target ∧
      target.1.isJoined = true := by
  cases tokens with
  | nil => cases found
  | cons u rest =>
      rw [joinedTarget?, Option.ite_none_right_eq_some] at found
      obtain ⟨named, same⟩ := found
      obtain rfl := Option.some.inj same
      exact ⟨rfl, named⟩

theorem single_of_joinedTarget? {tokens : List Token} (none : joinedTarget? t tokens = none)
    (named : Directive.ofSpelling? t.text = some .target) :
    ∀ u ∈ tokens.head?, u.isJoined = false := by
  cases tokens with
  | nil => rintro u ⟨⟩
  | cons u rest =>
      simp only [joinedTarget?, named, true_and] at none
      rintro _ ⟨⟩
      simpa using none

theorem joinedTarget?_unknown (unknown : namesDirective t.text = false) (tokens : List Token) :
    joinedTarget? t tokens = none := by
  have none : Directive.ofSpelling? t.text = none := by simpa [namesDirective] using unknown
  cases tokens with
  | nil => rfl
  | cons u rest => simp [joinedTarget?, none]

/-- Where names are not joined, TARGET takes the first word of a joined name alone, and the second
one, which must name no directive, takes all up to a comma. -/
def pastDirective (t : Token) (tokens : List Token) : List Token :=
  match joinedTarget? t tokens with
  | some (_, rest) => (argument false 0 rest).rest
  | none => (directiveItem t tokens).2

/-- The word `t` names the same known directive where names are not joined, and nothing that is
joined with it or taken by it names another. -/
def DirectiveStands (t : Token) (tokens : List Token) : Prop :=
  (t.isJoined = true → namesDirective (firstWord t.text) = false) ∧
    ∀ target ∈ joinedTarget? t tokens,
      (∀ name ∈ (words target.1.text).tail.head?, namesDirective name = false) ∧
        knownOnLine target.2 = knownOnLine (argument false 0 target.2).rest

instance (t : Token) (tokens : List Token) : Decidable (DirectiveStands t tokens) :=
  inferInstanceAs (Decidable (_ ∧ _))

theorem pastDirective_suffix (t : Token) (tokens : List Token) :
    pastDirective t tokens <:+ tokens := by
  rw [pastDirective]
  split
  · rename_i found
    rw [(joinedTarget?_eq_some found).1]
    exact (argument_suffix false 0 _).trans (List.suffix_cons _ _)
  · exact directiveItem_suffix t tokens

def lineStands (tokens : List Token) : Bool :=
  match tokens with
  | [] => true
  | t :: rest =>
    if t.kind.endsLine then true
    else if t.kind.isWord then
      have _shorter := (pastDirective_suffix t rest).length_le
      decide (DirectiveStands t rest) && lineStands (pastDirective t rest)
    else lineStands rest
termination_by tokens.length
decreasing_by all_goals simp; try omega

theorem knownOnLine_end (ends : t.kind.endsLine = true) (rest : List Token) :
    knownOnLine (t :: rest) = ([], rest) := by
  rw [knownOnLine, directiveLine, if_pos ends]
  rfl

theorem knownOnLine_item (isWord : t.kind.isWord = true) (rest : List Token) :
    knownOnLine (t :: rest) =
      ([(directiveItem t rest).1].filter (fun item => namesDirective item.name) ++
        (knownOnLine (directiveItem t rest).2).1, (knownOnLine (directiveItem t rest).2).2) := by
  rw [knownOnLine, directiveLine, if_neg (by simp [endsLine_of_isWord isWord]), if_pos isWord,
    knownOnLine, ← List.filter_append]
  rfl

theorem knownOnLine_other (inLine : t.kind.endsLine = false) (other : t.kind.isWord = false)
    (rest : List Token) : knownOnLine (t :: rest) = knownOnLine rest := by
  rw [knownOnLine, directiveLine, if_neg (by simp [inLine]), if_neg (by simp [other]), knownOnLine]

theorem known_joins {item item' : DirectiveItem} (h : item.Joins item') :
    List.Forall₂ DirectiveItem.Joins
      ([item].filter fun item => namesDirective item.name)
      ([item'].filter fun item => namesDirective item.name) := by
  rw [List.filter_cons, List.filter_cons, h.name]
  split
  · exact .cons h .nil
  · exact .nil

theorem knownOnLine_unknown (isWord : t.kind.isWord = true)
    (unknown : namesDirective t.text = false) (rest : List Token) :
    knownOnLine (t :: rest) = knownOnLine (argument false 0 rest).rest := by
  have silent : [(argumentItem t t.text false rest).1].filter
      (fun item => namesDirective item.name) = [] := by
    simp [argumentItem, unknown]
  rw [knownOnLine_item isWord, directiveItem_unknown unknown, silent, List.nil_append,
    argumentItem_rest]

structure LineJoins (plain joined : List DirectiveItem × List Token) : Prop where
  items : List.Forall₂ DirectiveItem.Joins plain.1 joined.1
  rest : Joins plain.2 joined.2

theorem directiveItem_target (named : Directive.ofSpelling? t.text = some .target)
    (isName : first.kind.isName = true) (rest : List Token) :
    directiveItem t (first :: rest) =
      (⟨t, Directive.spelling .target, some first.text, "", []⟩, rest) := by
  rw [directiveItem, named]
  simp [targetItem, not_endsLine_of_isName isName, not_isDelimiter_of_isName isName]

theorem LineJoins.item {item item' : DirectiveItem} {line line' : List DirectiveItem × List Token}
    (h : item.Joins item') (others : LineJoins line line') :
    LineJoins ([item].filter (fun item => namesDirective item.name) ++ line.1, line.2)
      ([item'].filter (fun item => namesDirective item.name) ++ line'.1, line'.2) :=
  ⟨List.rel_append (known_joins h) others.items, others.rest⟩

theorem LineJoins.target {u : Token} (isWord : t.kind.isWord = true)
    (named : Directive.ofSpelling? t.text = some .target) (name : Joined first further u)
    (unknown : ∀ text ∈ (words u.text).tail.head?, namesDirective text = false)
    (same : knownOnLine joined = knownOnLine (argument false 0 joined).rest)
    (later : LineJoins (knownOnLine (argument false 0 plain).rest)
      (knownOnLine (argument false 0 joined).rest)) :
    LineJoins (knownOnLine (t :: first :: (further ++ plain))) (knownOnLine (t :: u :: joined)) := by
  obtain ⟨single, names⟩ := List.forall_mem_cons.1 name.names
  obtain ⟨second, others, rfl⟩ := List.exists_cons_of_ne_nil name.several
  obtain ⟨single', names⟩ := List.forall_mem_cons.1 names
  rw [name.words] at unknown
  have passed : knownOnLine (second :: (others ++ plain)) =
      knownOnLine (argument false 0 plain).rest := by
    rw [knownOnLine_unknown (isWord_of_isName single'.1) (unknown _ rfl), argument_names names]
  rw [knownOnLine_item isWord, knownOnLine_item isWord, directiveItem_target named single.1,
    directiveItem_target named name.isName]
  simp only [List.cons_append, passed, same]
  exact .item ⟨rfl, rfl, .nil⟩ later

theorem LineJoins.name (name : Joined first further t)
    (unknown : namesDirective (firstWord t.text) = false)
    (later : LineJoins (knownOnLine (argument false 0 plain).rest)
      (knownOnLine (argument false 0 joined).rest)) :
    LineJoins (knownOnLine (first :: (further ++ plain))) (knownOnLine (t :: joined)) := by
  obtain ⟨single, names⟩ := List.forall_mem_cons.1 name.names
  rw [name.firstWord] at unknown
  rw [knownOnLine_unknown (isWord_of_isName single.1) unknown, argument_names names,
    knownOnLine_unknown (isWord_of_isName name.isName) (namesDirective_of_spaced name.spaced)]
  exact later

/-- Where its directives stand, a line names the same known directives, and the same sections. -/
theorem knownOnLine_joins (h : Joins plain joined) (stands : lineStands joined = true) :
    LineJoins (knownOnLine plain) (knownOnLine joined) := by
  fun_induction lineStands joined generalizing plain with
  | case1 =>
      cases h
      rw [knownOnLine, directiveLine]
      exact ⟨.nil, .nil⟩
  | case2 t rest ends =>
      obtain ⟨rest', rfl, others⟩ := h.of_not_isName (not_isName_of_endsLine ends)
      rw [knownOnLine_end ends, knownOnLine_end ends]
      exact ⟨.nil, others⟩
  | case3 t rest inLine word _ ih =>
      rw [Bool.and_eq_true_iff, decide_eq_true_iff] at stands
      obtain ⟨here, later⟩ := stands
      rw [pastDirective] at ih later
      cases h with
      | @same _ plain _ single joins =>
          cases found : joinedTarget? t rest with
          | none =>
              rw [found] at ih later
              obtain ⟨item, left⟩ := directiveItem_joins joins t (single_of_joinedTarget? found)
              rw [knownOnLine_item word, knownOnLine_item word]
              exact .item item (ih left later)
          | some target =>
              obtain ⟨u, others⟩ := target
              obtain ⟨rfl, named, isJoined⟩ := joinedTarget?_eq_some found
              obtain ⟨unknown, same⟩ := here.2 _ found
              rw [found] at ih later
              cases joins with
              | same alone => exact absurd (alone.symm.trans isJoined) Bool.false_ne_true
              | joined name joins =>
                  exact .target word named name unknown same
                    (ih (argument_joins joins false 0) later)
      | @joined first further _ plain _ name joins =>
          have unknown := namesDirective_of_spaced name.spaced
          rw [joinedTarget?_unknown unknown, directiveItem_unknown unknown] at ih later
          exact .name name (here.1 name.isJoined) (ih (argument_joins joins false 0) later)
  | case4 t rest inLine other ih =>
      have inLine : t.kind.endsLine = false := by simpa using inLine
      have other : t.kind.isWord = false := by simpa using other
      have notName : t.kind.isName = false := Bool.eq_false_iff.2 fun isName =>
        Bool.false_ne_true (other.symm.trans (isWord_of_isName isName))
      obtain ⟨rest', rfl, others⟩ := h.of_not_isName notName
      rw [knownOnLine_other inLine other, knownOnLine_other inLine other]
      exact ih others stands

end Declaration
end TalAnalysis
