import TalAnalysis.Proofs.Lexer.Grouping
import TalAnalysis.Proofs.Lexer.Place
import TalAnalysis.Proofs.Lexer.Reading

namespace TalAnalysis
open Text

def spaced (name : String) : Bool := name.toList.contains ' '

def firstWord (name : String) : String := String.ofList (name.toList.takeWhile (· != ' '))

def words (name : String) : List String := (name.toList.splitOn ' ').map String.ofList

theorem spaced_eq_false {name : String} : spaced name = false ↔ ' ' ∉ name.toList := by
  simp [spaced]

theorem ne_space_of_not_spaced {name : String} (single : spaced name = false) :
    ∀ c ∈ name.toList, (c != ' ') = true := by
  rintro c member
  exact bne_iff_ne.2 fun same => spaced_eq_false.1 single (same ▸ member)

theorem firstWord_of_not_spaced {name : String} (single : spaced name = false) :
    firstWord name = name := by
  rw [firstWord, List.takeWhile_eq_self_iff.2 (ne_space_of_not_spaced single), String.ofList_toList]

theorem words_of_not_spaced {name : String} (single : spaced name = false) :
    words name = [name] := by
  have whole : name.toList.splitOn ' ' = [name.toList] := by
    apply List.splitOnP_eq_singleton
    intro c member
    simpa using ne_space_of_not_spaced single c member
  rw [words, whole, List.map_singleton, String.ofList_toList]

theorem firstWord_append {name : String} (single : spaced name = false) (text : List Char) :
    firstWord (String.ofList (name.toList ++ ' ' :: text)) = name := by
  rw [firstWord, String.toList_ofList, List.takeWhile_append_of_pos (ne_space_of_not_spaced single),
    List.takeWhile_cons_of_neg (by decide), List.append_nil, String.ofList_toList]

theorem words_append {name : String} (single : spaced name = false) (text : List Char) :
    words (String.ofList (name.toList ++ ' ' :: text)) = name :: words (String.ofList text) := by
  have first : (name.toList ++ ' ' :: text).splitOn ' ' = name.toList :: text.splitOn ' ' := by
    apply List.splitOnP_append_cons_of_forall_mem
    · intro c member
      simpa using ne_space_of_not_spaced single c member
    · exact beq_self_eq_true ' '
  rw [words, String.toList_ofList, first, List.map_cons, String.ofList_toList, words,
    String.toList_ofList]

theorem firstWord_mem_words (name : String) : firstWord name ∈ words name := by
  cases several : spaced name with
  | false =>
      rw [firstWord_of_not_spaced several, words_of_not_spaced several]
      exact List.mem_singleton_self name
  | true =>
      have space : ∃ c ∈ name.toList, ¬ (c != ' ') = true :=
        ⟨' ', by simpa [spaced] using several, by decide⟩
      have single : spaced (firstWord name) = false := by
        rw [spaced_eq_false, firstWord, String.toList_ofList]
        intro member
        exact absurd (List.mem_takeWhile_imp member) (by decide)
      have cut : name = String.ofList ((firstWord name).toList ++
          name.toList.dropWhile (· != ' ')) := by
        rw [firstWord, String.toList_ofList, List.takeWhile_append_dropWhile, String.ofList_toList]
      cases rest : name.toList.dropWhile (· != ' ') with
      | nil =>
          obtain ⟨c, member, stops⟩ := space
          exact absurd (List.dropWhile_eq_nil_iff.1 rest c member) stops
      | cons c text =>
          obtain rfl : c = ' ' := by simpa using not_of_dropWhile rest
          rw [rest] at cut
          rw [congrArg words cut, words_append single]
          exact List.mem_cons_self

namespace Token

def isJoined (t : Token) : Bool := t.kind.isName && spaced t.text

def IsSingle (t : Token) : Prop := t.kind.isName = true ∧ spaced t.text = false

/-- Names of one word each, with a gap before each of them, from the place where the token before
them ends to the place `stop`. They make up `text`, in which the gaps are spaces. -/
inductive NameRun : Nat → List Token → List Char → Nat → Prop
  | none (stop : Nat) : NameRun stop [] [] stop
  | more {start stop name names text} (single : name.IsSingle) (gap : start < name.span.start)
      (others : NameRun name.span.stop names text stop) :
      NameRun start (name :: names) (' ' :: (name.text.toList ++ text)) stop

structure Joined (first : Token) (others : List Token) (t : Token) : Prop where
  single : first.IsSingle
  several : others ≠ []
  run : ∃ text, NameRun first.span.stop others text t.span.stop ∧
    t.text = String.ofList (first.text.toList ++ text)
  isName : t.kind.isName = true
  start : t.span.start = first.span.start

/-- The list `joined` has one token for each of some runs of names in `plain`, and otherwise the
tokens of `plain`. -/
inductive Joins : List Token → List Token → Prop
  | nil : Joins [] []
  | same {t plain joined} (single : t.isJoined = false) (others : Joins plain joined) :
      Joins (t :: plain) (t :: joined)
  | joined {first names t plain joined} (h : Joined first names t) (others : Joins plain joined) :
      Joins (first :: (names ++ plain)) (t :: joined)

variable {first t : Token} {further : List Token} {start stop : Nat} {text : List Char}

theorem isSingle_of_not_isJoined (isName : t.kind.isName = true) (h : t.isJoined = false) :
    t.IsSingle := by
  rw [isJoined, isName, Bool.true_and] at h
  exact ⟨isName, h⟩

theorem NameRun.single (h : NameRun start further text stop) : ∀ t ∈ further, t.IsSingle := by
  induction h with
  | none => simp
  | more single gap others ih => exact List.forall_mem_cons.2 ⟨single, ih⟩

theorem NameRun.words (h : NameRun start further text stop) {name : String}
    (single : spaced name = false) :
    words (String.ofList (name.toList ++ text)) = name :: further.map Token.text := by
  induction h generalizing name with
  | none => rw [List.append_nil, String.ofList_toList, words_of_not_spaced single, List.map_nil]
  | more next gap others ih => rw [words_append single, ih next.2, List.map_cons]

theorem NameRun.opens (h : NameRun start further text stop) (several : further ≠ []) :
    ∃ rest, text = ' ' :: rest := by
  cases h with
  | none => exact absurd rfl several
  | more => exact ⟨_, rfl⟩

namespace Joined

theorem names (h : Joined first further t) : ∀ u ∈ first :: further, u.IsSingle := by
  obtain ⟨text, run, -⟩ := h.run
  exact List.forall_mem_cons.2 ⟨h.single, run.single⟩

theorem words (h : Joined first further t) : words t.text = (first :: further).map Token.text := by
  obtain ⟨text, run, whole⟩ := h.run
  rw [whole, run.words h.single.2, List.map_cons]

theorem firstWord (h : Joined first further t) : firstWord t.text = first.text := by
  obtain ⟨text, run, whole⟩ := h.run
  obtain ⟨rest, rfl⟩ := run.opens h.several
  rw [whole, firstWord_append h.single.2]

theorem spaced (h : Joined first further t) : spaced t.text = true := by
  obtain ⟨text, run, whole⟩ := h.run
  obtain ⟨rest, rfl⟩ := run.opens h.several
  rw [whole, TalAnalysis.spaced, String.toList_ofList]
  simp

theorem isJoined (h : Joined first further t) : t.isJoined = true := by
  rw [Token.isJoined, h.isName, h.spaced]
  rfl

end Joined
end Token

open Token

variable {source : String} {options : LexOptions} {keepComments : Bool}

theorem slice?_token {t : Token} (member : t ∈ (lex source options).tokens) :
    slice? source.toList t.span.start t.span.stop = some t.text.toList := by
  obtain ⟨p, placed, shown⟩ := List.mem_filterMap.1 member
  obtain ⟨before, ⟨r, start, place⟩, ⟨r', stop⟩⟩ := pieces_stand options.groupNames source p placed
  have whole : source.toList = before ++ (p.piece.text ++ r'.rest) := by
    rw [← List.append_assoc]
    exact stop.cut
  have offset : p.place.offset = byteLength before := by rw [place, start.place]
  rw [span_of_token? shown, text_of_token? shown, String.toList_ofList, PlacedPiece.span, offset,
    whole]
  exact slice?_middle before p.piece.text r'.rest

theorem not_isJoined_of_read {groupNames : Bool} {lookback : Lookback} {lineRead : List Char}
    {c : Char} {rest : List Char} {p : PlacedPiece} {t : Token}
    (piece : p.piece = .read groupNames lookback lineRead c rest)
    (alone : (groupNames && lookback != .afterMarker) = false)
    (shown : p.token? keepComments = some t) : t.isJoined = false := by
  cases isName : t.kind.isName with
  | false => rw [Token.isJoined, isName, Bool.false_and]
  | true =>
      have kind := kind?_of_isName shown isName
      rw [piece] at kind
      have opens := Piece.read_name isName kind
      rw [Token.isJoined, isName, Bool.true_and, spaced_eq_false, text_of_token? shown, piece,
        Piece.read_of_startsName opens, alone, Piece.word_alone, String.toList_ofList]
      rintro (_ | ⟨_, later⟩)
      · exact absurd opens (by decide)
      · exact absurd (List.mem_takeWhile_imp later) (by decide)

theorem not_isJoined_of_plain {t : Token}
    (member : t ∈ (lex source { keepComments, groupNames := false }).tokens) :
    t.isJoined = false := by
  obtain ⟨p, placed, shown⟩ := List.mem_filterMap.1 member
  obtain ⟨_, _, _, _, read⟩ := exists_readAfter placed
  obtain ⟨lineRead, piece⟩ := read.read
  exact not_isJoined_of_read piece rfl shown

theorem not_isJoined_after_mark {before after : List Token} {t : Token}
    (cut : (lex source { keepComments, groupNames := true }).tokens = before ++ t :: after)
    (mark : Lookback.ofTokens before = .afterMarker) : t.isJoined = false := by
  obtain ⟨front, p, back, whole, rfl, shown⟩ := exists_piece_of_token cut
  obtain ⟨_, _, _, read⟩ := pieces_readAfter keepComments whole
  obtain ⟨lineRead, piece⟩ := read.read
  rw [mark] at piece
  exact not_isJoined_of_read piece rfl shown

theorem nameRun_of_namesAfter {names : List Token} {start stop : Nat}
    (tokens : ∀ t ∈ names, t ∈ (lex source { keepComments, groupNames := false }).tokens)
    (h : NamesAfter source.toList start names stop) :
    ∃ text, NameRun start names text stop ∧
      ∀ front place, slice? source.toList place start = some front →
        slice? source.toList place stop = some (front ++ text) := by
  induction h with
  | none => exact ⟨[], .none _, fun front place cut => by rw [List.append_nil, cut]⟩
  | more isName space others ih =>
      obtain ⟨here, later⟩ := List.forall_mem_cons.1 tokens
      obtain ⟨text, run, reads⟩ := ih later
      have gap : byteLength [' '] = 1 := by decide
      obtain ⟨-, -, -, -, next⟩ := slice?_eq_some space
      refine ⟨_, .more (isSingle_of_not_isJoined isName (not_isJoined_of_plain here))
        (by omega) run, fun front place cut => ?_⟩
      have single := slice?_append (slice?_append cut space) (slice?_token here)
      rw [reads _ _ single]
      simp only [List.append_assoc, List.cons_append, List.nil_append]

theorem Grouped.joins {before plain grouped : List Token}
    (tokens : ∀ t ∈ plain, t ∈ (lex source { keepComments, groupNames := false }).tokens)
    (h : Grouped source.toList before plain grouped) : Joins plain grouped := by
  induction h with
  | nil => exact .nil
  | alone noMore others ih =>
      obtain ⟨here, later⟩ := List.forall_mem_cons.1 tokens
      exact .same (not_isJoined_of_plain here) (ih later)
  | @joined before first names plain grouped stop text joins several further noMore written others
      ih =>
      have run := fun t member => tokens t (List.mem_append_left plain member)
      have later := fun t member => tokens t (List.mem_append_right (first :: names) member)
      obtain ⟨here, others⟩ := List.forall_mem_cons.1 run
      obtain ⟨rest, run, reads⟩ := nameRun_of_namesAfter others further
      have whole := reads _ _ (slice?_token here)
      rw [written] at whole
      refine .joined ⟨isSingle_of_not_isJoined joins.1 (not_isJoined_of_plain here), several,
        ⟨rest, run, ?_⟩, rfl, rfl⟩ (ih later)
      rw [← Option.some.inj whole, String.ofList_toList]
      rfl

theorem lex_joins (source : String) (keepComments : Bool)
    (free : ∀ before t after,
      (lex source { keepComments, groupNames := false }).tokens = before ++ t :: after →
        t.JoinsAfter before → ¬ t.Overruns source.toList) :
    Joins (lex source { keepComments, groupNames := false }).tokens
      (lex source { keepComments, groupNames := true }).tokens :=
  (lex_grouped source keepComments free).1.joins fun _ member => member

end TalAnalysis
