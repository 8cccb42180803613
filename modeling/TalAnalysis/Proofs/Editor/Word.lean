import Mathlib.Data.List.Pairwise
import TalAnalysis.Editor.Completion
import TalAnalysis.Proofs.Editor.RoundTrip
import TalAnalysis.Proofs.Lexer.Reading

namespace TalAnalysis

theorem Span.touches_iff {s : Span} {offset : Nat} :
    s.touches offset = true ↔ s.start ≤ offset ∧ offset ≤ s.stop := by
  rw [touches, Bool.and_eq_true, decide_eq_true_eq, decide_eq_true_eq]

theorem isWord_of_token? {keepComments keepComments' : Bool} {p : PlacedPiece} {t u : Token}
    (shown : p.token? keepComments = some t) (shown' : p.token? keepComments' = some u)
    (isWord : t.kind.isWord = true) : u.kind.isWord = true := by
  have noMark := TokenKind.not_marksDirective_of_isWord isWord
  rw [token?_of_kind?_some (kind?_of_token? shown noMark), Option.ite_none_right_eq_some] at shown'
  obtain rfl := Option.some.inj shown'.2
  rw [Token.write, if_neg]
  · exact isWord
  · rintro ⟨line, -⟩
    rw [line] at noMark
    cases noMark

theorem apart_of_not_isWord {source : String} {options : LexOptions} {keepComments : Bool}
    {t u : Token} (member : t ∈ (lex source options).tokens) (isWord : t.kind.isWord = true)
    (member' : u ∈ (lex source { options with keepComments }).tokens)
    (other : u.kind.isWord = false) :
    t.span.stop ≤ u.span.start ∨ u.span.stop ≤ t.span.start := by
  obtain ⟨p, placed, shown⟩ := List.mem_filterMap.1 member
  obtain ⟨q, placed', shown'⟩ := List.mem_filterMap.1 member'
  have distinct : p ≠ q := by
    rintro rfl
    rw [isWord_of_token? shown shown' isWord] at other
    cases other
  have : Std.Symm fun p q : PlacedPiece =>
      p.span.stop ≤ q.span.start ∨ q.span.stop ≤ p.span.start := ⟨fun _ _ => Or.symm⟩
  have apart : (pieces options.groupNames source).Pairwise fun p q =>
      p.span.stop ≤ q.span.start ∨ q.span.stop ≤ p.span.start :=
    (apart_piecesFrom .plain _).imp Or.inl
  rw [span_of_token? shown, span_of_token? shown']
  exact apart.forall placed placed' distinct

end TalAnalysis

namespace TalAnalysis.Editor
open Text

variable {source : String} {options : LexOptions} {position : Position} {offset : Nat}
  {tokens : List Token} {t u : Token}

def touching (tokens : List Token) (offset : Nat) : List Token :=
  tokens.filter fun t => t.kind.isWord && t.span.touches offset

theorem mem_touching : t ∈ touching tokens offset ↔
    t ∈ tokens ∧ t.kind.isWord = true ∧ t.span.start ≤ offset ∧ offset ≤ t.span.stop := by
  rw [touching, List.mem_filter, Bool.and_eq_true, Span.touches_iff]

theorem wordAt?_eq_head? (here : offsetAt? source position = some offset) (tokens : List Token) :
    wordAt? source tokens position = (touching tokens offset).head? := by
  rw [wordAt?, here, touching, Option.bind_eq_bind, Option.bind_some, List.find?_filter,
    List.head?_filter]
  exact congrArg (List.find? · tokens) (funext fun t => by simp [Bool.decide_and])

theorem apart_touching (source : String) (options : LexOptions) (offset : Nat) :
    (touching (lex source options).tokens offset).Pairwise fun t u =>
      t.span.stop ≤ u.span.start :=
  (apart_tokens source options).filter _

theorem head?_touching (member : t ∈ touching (lex source options).tokens offset) :
    ∃ u ∈ touching (lex source options).tokens offset,
      (touching (lex source options).tokens offset).head? = some u ∧
        (u = t ∨ u.span.stop ≤ t.span.start) := by
  have apart := apart_touching source options offset
  obtain ⟨before, after, cut⟩ := List.append_of_mem member
  cases before with
  | nil => exact ⟨t, member, by rw [cut]; rfl, .inl rfl⟩
  | cons first before =>
      rw [cut, List.cons_append, List.pairwise_cons] at apart
      refine ⟨first, by simp [cut], by rw [cut]; rfl, .inr ?_⟩
      exact apart.1 t (List.mem_append_right before List.mem_cons_self)

theorem length_touching (source : String) (options : LexOptions) (offset : Nat) :
    (touching (lex source options).tokens offset).length ≤ 2 := by
  have apart := apart_touching source options offset
  have touched (t : Token) (member : t ∈ touching (lex source options).tokens offset) :
      t.span.start ≤ offset ∧ offset ≤ t.span.stop ∧ t.span.start < t.span.stop := by
    obtain ⟨listed, -, start, stop⟩ := mem_touching.1 member
    exact ⟨start, stop, start_lt_stop_token listed⟩
  match words : touching (lex source options).tokens offset with
  | [] | [_] | [_, _] => simp
  | first :: second :: third :: others =>
      -- The second word lies between the end of the first one and the start of the third one.
      rw [words] at apart touched
      have one := List.rel_of_pairwise_cons apart (List.mem_cons_self (a := second))
      have two := List.rel_of_pairwise_cons apart.of_cons (List.mem_cons_self (a := third))
      have start := touched first (by simp)
      have middle := touched second (by simp)
      have stop := touched third (by simp)
      omega

theorem wordAt?_of_inside (here : offsetAt? source position = some offset)
    (member : t ∈ (lex source options).tokens) (isWord : t.kind.isWord = true)
    (start : t.span.start < offset) (stop : offset ≤ t.span.stop) :
    wordAt? source (lex source options).tokens position = some t := by
  obtain ⟨u, touched, first, rfl | before⟩ :=
    head?_touching (mem_touching.2 ⟨member, isWord, Nat.le_of_lt start, stop⟩)
  · rw [wordAt?_eq_head? here, first]
  · have passed := (mem_touching.1 touched).2.2.2.trans before
    exact absurd start (Nat.not_lt.2 passed)

theorem wordAt?_of_start (here : offsetAt? source position = some offset)
    (member : t ∈ (lex source options).tokens) (isWord : t.kind.isWord = true)
    (start : t.span.start = offset)
    (alone : ∀ u ∈ (lex source options).tokens, u.kind.isWord = true → u.span.stop ≠ offset) :
    wordAt? source (lex source options).tokens position = some t := by
  have stop : offset ≤ t.span.stop := start ▸ Nat.le_of_lt (start_lt_stop_token member)
  obtain ⟨u, touched, first, rfl | before⟩ :=
    head?_touching (mem_touching.2 ⟨member, isWord, Nat.le_of_eq start, stop⟩)
  · rw [wordAt?_eq_head? here, first]
  · obtain ⟨listed, isWord, -, within⟩ := mem_touching.1 touched
    exact absurd (Nat.le_antisymm (start ▸ before) within) (alone u listed isWord)

theorem wordAt?_of_none (here : offsetAt? source position = some offset)
    (untouched : ∀ t ∈ tokens, t.kind.isWord = true → t.span.touches offset = false) :
    wordAt? source tokens position = none := by
  have none : touching tokens offset = [] := by
    refine List.filter_eq_nil_iff.2 fun t member both => ?_
    rw [Bool.and_eq_true] at both
    rw [untouched t member both.1] at both
    cases both.2
  rw [wordAt?_eq_head? here, none, List.head?_nil]

/-- On its way to an offset, the search counts the lines and units of a front part of the source and
those of the next character. If the source has less than 2³² bytes, they fit in a word of 32 bits. -/
theorem fitsWord_search (small : byteLength source.toList < UInt32.size) {before after : List Char}
    {c : Char} (cut : source.toList = before ++ c :: after) :
    (positionAt source (byteLength before)).FitsWord ∧
      (positionAt source (byteLength before)).character + unitSize c < UInt32.size := by
  have next := positionFrom_next ⟨0, 0⟩ before c after
  rw [← cut, Nat.zero_add] at next
  exact ⟨positionAt_fitsWord small _, (next.trans (unitLength_le_byteLength _)).trans_lt small⟩

theorem offsetAt?_le (here : offsetAt? source position = some offset) :
    offset ≤ byteLength source.toList := by
  obtain ⟨⟨before, after, cut, rfl, -⟩, -⟩ := offsetAt?_greatest here
  rw [cut, byteLength_append]
  exact Nat.le_add_right _ _

/-- The word under an offset is the one that the offset lies in or ends, or else the one that starts
there. Inside of anything but a word, a comment that is left out among it, there is none. -/
theorem wordAt?_touching (here : offsetAt? source position = some offset) (options : LexOptions) :
    let tokens := (lex source options).tokens
    (∀ t ∈ tokens, t.kind.isWord = true → t.span.start < offset → offset ≤ t.span.stop →
      wordAt? source tokens position = some t) ∧
    (∀ t ∈ tokens, t.kind.isWord = true → t.span.start = offset →
      (∀ u ∈ tokens, u.kind.isWord = true → u.span.stop = offset →
        wordAt? source tokens position = some u) ∧
      ((∀ u ∈ tokens, u.kind.isWord = true → u.span.stop ≠ offset) →
        wordAt? source tokens position = some t)) ∧
    (tokens.filter fun t => t.kind.isWord && t.span.touches offset).length ≤ 2 ∧
    (∀ keepComments, ∀ u ∈ (lex source { options with keepComments }).tokens,
      u.kind.isWord = false → u.span.start < offset → offset < u.span.stop →
        wordAt? source tokens position = none) ∧
    ((∀ t ∈ tokens, t.kind.isWord = true → t.span.touches offset = false) →
      wordAt? source tokens position = none) := by
  intro tokens
  refine ⟨fun t member isWord start stop => wordAt?_of_inside here member isWord start stop,
    fun t member isWord start => ⟨fun u listed isWord' stop => ?_,
      wordAt?_of_start here member isWord start⟩,
    length_touching source options offset, ?_, wordAt?_of_none here⟩
  · exact wordAt?_of_inside here listed isWord' (stop ▸ start_lt_stop_token listed)
      (Nat.le_of_eq stop.symm)
  · intro keepComments u member other start stop
    refine wordAt?_of_none here fun t listed isWord => Bool.eq_false_iff.2 fun touches => ?_
    have touched := Span.touches_iff.1 touches
    have apart := apart_of_not_isWord listed isWord member other
    omega

theorem wordAt?_touching_met :
    let source := "CALL abc$LEN(s);"
    let tokens := (lex source {}).tokens
    offsetAt? source ⟨0, 8⟩ = some 8 ∧ ∃ t ∈ tokens, t.text = "abc" ∧ t.span.stop = 8 ∧
      ∃ u ∈ tokens, u.text = "$LEN" ∧ u.span.start = 8 ∧
        wordAt? source tokens ⟨0, 8⟩ = some t := by
  intro source tokens
  have here : offsetAt? source ⟨0, 8⟩ = some 8 := by decide +kernel
  let t : Token := .write (.name "abc") "abc" ⟨5, 8⟩ 0 5
  let u : Token := .write (.name "$LEN") "$LEN" ⟨8, 12⟩ 0 8
  have first : t ∈ tokens := by decide +kernel
  have second : u ∈ tokens := by decide +kernel
  have found := ((wordAt?_touching here {}).2.1 u second rfl rfl).1 t first rfl rfl
  exact ⟨here, t, first, rfl, rfl, u, second, rfl, rfl, found⟩

end TalAnalysis.Editor
