import TalAnalysis.Text.Front
import TalAnalysis.Token.Basic

/-!
# Windows on a list of tokens

Declarations are read from the front of a list of tokens. A window is what was looked for, together
with the tokens after it.

* `between` takes what stands between two brackets, without the commas that are in no further pair.
* `value` takes all up to a comma or semicolon that stands in no brackets.
* `upTo` takes all up to a delimiter.
* `listEnd` tells whether a list of declarations goes on.

What is left is always a tail of the tokens (the `_suffix` lemmas), so reading comes to an end.
-/

namespace TalAnalysis.Declaration
open Text

structure Window where
  inside : List Token
  rest : List Token
deriving DecidableEq, Repr, Inhabited

def Window.cons (t : Token) (w : Window) : Window := ⟨t :: w.inside, w.rest⟩

def opensWith (tokens : List Token) (d : Delimiter) : Bool :=
  (tokens.head?.map fun t => t.isDelimiter d).getD false

def skipLayout (tokens : List Token) : List Token := tokens.dropWhile fun t => t.kind.isLayout

def skipPointers (tokens : List Token) : List Token := tokens.dropWhile fun t => t.kind.marksPointer

def pastSemicolon (tokens : List Token) : List Token :=
  (tokens.dropWhile fun t => !t.isDelimiter .semicolon).tail

/-- What stands inside a pair of brackets of which the opening one has been read, and `depth` more
that opened inside. The commas at depth zero separate and are left out. Without the closing bracket
everything is inside. -/
def inside (opening closing : Delimiter) (depth : Nat) : List Token → Window
  | [] => ⟨[], []⟩
  | t :: tokens =>
    if t.isDelimiter opening then (inside opening closing (depth + 1) tokens).cons t
    else if t.isDelimiter closing then
      match depth with
      | 0 => ⟨[], tokens⟩
      | depth + 1 => (inside opening closing depth tokens).cons t
    else if depth = 0 ∧ t.isDelimiter .comma then inside opening closing depth tokens
    else (inside opening closing depth tokens).cons t

theorem inside_cons (opening closing : Delimiter) (depth : Nat) (t : Token) (tokens : List Token) :
    inside opening closing depth (t :: tokens) =
      if t.isDelimiter opening then (inside opening closing (depth + 1) tokens).cons t
      else if t.isDelimiter closing then
        if depth = 0 then ⟨[], tokens⟩ else (inside opening closing (depth - 1) tokens).cons t
      else if depth = 0 ∧ t.isDelimiter .comma then inside opening closing depth tokens
      else (inside opening closing depth tokens).cons t := by
  cases depth <;> rfl

def between (opening closing : Delimiter) : List Token → Window
  | [] => ⟨[], []⟩
  | t :: tokens =>
    if t.isDelimiter opening then inside opening closing 0 tokens else ⟨[], t :: tokens⟩

def parenthesized (tokens : List Token) : Window := between .lParen .rParen tokens

def bracketed (tokens : List Token) : Window := between .lBracket .rBracket tokens

/-- How many brackets of either shape are open after a token. A closing one without its opening one
counts for nothing. -/
def depthAfter (depth : Nat) (t : Token) : Nat :=
  if t.isDelimiter .lParen ∨ t.isDelimiter .lBracket then depth + 1
  else if t.isDelimiter .rParen ∨ t.isDelimiter .rBracket then depth - 1
  else depth

/-- The tokens up to the first comma or semicolon in no brackets, where `depth` brackets are open.
-/
def value (depth : Nat) : List Token → Window
  | [] => ⟨[], []⟩
  | t :: tokens =>
    if depth = 0 ∧ (t.isDelimiter .comma ∨ t.isDelimiter .semicolon) then ⟨[], t :: tokens⟩
    else (value (depthAfter depth t) tokens).cons t

def upTo (d : Delimiter) (tokens : List Token) : Window × Bool :=
  let left := tokens.dropWhile fun t => !t.isDelimiter d
  (⟨tokens.takeWhile fun t => !t.isDelimiter d, left.tail⟩, !left.isEmpty)

/-- What follows an item of a list, with the tokens after it: a comma and a further item, a
semicolon and no more, or something else. -/
inductive ListEnd
  | another (rest : List Token)
  | closed (rest : List Token)
  | broken (rest : List Token)
deriving DecidableEq, Repr, Inhabited

def listEnd (tokens : List Token) : ListEnd :=
  match skipLayout tokens with
  | [] => .broken []
  | t :: rest =>
    if t.isDelimiter .comma then .another rest
    else if t.isDelimiter .semicolon then .closed rest
    else .broken (t :: rest)

theorem skipLayout_suffix (tokens : List Token) : skipLayout tokens <:+ tokens :=
  List.dropWhile_suffix _

theorem skipPointers_suffix (tokens : List Token) : skipPointers tokens <:+ tokens :=
  List.dropWhile_suffix _

theorem pastSemicolon_suffix (tokens : List Token) : pastSemicolon tokens <:+ tokens :=
  (List.tail_suffix _).trans (List.dropWhile_suffix _)

theorem inside_suffix (opening closing : Delimiter) (depth : Nat) (tokens : List Token) :
    (inside opening closing depth tokens).rest <:+ tokens := by
  fun_induction inside opening closing depth tokens with
  | case1 => exact List.suffix_refl _
  | case3 => exact List.suffix_cons _ _
  | case2 _ _ _ _ ih | case4 _ _ _ _ _ ih | case5 _ _ _ _ _ _ ih | case6 _ _ _ _ _ _ ih =>
    exact ih.trans (List.suffix_cons _ _)

theorem between_suffix (opening closing : Delimiter) (tokens : List Token) :
    (between opening closing tokens).rest <:+ tokens := by
  cases tokens with
  | nil => exact List.suffix_refl _
  | cons t tokens =>
    rw [between]
    split
    · exact (inside_suffix _ _ _ _).trans (List.suffix_cons _ _)
    · exact List.suffix_refl _

theorem parenthesized_suffix (tokens : List Token) : (parenthesized tokens).rest <:+ tokens :=
  between_suffix _ _ _

theorem bracketed_suffix (tokens : List Token) : (bracketed tokens).rest <:+ tokens :=
  between_suffix _ _ _

theorem value_suffix (depth : Nat) (tokens : List Token) :
    (value depth tokens).rest <:+ tokens := by
  fun_induction value depth tokens with
  | case1 | case2 => exact List.suffix_refl _
  | case3 _ _ _ _ ih => exact ih.trans (List.suffix_cons _ _)

def ListEnd.rest : ListEnd → List Token
  | .another rest | .closed rest | .broken rest => rest

theorem listEnd_suffix (tokens : List Token) : (listEnd tokens).rest <:+ tokens := by
  refine List.IsSuffix.trans ?_ (skipLayout_suffix tokens)
  rw [listEnd]
  cases skipLayout tokens with
  | nil => exact List.suffix_refl _
  | cons t rest =>
    simp only
    split
    · exact List.suffix_cons _ _
    · split
      · exact List.suffix_cons _ _
      · exact List.suffix_refl _

theorem length_of_another {tokens rest : List Token} (h : listEnd tokens = .another rest) :
    rest.length < tokens.length := by
  refine Nat.lt_of_lt_of_le ?_ (skipLayout_suffix tokens).length_le
  rw [listEnd] at h
  cases skip : skipLayout tokens with
  | nil => simp [skip] at h
  | cons t left =>
    simp only [skip] at h
    split at h
    · cases h; simp
    · split at h <;> cases h

end TalAnalysis.Declaration
