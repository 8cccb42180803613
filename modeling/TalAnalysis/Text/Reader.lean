import TalAnalysis.Text.Character
import TalAnalysis.Text.Extent

/-!
# Reading a text from front to back

A `Reader` stands at a place of a text. It knows what is still to be read and keeps the coordinates
of that place: the offset in bytes, the line, and the column in characters, all from zero.

Lines end at a line feed and at a carriage return. A carriage return before a line feed leaves the
break to the line feed, so the two together end one line, however the reader gets past them.
-/

namespace TalAnalysis.Text

structure Place where
  offset : Nat
  line : Nat
  column : Nat
deriving DecidableEq, Repr, Inhabited

/-- A place in a text with what lies before and behind it. `lineRead` holds what has been read of
the current line, the latest character first. -/
structure Reader where
  rest : List Char
  place : Place
  lineRead : List Char
deriving DecidableEq, Repr, Inhabited

def breaksLine (c : Char) (rest : List Char) : Bool :=
  c == '\n' || (c == '\r' && rest.head? != some '\n')

namespace Reader

def ofText (text : List Char) : Reader := ⟨text, ⟨0, 0, 0⟩, []⟩

def atEnd (r : Reader) : Bool := r.rest.isEmpty

def linePrior (r : Reader) : List Char := r.lineRead.reverse

def peekAt? (r : Reader) (n : Nat) : Option Char := r.rest[n]?

def peek (r : Reader) (n : Nat) : List Char := r.rest.take n

def next (r : Reader) : Reader :=
  match r.rest with
  | [] => r
  | c :: rest =>
      let offset := r.place.offset + c.utf8Size
      if breaksLine c rest then ⟨rest, ⟨offset, r.place.line + 1, 0⟩, []⟩
      else ⟨rest, ⟨offset, r.place.line, r.place.column + 1⟩, c :: r.lineRead⟩

def skip (r : Reader) : Nat → Reader
  | 0 => r
  | n + 1 => r.next.skip n

/-- How many characters make up the least front part of `text` with `size` bytes or more; all of
them, if `text` is shorter. -/
def charactersFor (text : List Char) (size : Nat) : Nat :=
  match text with
  | [] => 0
  | c :: text => if size = 0 then 0 else charactersFor text (size - c.utf8Size) + 1

def run (r : Reader) (inClass : Char → Bool) : List Char := r.rest.takeWhile inClass

@[simp] theorem rest_next (r : Reader) : r.next.rest = r.rest.tail := by
  cases r with
  | mk rest place lineRead => cases rest <;> simp [next]; split <;> rfl

@[simp] theorem rest_skip (r : Reader) (n : Nat) : (r.skip n).rest = r.rest.drop n := by
  induction n generalizing r with
  | zero => rfl
  | succ n ih => simp [skip, ih]

theorem skip_add (r : Reader) (m n : Nat) : r.skip (m + n) = (r.skip m).skip n := by
  induction m generalizing r with
  | zero => simp [skip]
  | succ m ih => rw [Nat.succ_add]; exact ih r.next

theorem offset_skip (r : Reader) (n : Nat) :
    (r.skip n).place.offset = r.place.offset + byteLength (r.rest.take n) := by
  induction n generalizing r with
  | zero => simp [skip]
  | succ n ih =>
    rw [skip, ih]
    cases r with
    | mk rest place lineRead =>
      cases rest with
      | nil => simp [next]
      | cons c rest => simp only [next]; split <;> simp [Nat.add_assoc]

end Reader
end TalAnalysis.Text
