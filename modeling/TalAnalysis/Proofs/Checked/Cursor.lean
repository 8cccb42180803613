import TalAnalysis.Proofs.Lexer.Cut

namespace TalAnalysis

namespace Text

variable {source : List Char} {r : Reader}

def front? (text : List Char) (stop : Nat) : Option (List Char) := (cutAt? text stop).map Prod.fst

def tail? (text : List Char) (start : Nat) : Option (List Char) := (cutAt? text start).map Prod.snd

theorem front?_byteLength (a b : List Char) : front? (a ++ b) (byteLength a) = some a := by
  rw [front?, cutAt?_byteLength, Option.map_some]

theorem tail?_byteLength (a b : List Char) : tail? (a ++ b) (byteLength a) = some b := by
  rw [tail?, cutAt?_byteLength, Option.map_some]

theorem front?_take (text : List Char) (n : Nat) :
    front? text (byteLength (text.take n)) = some (text.take n) := by
  have whole := front?_byteLength (text.take n) (text.drop n)
  rwa [List.take_append_drop] at whole

theorem tail?_take (text : List Char) (n : Nat) :
    tail? text (byteLength (text.take n)) = some (text.drop n) := by
  have whole := tail?_byteLength (text.take n) (text.drop n)
  rwa [List.take_append_drop] at whole

theorem front?_takeWhile (p : Char → Bool) (text : List Char) :
    front? text (byteLength (text.takeWhile p)) = some (text.takeWhile p) := by
  have whole := front?_byteLength (text.takeWhile p) (text.dropWhile p)
  rwa [List.takeWhile_append_dropWhile] at whole

theorem tail?_takeWhile (p : Char → Bool) (text : List Char) :
    tail? text (byteLength (text.takeWhile p)) = some (text.dropWhile p) := by
  have whole := tail?_byteLength (text.takeWhile p) (text.dropWhile p)
  rwa [List.takeWhile_append_dropWhile] at whole

theorem byteLength_le_of_front {front text : List Char} (h : front <+: text) :
    byteLength front ≤ byteLength text := by
  obtain ⟨after, rfl⟩ := h
  rw [byteLength_append]
  exact Nat.le_add_right _ _

namespace Reader

def Reads (source : List Char) (r : Reader) : Prop :=
  ∃ earlier, source = earlier ++ (r.linePrior ++ r.rest) ∧
    r.place.offset = byteLength (earlier ++ r.linePrior)

theorem reads_ofText (source : List Char) : (ofText source).Reads source := ⟨[], rfl, rfl⟩

theorem Reads.in (h : r.Reads source) : r.In source := by
  obtain ⟨earlier, cut, offset⟩ := h
  exact ⟨earlier ++ r.linePrior, by rw [cut, List.append_assoc], offset⟩

theorem Reads.next (h : r.Reads source) : r.next.Reads source := by
  obtain ⟨rest, ⟨offset, line, column⟩, lineRead⟩ := r
  obtain ⟨earlier, cut, place⟩ := h
  simp only [linePrior] at cut place
  cases rest with
  | nil => exact ⟨earlier, cut, place⟩
  | cons c rest =>
      simp only [Reader.next]
      split
      · refine ⟨earlier ++ lineRead.reverse ++ [c], ?_, ?_⟩
        · simp [linePrior, cut]
        · simp [linePrior, place, Nat.add_assoc]
      · refine ⟨earlier, ?_, ?_⟩
        · simp [linePrior, cut]
        · simp [linePrior, place, Nat.add_assoc]

theorem Reads.skip (h : r.Reads source) (n : Nat) : (r.skip n).Reads source := by
  induction n generalizing r with
  | zero => exact h
  | succ n ih => exact ih h.next

theorem Reads.slice? (h : r.Reads source) {text : List Char} (front : text <+: r.rest) :
    Text.slice? source r.place.offset (r.skip text.length).place.offset = some text := by
  rw [offset_skip_front front]
  exact h.in.slice? front

theorem next_of_nil (unread : r.rest = []) : r.next = r := by
  rw [next, unread]

theorem skip_of_nil (unread : r.rest = []) (n : Nat) : r.skip n = r := by
  induction n with
  | zero => rfl
  | succ n ih => rw [skip, next_of_nil unread, ih]

theorem skip_length_peek (r : Reader) (n : Nat) : r.skip (r.peek n).length = r.skip n := by
  induction n generalizing r with
  | zero => rfl
  | succ n ih =>
      cases unread : r.rest with
      | nil => rw [skip_of_nil unread, skip_of_nil unread]
      | cons c rest =>
          have later := ih r.next
          rw [peek, rest_next, unread, List.tail_cons] at later
          rw [peek, unread, List.take_succ_cons, List.length_cons, skip, later, skip]

theorem charactersFor_min (text : List Char) (size : Nat) :
    charactersFor text (min size (byteLength text)) = charactersFor text size := by
  induction text generalizing size with
  | nil => rfl
  | cons c text ih =>
      have wide := c.utf8Size_pos
      have none : min size (byteLength (c :: text)) = 0 ↔ size = 0 := by
        rw [byteLength_cons]
        omega
      have left : min size (byteLength (c :: text)) - c.utf8Size =
          min (size - c.utf8Size) (byteLength text) := by
        rw [byteLength_cons]
        omega
      simp only [charactersFor, none, left, ih]

theorem charactersFor_byteLength {text rest : List Char} (front : text <+: rest) :
    charactersFor rest (byteLength text) = text.length := by
  obtain ⟨after, rfl⟩ := front
  induction text with
  | nil => cases after <;> simp [charactersFor]
  | cons c text ih =>
      have := c.utf8Size_pos
      simp [charactersFor, ih]
      omega

end Reader
end Text

namespace Checked
open Text

structure Cursor where
  source : List Char
  place : Place
  lineStart : Nat
deriving DecidableEq, Repr, Inhabited

namespace Cursor

def ofSource (source : List Char) : Cursor := ⟨source, ⟨0, 0, 0⟩, 0⟩

def atEnd (s : Cursor) : Bool := byteLength s.source ≤ s.place.offset

def left (s : Cursor) : Nat := byteLength s.source - s.place.offset

def slice? (s : Cursor) (start stop : Nat) : Option (List Char) := Text.slice? s.source start stop

def rest? (s : Cursor) : Option (List Char) := tail? s.source s.place.offset

def linePrefix? (s : Cursor) : Option (List Char) := s.slice? s.lineStart s.place.offset

def peek? (s : Cursor) : Option (Option Char) := do return (← s.rest?).head?

def peekAt? (s : Cursor) (n : Nat) : Option (Option Char) := do return (← s.rest?)[n]?

def peekN? (s : Cursor) (n : Nat) : Option (List Char) := do
  let rest ← s.rest?
  front? rest (byteLength (rest.take n))

def breaksLine? (s : Cursor) (c : Char) : Option Bool :=
  if c = '\n' then some true
  else if c = '\r' then s.peek?.map (· != some '\n')
  else some false

def consume? (s : Cursor) : Option (Option Char × Cursor) := do
  match ← s.peek? with
  | none => return (none, s)
  | some c =>
    let offset := s.place.offset + c.utf8Size
    let breaks ← breaksLine? { s with place := { s.place with offset } } c
    if breaks then return (some c, ⟨s.source, ⟨offset, s.place.line + 1, 0⟩, offset⟩)
    else return (some c, ⟨s.source, ⟨offset, s.place.line, s.place.column + 1⟩, s.lineStart⟩)

def passed? (s after : Cursor) : Option (List Char × Cursor) := do
  return (← after.slice? s.place.offset after.place.offset, after)

def moveN? (s : Cursor) : Nat → Option Cursor
  | 0 => some s
  | n + 1 => do
    match ← s.consume? with
    | (none, s) => return s
    | (some _, s) => s.moveN? n

def moveTo? (target : Nat) (s : Cursor) : Option Cursor := do
  if s.place.offset < target then
    match ← s.consume? with
    | (none, s) => return s
    | (some _, next) => if _nearer : next.left < s.left then moveTo? target next else none
  else return s
termination_by s.left

def moveWhile? (inClass : Char → Bool) (s : Cursor) : Option Cursor := do
  match ← s.peek? with
  | none => return s
  | some c =>
    if inClass c then
      let (_, next) ← s.consume?
      if _nearer : next.left < s.left then moveWhile? inClass next else none
    else return s
termination_by s.left

def consumeN? (s : Cursor) (n : Nat) : Option (List Char × Cursor) := do s.passed? (← s.moveN? n)

/-- Takes as many bytes as `size` says, and the rest of a character that they end in. The place they
end at is a number without a bound here; it fits in a machine word for each size up to that of the
text ahead (`consumeBytes?_min`). -/
def consumeBytes? (s : Cursor) (size : Nat) : Option (List Char × Cursor) := do
  s.passed? (← s.moveTo? (min (s.place.offset + size) (byteLength s.source)))

def skipWhile? (s : Cursor) (inClass : Char → Bool) : Option (List Char × Cursor) := do
  s.passed? (← s.moveWhile? inClass)

def of (source : List Char) (r : Reader) : Cursor :=
  ⟨source, r.place, r.place.offset - byteLength r.linePrior⟩

variable {source : List Char} {r : Reader} {s : Cursor} {before rest : List Char}

@[simp] theorem source_of (source : List Char) (r : Reader) : (of source r).source = source := rfl

@[simp] theorem place_of (source : List Char) (r : Reader) : (of source r).place = r.place := rfl

theorem ofSource_eq (source : List Char) : ofSource source = of source (.ofText source) := rfl

theorem rest?_of_cut (cut : s.source = before ++ rest)
    (offset : s.place.offset = byteLength before) : s.rest? = some rest := by
  rw [rest?, cut, offset, tail?_byteLength]

theorem rest?_of (h : r.Reads source) : (of source r).rest? = some r.rest := by
  obtain ⟨before, cut, offset⟩ := h.in
  exact rest?_of_cut cut offset

theorem linePrefix?_of (h : r.Reads source) : (of source r).linePrefix? = some r.linePrior := by
  obtain ⟨earlier, cut, offset⟩ := h
  have start : r.place.offset - byteLength r.linePrior = byteLength earlier := by
    rw [offset, byteLength_append]
    omega
  rw [linePrefix?, slice?, of, start, offset, byteLength_append, cut]
  exact slice?_middle earlier r.linePrior r.rest

theorem peek?_of (h : r.Reads source) : (of source r).peek? = some r.rest.head? := by
  rw [peek?, rest?_of h]
  rfl

theorem peekAt?_of (h : r.Reads source) (n : Nat) :
    (of source r).peekAt? n = some (r.peekAt? n) := by
  rw [peekAt?, rest?_of h]
  rfl

theorem peekN?_of (h : r.Reads source) (n : Nat) :
    (of source r).peekN? n = some (r.peek n) := by
  rw [peekN?, rest?_of h]
  exact front?_take r.rest n

theorem atEnd_of (h : r.Reads source) : (of source r).atEnd = r.atEnd := by
  obtain ⟨before, cut, offset⟩ := h.in
  rw [atEnd, of, offset, cut, byteLength_append, Reader.atEnd]
  cases r.rest with
  | nil => simp
  | cons c rest =>
      have := c.utf8Size_pos
      rw [byteLength_cons, List.isEmpty_cons, decide_eq_false_iff_not]
      omega

theorem left_of (h : r.Reads source) : (of source r).left = byteLength r.rest := by
  obtain ⟨before, cut, offset⟩ := h.in
  rw [left, source_of, place_of, cut, offset, byteLength_append, Nat.add_sub_cancel_left]

theorem left_skip_lt (h : r.Reads source) {text : List Char} (front : text <+: r.rest)
    (some : text ≠ []) : (of source (r.skip text.length)).left < (of source r).left := by
  obtain ⟨c, text, rfl⟩ := List.exists_cons_of_ne_nil some
  obtain ⟨after, unread⟩ := front
  have := c.utf8Size_pos
  rw [left_of h, left_of (h.skip _), Reader.rest_skip, ← unread, List.drop_left, byteLength_append,
    byteLength_cons]
  omega

theorem left_next_lt (h : r.Reads source) {c : Char} (unread : r.rest = c :: rest) :
    (of source r.next).left < (of source r).left :=
  left_skip_lt h (unread ▸ List.prefix_append [c] rest) (List.cons_ne_nil c [])

theorem breaksLine?_of_cut (c : Char) (cut : s.source = before ++ rest)
    (offset : s.place.offset = byteLength before) :
    s.breaksLine? c = some (breaksLine c rest) := by
  rw [breaksLine?, peek?, rest?_of_cut cut offset]
  unfold breaksLine
  by_cases feed : c = '\n'
  · simp [feed]
  · by_cases return_ : c = '\r'
    · simp [return_]
    · simp [feed, return_]

theorem consume?_of (h : r.Reads source) :
    (of source r).consume? = some (r.rest.head?, of source r.next) := by
  rw [consume?, peek?_of h]
  obtain ⟨rest, place, lineRead⟩ := r
  cases rest with
  | nil => rfl
  | cons c rest =>
      obtain ⟨earlier, cut, offset⟩ := h
      simp only [Reader.linePrior] at cut offset
      -- Whether `c` breaks the line is looked up from the offset after it.
      have passed (s : Cursor) (same : s.source = source)
          (moved : s.place.offset = place.offset + c.utf8Size) :
          s.breaksLine? c = some (breaksLine c rest) := by
        have cut' : s.source = earlier ++ (lineRead.reverse ++ [c]) ++ rest := by
          rw [same, cut]
          simp
        refine breaksLine?_of_cut c cut' ?_
        rw [moved, offset]
        simp [Nat.add_assoc]
      simp only [List.head?_cons, Option.pure_def, Option.bind_eq_bind, Option.bind_some]
      rw [passed _ rfl rfl, Option.bind_some]
      simp only [Reader.next]
      split
      · simp [of, Reader.linePrior]
      · have start : place.offset - byteLength lineRead.reverse =
            place.offset + c.utf8Size - (byteLength lineRead.reverse + c.utf8Size) := by
          omega
        simp [of, Reader.linePrior, start]

theorem passed?_of (h : r.Reads source) {text : List Char} (front : text <+: r.rest) :
    (of source r).passed? (of source (r.skip text.length)) =
      some (text, of source (r.skip text.length)) := by
  rw [passed?, slice?, of, of, h.slice? front]
  rfl

theorem moveN?_of (h : r.Reads source) (n : Nat) :
    (of source r).moveN? n = some (of source (r.skip n)) := by
  induction n generalizing r with
  | zero => rfl
  | succ n ih =>
      rw [moveN?, consume?_of h]
      cases unread : r.rest with
      | nil => rw [Reader.skip_of_nil unread]; simp [Reader.next_of_nil unread]
      | cons c rest => exact ih h.next

theorem moveWhile?_of (h : r.Reads source) (inClass : Char → Bool) :
    moveWhile? inClass (of source r) =
      some (of source (r.skip (r.rest.takeWhile inClass).length)) := by
  generalize unread : r.rest = rest
  induction rest generalizing r with
  | nil =>
      rw [moveWhile?, peek?_of h, unread]
      rfl
  | cons c rest ih =>
      have later := ih h.next (by rw [Reader.rest_next, unread, List.tail_cons])
      rw [moveWhile?, peek?_of h, unread]
      cases member : inClass c with
      | false => simp [member, Reader.skip]
      | true => simpa [member, consume?_of h, left_next_lt h unread, Reader.skip] using later

theorem moveTo?_of (h : r.Reads source) (target : Nat) :
    moveTo? target (of source r) =
      some (of source (r.skip (Reader.charactersFor r.rest (target - r.place.offset)))) := by
  generalize unread : r.rest = rest
  induction rest generalizing r with
  | nil =>
      rw [moveTo?, consume?_of h, unread, Reader.next_of_nil unread]
      split <;> rfl
  | cons c rest ih =>
      have later := ih h.next (by rw [Reader.rest_next, unread, List.tail_cons])
      have size : r.next.place.offset = r.place.offset + c.utf8Size := by
        have moved := Reader.offset_skip r 1
        simpa [unread, Reader.skip] using moved
      rw [moveTo?, consume?_of h, unread, Reader.charactersFor]
      by_cases reached : r.place.offset < target
      · have more : target - r.place.offset ≠ 0 := by omega
        have left : target - r.next.place.offset = target - r.place.offset - c.utf8Size := by omega
        rw [left] at later
        simpa [reached, more, left_next_lt h unread, Reader.skip] using later
      · have none : target - r.place.offset = 0 := by omega
        simp [reached, none, Reader.skip]

theorem consumeN?_of (h : r.Reads source) (n : Nat) :
    (of source r).consumeN? n = some (r.peek n, of source (r.skip n)) := by
  rw [consumeN?, moveN?_of h, ← Reader.skip_length_peek]
  exact passed?_of h (take_front n r.rest)

theorem skipWhile?_of (h : r.Reads source) (inClass : Char → Bool) :
    (of source r).skipWhile? inClass =
      some (r.run inClass, of source (r.skip (r.run inClass).length)) := by
  rw [skipWhile?, moveWhile?_of h]
  exact passed?_of h (takeWhile_front inClass r.rest)

theorem consumeBytes?_eq (h : r.Reads source) (size : Nat) :
    let count := Reader.charactersFor r.rest size
    (of source r).consumeBytes? size = some (r.peek count, of source (r.skip count)) := by
  intro count
  obtain ⟨before, cut, offset⟩ := h.in
  have left : min (r.place.offset + size) (byteLength source) - r.place.offset =
      min size (byteLength r.rest) := by
    rw [cut, byteLength_append, offset]
    omega
  rw [consumeBytes?, moveTo?_of h, place_of, source_of, left, Reader.charactersFor_min,
    ← Reader.skip_length_peek]
  exact passed?_of h (take_front count r.rest)

/-- No size takes more than that of the text ahead, with which the end stays within the source. -/
theorem consumeBytes?_min (h : r.Reads source) (size : Nat) :
    let bounded := min size (byteLength r.rest)
    (of source r).consumeBytes? size = (of source r).consumeBytes? bounded ∧
      r.place.offset + bounded ≤ byteLength source := by
  intro bounded
  constructor
  · rw [consumeBytes?_eq h, consumeBytes?_eq h, Reader.charactersFor_min]
  · obtain ⟨before, cut, offset⟩ := h.in
    rw [cut, byteLength_append, offset]
    exact Nat.add_le_add_left (Nat.min_le_right _ _) _

theorem consumeBytes?_of (h : r.Reads source) {text : List Char} (front : text <+: r.rest) :
    (of source r).consumeBytes? (byteLength text) =
      some (text, of source (r.skip text.length)) := by
  rw [consumeBytes?_eq h, Reader.charactersFor_byteLength front, Reader.peek,
    ← List.prefix_iff_eq_take.1 front]

end Cursor
end Checked
end TalAnalysis
