import TalAnalysis.Text.Reader
import TalAnalysis.Text.Span
import TalAnalysis.Text.WhiteSpace

/-!
# Editor positions

An editor names a place of a text by its line and by the UTF-16 units before it on that line, both
from zero. Lines end as they do for the lexer: at a line feed, at a carriage return, and once for
the two together.

* `positionAt` gives the position of an offset. Beyond the end it gives the position of the end.
* `offsetAt?` gives the offset of a position. A position beyond the end of its line stands for that
  end, one inside a character for its front, and one on no line for nothing.
-/

namespace TalAnalysis.Editor
open Text

/-- A place by line and UTF-16 units. -/
structure Position where
  line : Nat
  character : Nat
deriving DecidableEq, Repr, Inhabited

structure TextRange where
  start : Position
  stop : Position
deriving DecidableEq, Repr, Inhabited

def Position.after (p : Position) (c : Char) (rest : List Char) : Position :=
  if breaksLine c rest then ⟨p.line + 1, 0⟩
  else if c = '\r' then p
  else ⟨p.line, p.character + unitSize c⟩

def positionFrom (p : Position) (offset : Nat) : List Char → Position
  | [] => p
  | c :: text =>
    if offset = 0 then p else positionFrom (p.after c text) (offset - c.utf8Size) text

def positionAt (source : String) (offset : Nat) : Position :=
  positionFrom ⟨0, 0⟩ offset source.toList

def offsetFrom? (target p : Position) (offset : Nat) : List Char → Option Nat
  | [] => if p.line = target.line then some offset else none
  | c :: text =>
    if p.line = target.line ∧ (target.character < p.character + unitSize c ∨ isLineBreak c) then
      some offset
    else offsetFrom? target (p.after c text) (offset + c.utf8Size) text

def offsetAt? (source : String) (target : Position) : Option Nat :=
  offsetFrom? target ⟨0, 0⟩ 0 source.toList

/-- The range of a span. An empty span takes in the next byte, so that there is something to show.
-/
def rangeOf (source : String) (span : Span) : TextRange :=
  ⟨positionAt source span.start, positionAt source (max span.stop (span.start + 1))⟩

/-- The text before a place stands on a directive line: a `?` is the first character of its last
line that is not white space. -/
def opensDirectiveLine (before : List Char) : Bool :=
  let line := (before.reverse.takeWhile fun c => !isLineBreak c).reverse
  (line.dropWhile isWhiteSpace).head? = some '?'

/-- An offset lies on a directive line, after its mark. Nothing is said of an offset inside a
character. -/
def onDirectiveLine? (source : String) (offset : Nat) : Option Bool :=
  let text := source.toList
  (cutAt? text (min offset (byteLength text))).map fun (before, _) => opensDirectiveLine before

end TalAnalysis.Editor
