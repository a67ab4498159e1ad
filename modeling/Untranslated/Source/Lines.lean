import Untranslated.Text.Basic

/-!
# Lines of a source text

Lines and columns are counted from one, in code points of the unmodified text, so positions match
what an editor shows. A carriage return followed by a line feed, a lone line feed and a lone
carriage return each end one line.
-/

namespace Untranslated

/-- A half-open range of offsets. -/
structure Span where
  start : Nat
  stop : Nat
  deriving DecidableEq, Repr, Inhabited

/-- Whether an offset lies in the range. -/
def Span.contains (s : Span) (offset : Int) : Bool := s.start ≤ offset && offset < s.stop

/-- A line and a character in it, both counted from one. -/
structure Position where
  line : Nat
  character : Nat
  deriving DecidableEq, Repr, Inhabited

/-- Lexicographic order of positions. -/
def Position.le (p q : Position) : Bool :=
  p.line < q.line || (p.line == q.line && p.character ≤ q.character)

/-- A source text together with the content range of each of its lines. -/
structure Lines where
  text : Text
  /-- The range of each line without its terminator. -/
  spans : List Span
  deriving Repr, Inhabited

namespace Lines

/-- The line ranges of `rest`, which begins at offset `pos` inside a line begun at `start`. -/
def spansFrom (start pos : Nat) : Text → List Span
  | [] => [⟨start, pos⟩]
  | '\r' :: '\n' :: rest => ⟨start, pos⟩ :: spansFrom (pos + 2) (pos + 2) rest
  | c :: rest =>
    if c = '\r' ∨ c = '\n' then ⟨start, pos⟩ :: spansFrom (pos + 1) (pos + 1) rest
    else spansFrom start (pos + 1) rest

/-- The lines of a text. -/
def of (text : Text) : Lines := ⟨text, spansFrom 0 0 text⟩

/-- How many lines there are; at least one. -/
def count (ls : Lines) : Nat := ls.spans.length

/-- The line that an offset lies on: as many lines begin at or before it. -/
def lineOf (ls : Lines) (offset : Int) : Nat :=
  max (ls.spans.countP fun s => (s.start : Int) ≤ offset) 1

/-- The content range of a line that exists. -/
def spanOf (ls : Lines) (line : Nat) : Span := ls.spans.getD (line - 1) ⟨0, 0⟩

/-- The content of a line that exists. -/
def textOf (ls : Lines) (line : Nat) : Text :=
  Text.slice ls.text (ls.spanOf line).start (ls.spanOf line).stop

/-- The position of an offset; offsets beyond either end are moved to that end. -/
def locate (ls : Lines) (offset : Int) : Position :=
  let o := min offset.toNat ls.text.length
  let line := ls.lineOf o
  ⟨line, o - (ls.spanOf line).start + 1⟩

/-- The content range of a line given by any integer. Numbers from zero downwards count lines
from the end, zero being the last one. -/
def spanOf? (ls : Lines) (line : Int) : Option Span :=
  let i := line - 1
  let i := if i < 0 then i + ls.count else i
  if i < 0 then none else ls.spans[i.toNat]?

/-- The content of a line given by any integer. -/
def textOf? (ls : Lines) (line : Int) : Option Text :=
  (ls.spanOf? line).map fun s => Text.slice ls.text s.start s.stop

end Lines

end Untranslated
