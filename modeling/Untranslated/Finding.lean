import Untranslated.Locate.Resolver
import Untranslated.Rule
import Untranslated.Text.Escaped

/-!
# Findings

A finding is one line of hardcoded text: the rule it breaks, its literal text, its position and the
source around it. A text that runs over several lines gives one finding per line that shows some of
it; all but the first are marked as continuations.
-/

namespace Untranslated

/-- Details of one hardcoded string. -/
structure Finding where
  id : Text
  code : Text
  reason : Text
  /-- The evidence as it stands in the source. -/
  literal : Text
  line : Int
  character : Int
  /-- The source around the evidence. -/
  scope : Text
  deriving DecidableEq, Repr, Inhabited

/-- A finding together with the name of its file. -/
structure Record where
  file : Text
  finding : Finding
  deriving DecidableEq, Repr, Inhabited

namespace Finding

/-- What marks the reason of a continuation. -/
def continuedMark : Text := " (continued)".toList

/-- Whether the finding continues the one before it. -/
def isContinuation (f : Finding) : Bool := continuedMark.isSuffixOf f.reason

/-- The evidence as a search pattern. -/
def pattern (f : Finding) : Text := Text.escape f.literal

/-- Order by line, then by character. -/
def le (f g : Finding) : Bool :=
  f.line < g.line || (f.line == g.line && f.character ≤ g.character)

/-- A finding at a position. -/
def make (rule : Rule) (reason literal scope : Text) (p : Position) : Finding :=
  ⟨rule.id, rule.code, reason, literal, p.line, p.character, scope⟩

/-- The part of `[start, stop)` on one line: where its visible part begins, and that part. -/
def lineFragment (lines : Lines) (start stop : Int) (line : Nat) : Int × Text :=
  let whole := lines.spanOf line
  let first := max start whole.start
  let fragment := Text.sliceAt lines.text first (min stop whole.stop)
  (first + (fragment.length - (Text.trimLeft fragment).length : Nat), Text.trim fragment)

/-- The lines that a range touches. -/
def touchedLines (lines : Lines) (start stop : Int) : List Nat :=
  let first := lines.lineOf start
  let last := lines.lineOf (max (stop - 1) start)
  List.range' first (last + 1 - first)

/-- One finding per line of the range that shows something. The end of the range may be counted from
the end of the source; it then lies on the line of its beginning. -/
def ofText (rule : Rule) (start stop : Int) (lines : Lines) : List Finding :=
  let shown := (touchedLines lines start stop).filterMap fun line =>
    let (first, literal) := lineFragment lines start stop line
    if literal.isEmpty then none else some (line, first, literal)
  shown.mapIdx fun i (line, first, literal) =>
    let reason := if i = 0 then rule.reason else rule.reason ++ continuedMark
    make rule reason literal (Text.trim (lines.textOf line)) (lines.locate first)

/-- The finding of an attribute value. Without a scope, or with an empty one, the source line
stands in. -/
def ofAttribute (rule : Rule) (start stop : Int) (scope : Option Text) (lines : Lines) : Finding :=
  let p := lines.locate start
  let scope := match scope with
    | some (c :: cs) => c :: cs
    | _ => Text.trim (lines.textOf p.line)
  make rule rule.reason (Text.sliceAt lines.text start stop) scope p

end Finding

end Untranslated
