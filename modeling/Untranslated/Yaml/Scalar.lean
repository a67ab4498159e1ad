import Untranslated.Yaml.Token

/-!
# Reading YAML scalars

Scalars come in four styles: plain, single and double quoted, and indented blocks that keep or fold
their line ends. Each reader starts at the first character of its scalar and returns the text
together with the place behind it.
-/

namespace Untranslated.Yaml

/-! ## Quoted scalars -/

/-- The character that a letter behind a backslash stands for. -/
def escapes : List (Char × Nat) :=
  [('0', 0), ('a', 0x07), ('b', 0x08), ('t', 0x09), ('\t', 0x09), ('n', 0x0A), ('v', 0x0B),
   ('f', 0x0C), ('r', 0x0D), ('e', 0x1B), (' ', 0x20), ('"', 0x22), ('\\', 0x5C), ('/', 0x2F),
   ('N', 0x85), ('_', 0xA0), ('L', 0x2028), ('P', 0x2029)]

/-- How many hexadecimal digits follow a letter behind a backslash. -/
def hexEscapes : List (Char × Nat) := [('x', 2), ('u', 4), ('U', 8)]

/-- The number written with exactly `width` hexadecimal digits at a place. -/
def hexNumber? (width : Nat) (c : Cursor) : Option Nat :=
  let digits := c.rest.take width
  if digits.length = width ∧ digits.all Text.isHexDigit then some (Text.toNat 16 digits) else none

/-- The second half of a character that is written as two halves of 16 bits. -/
def lowHalf? (c : Cursor) : Option Nat :=
  match c.rest with
  | '\\' :: 'u' :: _ =>
    (hexNumber? 4 (c.forward 2)).filter fun n => 0xDC00 ≤ n && n ≤ 0xDFFF
  | _ => none

/-- The character of a number, and the place behind it. Two halves of 16 bits make one character;
a half alone has none and is replaced. -/
def numberedChar (n : Nat) (c : Cursor) : Except YamlError (Char × Cursor) :=
  if 0x80000000 ≤ n then .error (.fault .hugeCharacter)
  else if 0x110000 ≤ n then .error (.fault .noCharacter)
  else if 0xD800 ≤ n ∧ n ≤ 0xDFFF then
    match lowHalf? c with
    | some low =>
      if n ≤ 0xDBFF then
        .ok (Char.ofNat (0x10000 + (n - 0xD800) * 0x400 + (low - 0xDC00)), c.forward 6)
      else .ok (Char.ofNat 0xFFFD, c)
    | none => .ok (Char.ofNat 0xFFFD, c)
  else .ok (Char.ofNat n, c)

/-- The line ends at a place inside a quoted scalar, and the place behind them and the blanks
around them. -/
def quotedBreaks : Nat → Cursor → Except YamlError (Text × Cursor)
  | 0, c => .ok ([], c)
  | fuel + 1, c =>
    if c.atSeparator then .error .malformed
    else
      let c := (c.takeWhile fun x => x == ' ' || x == '\t').2
      if isBreak (c.peek 0) then do
        let (b, c) := c.lineBreak
        let (more, c) ← quotedBreaks fuel c
        return (b ++ more, c)
      else return ([], c)

/-- A run without blanks and line ends inside a quoted scalar. -/
def quotedRun (double : Bool) : Nat → Cursor → Except YamlError (Text × Cursor)
  | 0, c => .ok ([], c)
  | fuel + 1, c => do
    let (run, c) := c.takeWhile fun x =>
      !(x == '\x27' || x == '"' || x == '\\' || isBlankOrEnd x)
    let x := c.peek 0
    if !double && x == '\x27' && c.peek 1 == '\x27' then
      let (more, c) ← quotedRun double fuel (c.forward 2)
      return (run ++ '\x27' :: more, c)
    else if (double && x == '\x27') || (!double && (x == '"' || x == '\\')) then
      let (more, c) ← quotedRun double fuel c.next
      return (run ++ x :: more, c)
    else if double && x == '\\' then
      let c := c.next
      let x := c.peek 0
      match escapes.lookup x, hexEscapes.lookup x with
      | some n, _ =>
        let (more, c) ← quotedRun double fuel c.next
        return (run ++ Char.ofNat n :: more, c)
      | none, some width =>
        let c := c.next
        match hexNumber? width c with
        | some n =>
          let (x, c) ← numberedChar n (c.forward width)
          let (more, c) ← quotedRun double fuel c
          return (run ++ x :: more, c)
        | none => .error .malformed
      | none, none =>
        if isBreak x then
          let (breaks, c) ← quotedBreaks fuel c.lineBreak.2
          let (more, c) ← quotedRun double fuel c
          return (run ++ breaks ++ more, c)
        else .error .malformed
    else return (run, c)

/-- Blanks or line ends inside a quoted scalar; a single line end folds into a blank. -/
def quotedSpace (fuel : Nat) (c : Cursor) : Except YamlError (Text × Cursor) := do
  let (blanks, c) := c.takeWhile fun x => x == ' ' || x == '\t'
  let x := c.peek 0
  if x == endMark then .error .malformed
  else if isBreak x then
    let (b, c) := c.lineBreak
    let (breaks, c) ← quotedBreaks fuel c
    let lead := if b != ['\n'] then b else if breaks.isEmpty then [' '] else []
    return (lead ++ breaks, c)
  else return (blanks, c)

/-- The rest of a quoted scalar through its closing quote. -/
def quotedRest (quote : Char) : Nat → Cursor → Except YamlError (Text × Cursor)
  | 0, _ => .error .malformed
  | fuel + 1, c => do
    if c.peek 0 == quote then return ([], c.next)
    else
      let (space, c) ← quotedSpace fuel c
      let (run, c) ← quotedRun (quote == '"') fuel c
      let (more, c) ← quotedRest quote fuel c
      return (space ++ run ++ more, c)

/-- A quoted scalar. -/
def quotedScalar (fuel : Nat) (c : Cursor) : Except YamlError (Text × Cursor) := do
  let quote := c.peek 0
  let (run, c) ← quotedRun (quote == '"') fuel c.next
  let (more, c) ← quotedRest quote fuel c
  return (run ++ more, c)

/-! ## Plain scalars -/

/-- How many characters of a plain scalar follow without blank. Inside brackets, punctuation ends
the scalar too. -/
def plainLength (inFlow : Bool) : Text → Nat
  | [] => 0
  | x :: rest =>
    let y := rest.headD endMark
    if isBlankOrEnd x then 0
    else if x == ':' &&
        (isBlankOrEnd y || (inFlow && [',', '[', ']', '\x7b', '\x7d'].contains y)) then 0
    else if inFlow && [',', '?', '[', ']', '\x7b', '\x7d'].contains x then 0
    else 1 + plainLength inFlow rest

/-- The blank lines at a place between two lines of a plain scalar, and the place behind them;
nothing when a document marker stands there. -/
def plainBreaks : Nat → Cursor → Option (Text × Cursor)
  | 0, c => some ([], c)
  | fuel + 1, c =>
    if c.peek 0 == ' ' then plainBreaks fuel c.next
    else if isBreak (c.peek 0) then
      let (b, c) := c.lineBreak
      if c.atSeparator then none
      else (plainBreaks fuel c).map fun (more, c) => (b ++ more, c)
    else some ([], c)

/-- What stands between two runs of a plain scalar: the text it contributes, the place behind it
and whether a line end was passed. -/
def plainSpace (fuel : Nat) (c : Cursor) : Text × Cursor × Bool :=
  let (blanks, c) := c.takeWhile (· == ' ')
  if isBreak (c.peek 0) then
    let (b, c) := c.lineBreak
    if c.atSeparator then ([], c, true)
    else
      match plainBreaks fuel c with
      | none =>
        -- The cursor only has to be at the marker; nothing is contributed.
        ([], skipToSeparator fuel c, true)
      | some (breaks, c) =>
        let lead := if b != ['\n'] then b else if breaks.isEmpty then [' '] else []
        (lead ++ breaks, c, true)
  else (blanks, c, false)
where
  /-- The place of the next document marker behind blank lines. -/
  skipToSeparator : Nat → Cursor → Cursor
    | 0, c => c
    | fuel + 1, c => if c.atSeparator then c else skipToSeparator fuel c.next

/-- A plain scalar whose continuation lines are indented to at least the given column; also whether
it ended behind a line end. -/
def plainRuns (inFlow : Bool) (indent : Int) : Nat → Bool → Cursor → Text × Cursor × Bool
  | 0, passed, c => ([], c, passed)
  | fuel + 1, passed, c =>
    if c.peek 0 == '#' then ([], c, passed)
    else
      match plainLength inFlow c.rest with
      | 0 => ([], c, passed)
      | n + 1 =>
        let run := c.rest.take (n + 1)
        let (space, c, passed) := plainSpace fuel (c.forward (n + 1))
        if space.isEmpty || c.peek 0 == '#' || (!inFlow && (c.column : Int) < indent) then
          (run, c, passed)
        else
          let (more, c, passedLater) := plainRuns inFlow indent fuel passed c
          -- Blanks count only when another run follows them.
          (if more.isEmpty then run else run ++ space ++ more, c, passedLater)

/-! ## Block scalars -/

/-- What becomes of the line ends behind a block scalar. -/
inductive Chomping where
  | clip
  | strip
  | keep
  deriving DecidableEq, Repr

/-- A chomping indicator. -/
def chomping? (x : Char) : Option Chomping :=
  if x == '+' then some .keep else if x == '-' then some .strip else none

/-- A digit that gives an indentation. -/
def increment? (x : Char) : Option Nat := if Text.isDigit x then some (Text.hexValue x) else none

/-- The indicators behind `|` or `>`. -/
def blockHeader (c : Cursor) : Except YamlError (Chomping × Option Nat × Cursor) := do
  let (chomping, increment, c) := match chomping? (c.peek 0) with
    | some ch => match increment? (c.peek 1) with
      | some n => (ch, some n, c.forward 2)
      | none => (ch, none, c.next)
    | none => match increment? (c.peek 0) with
      | some n => match chomping? (c.peek 1) with
        | some ch => (ch, some n, c.forward 2)
        | none => (.clip, some n, c.next)
      | none => (.clip, none, c)
  if increment == some 0 || !(c.peek 0 == ' ' || isBreakOrEnd (c.peek 0)) then .error .malformed
  else
    let c := (c.takeWhile (· == ' ')).2
    let c := if c.peek 0 == '#' then (c.takeWhile fun x => !isBreakOrEnd x).2 else c
    if isBreakOrEnd (c.peek 0) then return (chomping, increment, c.lineBreak.2)
    else .error .malformed

/-- The blank lines before the first line of a block scalar and the deepest indentation there. -/
def blockIndentation : Nat → Nat → Cursor → Text × Nat × Cursor
  | 0, deepest, c => ([], deepest, c)
  | fuel + 1, deepest, c =>
    if c.peek 0 == ' ' then
      let c := c.next
      blockIndentation fuel (max deepest c.column) c
    else if isBreak (c.peek 0) then
      let (b, c) := c.lineBreak
      let (more, deepest, c) := blockIndentation fuel deepest c
      (b ++ more, deepest, c)
    else ([], deepest, c)

/-- Blanks up to the given column. -/
def skipIndent (indent : Nat) : Nat → Cursor → Cursor
  | 0, c => c
  | fuel + 1, c =>
    if c.column < indent && c.peek 0 == ' ' then skipIndent indent fuel c.next else c

/-- The blank lines at a place inside a block scalar, and the place behind the indentation of the
line that follows them. -/
def blockBreaks (indent : Nat) : Nat → Cursor → Text × Cursor
  | 0, c => ([], c)
  | fuel + 1, c =>
    let c := skipIndent indent (fuel + 1) c
    if isBreak (c.peek 0) then
      let (b, c) := c.lineBreak
      let (more, c) := blockBreaks indent fuel c
      (b ++ more, c)
    else ([], c)

/-- The lines of a block scalar: their text, the last line end, the blank lines behind it and the
place behind all of them. -/
def blockLines (folded : Bool) (indent : Nat) :
    Nat → Text → Text → Cursor → Text × Text × Text × Cursor
  | 0, lineEnd, breaks, c => ([], lineEnd, breaks, c)
  | fuel + 1, lineEnd, breaks, c =>
    if c.column = indent ∧ c.peek 0 ≠ endMark then
      let indented := c.peek 0 == ' ' || c.peek 0 == '\t'
      let (line, c) := c.takeWhile fun x => !isBreakOrEnd x
      let (lineEnd, c) := c.lineBreak
      let (after, c) := blockBreaks indent (fuel + 1) c
      if c.column = indent ∧ c.peek 0 ≠ endMark then
        let joint :=
          if folded && lineEnd == ['\n'] && !indented && c.peek 0 != ' ' && c.peek 0 != '\t' then
            if after.isEmpty then [' '] else []
          else lineEnd
        let (more, lineEnd, after, c) := blockLines folded indent fuel lineEnd after c
        (breaks ++ line ++ joint ++ more, lineEnd, after, c)
      else (breaks ++ line, lineEnd, after, c)
    else ([], lineEnd, breaks, c)

/-- A block scalar in a collection indented to the given column. -/
def blockScalar (fuel : Nat) (outer : Int) (c : Cursor) : Except YamlError (Text × Cursor) := do
  let folded := c.peek 0 == '>'
  let (chomping, increment, c) ← blockHeader c.next
  let least := (max (outer + 1) 1).toNat
  let (indent, breaks, c) := match increment with
    | some n =>
      let indent := least + n - 1
      let (breaks, c) := blockBreaks indent fuel c
      (indent, breaks, c)
    | none =>
      let (breaks, deepest, c) := blockIndentation fuel 0 c
      (max least deepest, breaks, c)
  let (lines, lineEnd, breaks, c) := blockLines folded indent fuel [] breaks c
  let tail := match chomping with
    | .strip => []
    | .clip => lineEnd
    | .keep => lineEnd ++ breaks
  return (lines ++ tail, c)

end Untranslated.Yaml
