import Untranslated.Text.Basic

/-!
# Globs

Glob patterns over whole names: a star matches any text, slashes included, a question mark any one
character, and brackets a set of characters. A set without a closing bracket is a literal bracket.
-/

namespace Untranslated

/-- A piece of a glob. -/
inductive GlobPiece where
  | anyText
  | anyChar
  /-- One character of the given ranges, or, when negated, one outside of them. -/
  | set (negated : Bool) (ranges : List (Char × Char))
  | literal (c : Char)
  deriving DecidableEq, Repr, Inhabited

/-- A glob pattern. -/
abbrev Glob := List GlobPiece

namespace Glob

/-- The ranges that the inside of a set denotes. A dash between two characters makes a range, which
is empty if its ends are in the wrong order. -/
def setRanges : Text → List (Char × Char)
  | [] => []
  | x :: '-' :: y :: rest => (x, y) :: setRanges rest
  | x :: rest => (x, x) :: setRanges rest

/-- The set of the given ranges. Those with their ends in the wrong order are dropped, and an
exclamation mark that then stands first negates the set; of a range from an exclamation mark the
dash and the end stay as members. -/
def setPiece (negated : Bool) (ranges : List (Char × Char)) : GlobPiece :=
  let kept := ranges.filter fun (lo, hi) => lo ≤ hi
  match negated, kept with
  | false, ('!', hi) :: rest =>
    .set true (if hi = '!' then rest else ('-', '-') :: (hi, hi) :: rest)
  | _, _ => .set negated kept

/-- The set behind an opening bracket and the rest behind its closing one. Right behind the opening
bracket, or behind the negation there, a closing bracket is a member. -/
def readSet? (s : Text) : Option (GlobPiece × Text) :=
  let (negated, body) := match s with
    | '!' :: rest => (true, rest)
    | rest => (false, rest)
  let (first, body) := match body with
    | ']' :: rest => ([']'], rest)
    | rest => ([], rest)
  (Text.cutAt? ']' body).map fun (inside, rest) =>
    (setPiece negated (setRanges (first ++ inside)), rest)

/-- The glob that a text denotes. -/
def ofText (s : Text) : Glob :=
  match s with
  | [] => []
  | '*' :: rest => .anyText :: ofText rest
  | '?' :: rest => .anyChar :: ofText rest
  | '[' :: rest =>
    match readSet? rest with
    | some (piece, tail) =>
      if tail.length ≤ rest.length then piece :: ofText tail else [piece]
    | none => .literal '[' :: ofText rest
  | c :: rest => .literal c :: ofText rest
termination_by s.length
decreasing_by all_goals simp_wf <;> omega

/-- Whether a single-character piece matches a character. -/
def pieceMatches : GlobPiece → Char → Bool
  | .anyText, _ | .anyChar, _ => true
  | .set negated ranges, c => (ranges.any fun (lo, hi) => lo ≤ c && c ≤ hi) != negated
  | .literal d, c => d == c

/-- Whether a glob matches a whole text. -/
def matchesText : Glob → Text → Bool
  | [], s => s.isEmpty
  | .anyText :: ps, [] => matchesText ps []
  | .anyText :: ps, c :: rest => matchesText ps (c :: rest) || matchesText (.anyText :: ps) rest
  | _ :: _, [] => false
  | p :: ps, c :: rest => pieceMatches p c && matchesText ps rest
termination_by ps s => (ps.length, s.length)

/-- Whether one of the patterns matches a text. -/
def anyMatches (patterns : List Text) (s : Text) : Bool :=
  patterns.any fun p => matchesText (ofText p) s

end Glob

end Untranslated
