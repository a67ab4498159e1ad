import Untranslated.Locate.WrittenReference
import Untranslated.Source.Lines
import Untranslated.Text.Escaped

/-!
# Patterns of decoded values

A decoded value may be written in many ways in the source: every character other than an ASCII
letter or digit may be a reference, and a run of whitespace may be any run of whitespace and
references. An unknown named reference keeps its name in the decoded value but loses its semicolon,
so a semicolon may follow it.

A pattern is a list of pieces. `match?` tries the ways to read each piece in a fixed order of
preference and backs up when a later piece does not fit.
-/

namespace Untranslated

/-- A piece of a value pattern. -/
inductive Piece where
  /-- An ASCII letter or digit, written as itself. -/
  | plain (c : Char)
  /-- Any other character, written as itself or as a reference. -/
  | encodable (c : Char)
  /-- A run of whitespace characters and references. -/
  | space
  /-- A semicolon that may be missing. -/
  | semicolon
  deriving DecidableEq, Repr, Inhabited

/-- A pattern for the ways to write a value. -/
abbrev ValuePattern := List Piece

namespace Piece

/-- The piece of a single character. -/
def ofChar (c : Char) : Piece := if Text.isLetterOrDigit c then .plain c else .encodable c

/-- A piece in the notation of search patterns. -/
def text : Piece → Text
  | .plain c => [c]
  | .encodable c =>
    "(?:".toList ++ Text.escapeChar c ++ ['|'] ++ WrittenReference.pattern ++ [')']
  | .space => "(?:\\s|".toList ++ WrittenReference.pattern ++ ")+".toList
  | .semicolon => ";?".toList

/-- What can follow one whitespace character or one reference. -/
def afterSpaceUnit : Text → List Text
  | [] => []
  | c :: rest => (if Text.isSpace c then [rest] else []) ++ WrittenReference.rests (c :: rest)

/-- What can follow a run of whitespace and references, longer runs first. -/
def afterSpace (s : Text) : List Text :=
  (afterSpaceUnit s).attach.flatMap fun ⟨r, _⟩ =>
    if r.length < s.length then afterSpace r ++ [r] else [r]
termination_by s.length

/-- What can follow a piece at the beginning of a text, in order of preference. -/
def rests : Piece → Text → List Text
  | .plain _, [] => []
  | .plain c, d :: rest => if c = d then [rest] else []
  | .encodable _, [] => []
  | .encodable c, d :: rest =>
    (if c = d then [rest] else []) ++ WrittenReference.rests (d :: rest)
  | .space, s => afterSpace s
  | .semicolon, s => WrittenReference.afterSemicolon s

end Piece

namespace ValuePattern

/-- Characters of a reference name that survives decoding. -/
def isNameChar (c : Char) : Bool := Text.isLetterOrDigit c || c == '-' || c == '.'

/-- The pattern of a value. -/
def ofValue (value : Text) : ValuePattern :=
  match value with
  | [] => []
  | c :: rest =>
    if Text.isSpace c then
      .space :: ofValue (rest.dropWhile Text.isSpace)
    else if c = '&' && rest.head?.any Text.isLetter then
      .encodable '&' :: (rest.takeWhile isNameChar).map Piece.ofChar ++
        .semicolon :: ofValue (rest.dropWhile isNameChar)
    else Piece.ofChar c :: ofValue rest
termination_by value.length
decreasing_by
  · have := (List.dropWhile_sublist Text.isSpace (l := rest)).length_le
    simp_wf; omega
  · have := (List.dropWhile_sublist isNameChar (l := rest)).length_le
    simp_wf; omega
  · simp_wf

/-- A pattern in the notation of search patterns. -/
def text (p : ValuePattern) : Text := p.flatMap Piece.text

/-- The rest behind the preferred way to read the pieces such that the rest is accepted. -/
def match? (accept : Text → Bool) : ValuePattern → Text → Option Text
  | [], s => if accept s then some s else none
  | p :: ps, s => (p.rests s).findSome? (match? accept ps)

/-- Whether the whole text is a way to write the value. -/
def matchesWhole (p : ValuePattern) (s : Text) : Bool := (match? List.isEmpty p s).isSome

/-- The length of the preferred match at the beginning of a text. -/
def matchLength? (p : ValuePattern) (s : Text) : Option Nat :=
  (match? (fun _ => true) p s).map fun rest => s.length - rest.length

/-- The places of the pattern in a text that begins at the given offset, from left to right and
without overlap; `skip` characters belong to the previous place. An empty match is followed by the
next character. -/
def findAll (p : ValuePattern) (offset skip : Nat) : Text → List Span
  | [] =>
    match skip, p.matchLength? [] with
    | 0, some n => [⟨offset, offset + n⟩]
    | _, _ => []
  | c :: rest =>
    match skip with
    | skip + 1 => findAll p (offset + 1) skip rest
    | 0 =>
      match p.matchLength? (c :: rest) with
      | some n => ⟨offset, offset + n⟩ :: findAll p (offset + 1) (n - 1) rest
      | none => findAll p (offset + 1) 0 rest

end ValuePattern

end Untranslated
