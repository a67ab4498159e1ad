import Untranslated.Html.Reference

/-!
# References as written

How a character reference looks in the source: an ampersand, a name or a number, and an optional
semicolon. Whether the name is known does not matter here.
-/

namespace Untranslated.WrittenReference

/-- The pattern that references match, in the notation of search patterns. -/
def pattern : Text := "&(?:[A-Za-z][A-Za-z0-9]*|#[0-9]+|#[xX][0-9A-Fa-f]+);?".toList

/-- What can follow one or more characters satisfying `p`, the longest run first. -/
def afterRun (p : Char → Bool) : Text → List Text
  | [] => []
  | c :: rest => if p c then afterRun p rest ++ [rest] else []

/-- What can follow an optional semicolon, the semicolon taken first. -/
def afterSemicolon : Text → List Text
  | ';' :: rest => [rest, ';' :: rest]
  | rest => [rest]

/-- What can follow the name or number behind an ampersand, the longest one first. -/
def afterBody : Text → List Text
  | '#' :: 'x' :: rest | '#' :: 'X' :: rest => afterRun Text.isHexDigit rest
  | '#' :: rest => afterRun Text.isDigit rest
  | c :: rest => if Text.isLetter c then afterRun Text.isLetterOrDigit rest ++ [rest] else []
  | [] => []

/-- What can follow a reference at the beginning of a text, the longest reference first. -/
def rests : Text → List Text
  | '&' :: rest => (afterBody rest).flatMap afterSemicolon
  | _ => []

/-- What follows the longest reference at the beginning of a text. -/
def longest? (s : Text) : Option Text := (rests s).head?

/-- Whether a text is one whole reference. -/
def isWhole (s : Text) : Bool := (rests s).contains []

/-- Whether a reference can be read and stands for nothing visible. -/
def isBlank (s : Text) : Bool :=
  (Reference.overlong? s).isNone && Text.isBlank (Reference.decode s)

end Untranslated.WrittenReference
