import Untranslated.Text.Case

/-!
# Literal search patterns

A finding exports its evidence as a search pattern: the literal text with a backslash before every
character that a pattern language would read specially. `literal?` reads such a pattern back, and
`searchPattern?` looks for the text it stands for.
-/

namespace Untranslated.Text

/-- The characters that are written with a backslash in a pattern. -/
def specialCharacters : List Char :=
  ['\t', '\n', '\x0b', '\x0c', '\r', ' ', '#', '$', '&', '(', ')', '*', '+', '-', '.', '?', '[',
   '\\', ']', '^', '\x7b', '|', '\x7d', '~']

/-- The pattern that matches exactly one given character. -/
def escapeChar (c : Char) : Text := if c ∈ specialCharacters then ['\\', c] else [c]

/-- The pattern that matches exactly the given text. -/
def escape (s : Text) : Text := s.flatMap escapeChar

/-- The characters that stand for something else when no backslash precedes them. -/
def operatorCharacters : List Char :=
  ['$', '(', ')', '*', '+', '.', '?', '[', '\\', '^', '\x7b', '|']

/-- The text that a pattern stands for, when it stands for just one. Behind a backslash, letters
and digits have meanings of their own. -/
def literal? : Text → Option Text
  | [] => some []
  | '\\' :: c :: rest =>
    if isLetterOrDigit c then none else (literal? rest).map (c :: ·)
  | c :: rest => if c ∈ operatorCharacters then none else (literal? rest).map (c :: ·)

/-- Whether `s` begins with `lead`, up to case if so asked. -/
def startsWithLetters (ignoreCase : Bool) : Text → Text → Bool
  | [], _ => true
  | _ :: _, [] => false
  | a :: lead, b :: s =>
    (if ignoreCase then sameLetter a b else a == b) && startsWithLetters ignoreCase lead s

/-- The offset of the leftmost occurrence of `pat`, up to case if so asked. -/
def findLetters? (ignoreCase : Bool) (pat : Text) : Text → Option Nat
  | [] => if pat.isEmpty then some 0 else none
  | c :: rest =>
    if startsWithLetters ignoreCase pat (c :: rest) then some 0
    else (findLetters? ignoreCase pat rest).map (· + 1)

/-- The range of the leftmost match of a literal pattern. -/
def searchPattern? (ignoreCase : Bool) (pattern subject : Text) : Option (Nat × Nat) := do
  let text ← literal? pattern
  let start ← findLetters? ignoreCase text subject
  some (start, start + text.length)

end Untranslated.Text
