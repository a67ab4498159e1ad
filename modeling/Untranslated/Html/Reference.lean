import Untranslated.Html.Reference.Names
import Untranslated.Number.Numeral

/-!
# Character references

A reference stands for one or two characters and is written by name or by number. This module reads
references in two places that differ in their tolerance:

* `decode` replaces every reference in an attribute value or in a piece of source, accepting the
  longest recognised beginning of an unknown name and dropping characters that HTML forbids;
* `ofNumber` and `ofName` give the characters of the references found between tags.
-/

namespace Untranslated

/-- A decimal reference whose number has more digits than are read. -/
structure OverlongReference where
  digits : Nat
  deriving DecidableEq, Repr

/-- The wording for a reference that cannot be read. -/
def OverlongReference.message (e : OverlongReference) : Text := Numeral.limitMessage (some e.digits)

namespace Reference

/-- The character shown for an undecodable reference. -/
def replacement : Char := Char.ofNat 0xFFFD

/-- The characters that numbers 0x80 to 0x9F stand for, by their offset from 0x80. Numbers that
are unassigned in that code page stand for themselves. -/
def windows1252 : List Nat :=
  [0x20AC, 0x81, 0x201A, 0x0192, 0x201E, 0x2026, 0x2020, 0x2021, 0x02C6, 0x2030, 0x0160, 0x2039,
   0x0152, 0x8D, 0x017D, 0x8F, 0x90, 0x2018, 0x2019, 0x201C, 0x201D, 0x2022, 0x2013, 0x2014,
   0x02DC, 0x2122, 0x0161, 0x203A, 0x0153, 0x9D, 0x017E, 0x0178]

/-- Numbers that are no code point of a character. -/
def isOutside (n : Nat) : Bool := (0xD800 ≤ n && n ≤ 0xDFFF) || 0x10FFFF < n

/-- Numbers of characters that HTML forbids. -/
def isForbidden (n : Nat) : Bool :=
  (1 ≤ n && n ≤ 8) || n == 0xB || (0xE ≤ n && n ≤ 0x1F) || (0x7F ≤ n && n ≤ 0x9F) ||
    (0xFDD0 ≤ n && n ≤ 0xFDEF) || n % 0x10000 == 0xFFFE || n % 0x10000 == 0xFFFF

/-- The character of a number between 0x80 and 0x9F. -/
def ofCodePage (n : Nat) : Char := Char.ofNat (windows1252.getD (n - 0x80) n)

/-- The character of a numeric reference found between tags. The number 0 gives the replacement
character here too, so `&#0;` alone is no blank text. -/
def ofNumber (n : Nat) : Char :=
  if n = 0 || isOutside n then replacement
  else if 0x80 ≤ n ∧ n ≤ 0x9F then ofCodePage n
  else Char.ofNat n

/-- The characters of a numeric reference inside an attribute value. -/
def decodeNumber (n : Nat) : Text :=
  if n = 0 then [replacement]
  else if 0x80 ≤ n ∧ n ≤ 0x9F then [ofCodePage n]
  else if isOutside n then [replacement]
  else if isForbidden n then []
  else [Char.ofNat n]

/-- The characters of a name that needs no semicolon. -/
def lenient? (name : Text) : Option Text :=
  (lenientNames.lookup (String.ofList name)).map (List.map Char.ofNat)

/-- The characters of a name that is followed by a semicolon. -/
def terminated? (name : Text) : Option Text :=
  match lenient? name with
  | some cs => some cs
  | none =>
    match name with
    | [] => none
    | c :: _ =>
      ((terminatedNames.lookup c).getD []).lookup (String.ofList name)
        |>.map (List.map Char.ofNat)

/-- The text of a named reference found between tags; an unknown name stands for itself. -/
def ofName (name : Text) : Text := (terminated? name).getD ('&' :: name)

/-- The longest beginning of `name` of at most `n` and at least two characters that needs no
semicolon, with its characters and its length. -/
def longestLenient? (name : Text) : Nat → Option (Text × Nat)
  | 0 | 1 => none
  | n + 2 =>
    match lenient? (name.take (n + 2)) with
    | some cs => some (cs, n + 2)
    | none => longestLenient? name (n + 1)

/-- The characters that a reference name cannot contain. -/
def endsName (c : Char) : Bool :=
  c == '\t' || c == '\n' || c == '\x0c' || c == ' ' || c == '<' || c == '&' || c == '#' || c == ';'

/-- The text without a leading semicolon, and whether there was one. -/
def takeSemicolon : Text → Bool × Text
  | ';' :: rest => (true, rest)
  | rest => (false, rest)

/-- A numeric reference behind `&#`: its number and the rest, which may begin with a semicolon. -/
def readNumber? : Text → Option (Nat × Text)
  | 'x' :: rest | 'X' :: rest =>
    match Text.span Text.isHexDigit rest with
    | ([], _) => none
    | (digits, rest) => some (Text.toNat 16 digits, rest)
  | rest =>
    match Text.span Text.isDigit rest with
    | ([], _) => none
    | (digits, rest) => some (Text.toNat 10 digits, rest)

/-- The decimal reference read from behind `&#`, if it has too many digits. -/
def overlongNumber? (s : Text) : Option OverlongReference :=
  let count := (s.takeWhile Text.isDigit).length
  if Numeral.digitLimit < count then some ⟨count⟩ else none

/-- The first reference with too many digits. A text with such a reference cannot be decoded. -/
def overlong? : Text → Option OverlongReference
  | [] => none
  | '&' :: '#' :: rest => (overlongNumber? rest).or (overlong? rest)
  | _ :: rest => overlong? rest

/-- A reference behind its `&`: the characters it stands for and the rest. -/
def readDecoded? : Text → Option (Text × Text)
  | '#' :: rest => (readNumber? rest).map fun (n, rest) => (decodeNumber n, (takeSemicolon rest).2)
  | s =>
    let name := (s.takeWhile fun c => !endsName c).take 32
    if name.isEmpty then none
    else
      let (closed, rest) := takeSemicolon (s.drop name.length)
      let tail := if closed then [';'] else []
      let exact := if closed then terminated? name else lenient? name
      match exact with
      | some cs => some (cs, rest)
      | none =>
        -- A semicolon counts as part of the name here, so a closed name may match as a whole.
        match longestLenient? name (name.length + tail.length - 1) with
        | some (cs, n) => some (cs ++ name.drop n ++ tail, rest)
        | none => some ('&' :: name ++ tail, rest)

/-- The text with every reference replaced by the characters it stands for. -/
def decode (s : Text) : Text :=
  match s with
  | [] => []
  | '&' :: rest =>
    match readDecoded? rest with
    | some (cs, after) => if after.length ≤ rest.length then cs ++ decode after else cs
    | none => '&' :: decode rest
  | c :: rest => c :: decode rest
termination_by s.length
decreasing_by all_goals simp_wf <;> omega

/-- The text with `&`, angle brackets and quotes written as references. -/
def encode (s : Text) : Text :=
  s.flatMap fun c =>
    if c = '&' then "&amp;".toList
    else if c = '<' then "&lt;".toList
    else if c = '>' then "&gt;".toList
    else if c = '"' then "&quot;".toList
    else if c = '\x27' then "&#x27;".toList
    else [c]

end Reference

end Untranslated
