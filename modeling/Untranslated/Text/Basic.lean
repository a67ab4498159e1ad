/-!
# Source text

A text is a list of code points, so offsets, columns and lengths all count code points. This
module holds the positional operations that the rest of the library is phrased in: cutting,
searching, splitting and joining.

* `slice s a b` is the half-open range `[a, b)` of `s`, clipped to `s`; `sliceAt` takes any integers
  and counts negative ones from the end.
* `find? pat s` is the offset of the leftmost occurrence of `pat` in `s`.
* `span p s` cuts `s` after its longest initial run of characters satisfying `p`.
-/

namespace Untranslated

/-- A text, one code point per entry. -/
abbrev Text := List Char

namespace Text

/-- Texts are compared character by character. -/
instance lawfulBEq : LawfulBEq Text := List.instLawfulBEq

/-- The half-open range `[start, stop)` of a text; empty when `stop ≤ start`. -/
def slice (s : Text) (start stop : Nat) : Text := (s.drop start).take (stop - start)

/-- The offset that an integer stands for: a negative one counts from the end of the text. -/
def offset (s : Text) (i : Int) : Nat := if i < 0 then (i + s.length).toNat else i.toNat

/-- The half-open range of a text between two offsets given by integers. -/
def sliceAt (s : Text) (start stop : Int) : Text := slice s (offset s start) (offset s stop)

/-- The character at an offset given by an integer. -/
def at? (s : Text) (i : Int) : Option Char := if i + s.length < 0 then none else s[offset s i]?

@[simp] theorem offset_natCast (s : Text) (n : Nat) : offset s n = n := by
  unfold offset
  rw [if_neg (Int.not_lt.mpr (Int.natCast_nonneg n))]
  exact Int.toNat_natCast n

theorem sliceAt_natCast (s : Text) (a b : Nat) : sliceAt s a b = slice s a b := by
  rw [sliceAt, offset_natCast, offset_natCast]

/-- Whether `s` begins with `lead`. -/
def startsWith (lead s : Text) : Bool := lead.isPrefixOf s

/-- What follows `lead` in a text that begins with it. -/
def after? : Text → Text → Option Text
  | [], s => some s
  | _ :: _, [] => none
  | a :: lead, c :: s => if a = c then after? lead s else none

/-- The offset of the leftmost occurrence of `pat`. -/
def find? (pat : Text) : Text → Option Nat
  | [] => if pat.isEmpty then some 0 else none
  | c :: rest => if startsWith pat (c :: rest) then some 0 else (find? pat rest).map (· + 1)

/-- The offset of the leftmost occurrence of `pat` at or after `start`. -/
def findFrom? (pat s : Text) (start : Nat) : Option Nat :=
  if start ≤ s.length then (find? pat (s.drop start)).map (· + start) else none

/-- The longest initial run of characters satisfying `p`, and the rest. -/
def span (p : Char → Bool) (s : Text) : Text × Text := (s.takeWhile p, s.dropWhile p)

/-- The text up to the first `c`, and what follows that `c`, when there is one. -/
def cutAt? (c : Char) : Text → Option (Text × Text)
  | [] => none
  | d :: rest => if d = c then some ([], rest) else (cutAt? c rest).map fun (a, b) => (d :: a, b)

/-- The pieces of a text between the occurrences of `sep`; always at least one piece. -/
def splitOn (sep : Char) : Text → List Text
  | [] => [[]]
  | c :: rest =>
    if c = sep then [] :: splitOn sep rest
    else match splitOn sep rest with
      | [] => [[c]]
      | piece :: more => (c :: piece) :: more

/-- The pieces written one after the other with `sep` between them. -/
def join (sep : Text) : List Text → Text
  | [] => []
  | [piece] => piece
  | piece :: more => piece ++ sep ++ join sep more

/-- The decimal digits of a natural number. -/
def ofNat (n : Nat) : Text := Nat.toDigits 10 n

/-- An integer in decimal, with a leading minus sign when negative. -/
def ofInt : Int → Text
  | .ofNat n => ofNat n
  | .negSucc n => '-' :: ofNat (n + 1)

/-- A text filled up with blanks on the right to at least `width` characters. -/
def padRight (width : Nat) (s : Text) : Text := s ++ List.replicate (width - s.length) ' '

/-- ASCII letters. -/
def isLetter (c : Char) : Bool := ('a' ≤ c && c ≤ 'z') || ('A' ≤ c && c ≤ 'Z')

/-- ASCII decimal digits. -/
def isDigit (c : Char) : Bool := '0' ≤ c && c ≤ '9'

/-- ASCII hexadecimal digits of either case. -/
def isHexDigit (c : Char) : Bool := isDigit c || ('a' ≤ c && c ≤ 'f') || ('A' ≤ c && c ≤ 'F')

/-- ASCII letters and digits. -/
def isLetterOrDigit (c : Char) : Bool := isLetter c || isDigit c

/-- The value of a hexadecimal digit; zero for any other character. -/
def hexValue (c : Char) : Nat :=
  if isDigit c then c.toNat - '0'.toNat
  else if 'a' ≤ c && c ≤ 'f' then c.toNat - 'a'.toNat + 10
  else if 'A' ≤ c && c ≤ 'F' then c.toNat - 'A'.toNat + 10
  else 0

/-- The number that the digits `s` denote in the given base. -/
def toNat (base : Nat) (s : Text) : Nat := s.foldl (fun n c => n * base + hexValue c) 0

/-- Lower-case hexadecimal digits of `n`, filled up with zeros to at least `width`. -/
def hex (width n : Nat) : Text :=
  let digits := Nat.toDigits 16 n
  List.replicate (width - digits.length) '0' ++ digits

/-- Code point order, compared from the left; a proper initial part comes first. -/
def le (a b : Text) : Bool :=
  match a, b with
  | [], _ => true
  | _ :: _, [] => false
  | x :: a, y :: b => if x = y then le a b else x < y

end Text

end Untranslated
