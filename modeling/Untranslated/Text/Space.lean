import Untranslated.Text.Basic

/-!
# Whitespace and characters without ink

Two notions of emptiness live side by side. *Whitespace* (`isSpace`) is what trimming and word
splitting remove. *Blank* (`isBlank`) text shows nothing when rendered: besides whitespace it may
hold control and format characters.
-/

namespace Untranslated.Text

/-- Whether a code point lies in one of the closed ranges. -/
def inRanges (ranges : List (Nat × Nat)) (c : Char) : Bool :=
  ranges.any fun (lo, hi) => lo ≤ c.toNat && c.toNat ≤ hi

/-- Whitespace: the separators and the spacing control characters. -/
def spaceRanges : List (Nat × Nat) :=
  [(0x09, 0x0D), (0x1C, 0x20), (0x85, 0x85), (0xA0, 0xA0), (0x1680, 0x1680), (0x2000, 0x200A),
   (0x2028, 0x2029), (0x202F, 0x202F), (0x205F, 0x205F), (0x3000, 0x3000)]

/-- General category *Cc*. -/
def controlRanges : List (Nat × Nat) := [(0x00, 0x1F), (0x7F, 0x9F)]

/-- General category *Cf*. -/
def formatRanges : List (Nat × Nat) :=
  [(0xAD, 0xAD), (0x600, 0x605), (0x61C, 0x61C), (0x6DD, 0x6DD), (0x70F, 0x70F), (0x890, 0x891),
   (0x8E2, 0x8E2), (0x180E, 0x180E), (0x200B, 0x200F), (0x202A, 0x202E), (0x2060, 0x2064),
   (0x2066, 0x206F), (0xFEFF, 0xFEFF), (0xFFF9, 0xFFFB), (0x110BD, 0x110BD), (0x110CD, 0x110CD),
   (0x13430, 0x13438), (0x1BCA0, 0x1BCA3), (0x1D173, 0x1D17A), (0xE0001, 0xE0001),
   (0xE0020, 0xE007F)]

/-- Whitespace characters. -/
def isSpace (c : Char) : Bool := inRanges spaceRanges c

/-- Characters that render as nothing: whitespace, control and format characters. -/
def isInvisible (c : Char) : Bool :=
  isSpace c || inRanges controlRanges c || inRanges formatRanges c

/-- A text that renders as nothing. -/
def isBlank (s : Text) : Bool := s.all isInvisible

/-- The text without its leading whitespace. -/
def trimLeft (s : Text) : Text := s.dropWhile isSpace

/-- The text without its trailing whitespace. -/
def trimRight (s : Text) : Text := (s.reverse.dropWhile isSpace).reverse

/-- The text without whitespace at either end. -/
def trim (s : Text) : Text := trimRight (trimLeft s)

/-- The maximal runs of non-whitespace characters, in order. -/
def words : Text → List Text
  | [] => []
  | c :: rest =>
    if isSpace c then words rest
    else match rest, words rest with
      | [], _ => [[c]]
      | d :: _, ws =>
        if isSpace d then [c] :: ws
        else match ws with
          | [] => [[c]]
          | w :: more => (c :: w) :: more

/-- The words of a text with a single blank between them. -/
def squash (s : Text) : Text := join [' '] (words s)

/-- The text with every line break, a lone carriage return included, written as a line feed. -/
def unifyBreaks : Text → Text
  | [] => []
  | '\r' :: '\n' :: rest => '\n' :: unifyBreaks rest
  | c :: rest => (if c = '\r' then '\n' else c) :: unifyBreaks rest

end Untranslated.Text
