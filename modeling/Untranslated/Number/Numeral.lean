import Untranslated.Number.Decimal
import Untranslated.Text.Digits
import Untranslated.Text.Quoted

/-!
# Reading numbers from texts

Numerals as people write them: with whitespace around them, a sign, the digits of any script, and
for integers in base 2, 8 or 16 an optional mark of the base. Integers in base ten are limited in
length, when they are read as well as when they are written.
-/

namespace Untranslated

/-- Why a text is no number. -/
inductive NumeralError where
  /-- No integer in the given base. -/
  | noInteger (base : Nat) (text : Text)
  /-- No fractional number. -/
  | noDouble (text : Text)
  /-- An integer in base ten with more digits than are read. -/
  | tooManyDigits (count : Nat)
  deriving DecidableEq, Repr

namespace Numeral

/-- The most decimal digits with which an integer is read or written. -/
def digitLimit : Nat := 4300

/-- The least number with more digits than that. -/
def leastOverlong : Nat := Nat.pow 10 digitLimit

/-- The wording for a number beyond the limit; its count of digits is known when it is read. -/
def limitMessage (count : Option Nat) : Text :=
  "Exceeds the limit (".toList ++ Text.ofNat digitLimit ++
    " digits) for integer string conversion".toList ++
    (match count with
      | some n => ": value has ".toList ++ Text.ofNat n ++ " digits".toList
      | none => []) ++
    "; use sys.set_int_max_str_digits() to increase the limit".toList

/-- How much of a quoted text a message about an integer shows. -/
def shownLength : Nat := 200

end Numeral

/-- The failure to write an integer that has more digits than are written. -/
structure OverlongInteger where
  deriving DecidableEq, Repr

/-- The wording of a failure to write an integer. -/
def OverlongInteger.message (_ : OverlongInteger) : Text := Numeral.limitMessage none

/-- The wording of a numeral error. -/
def NumeralError.message : NumeralError → Text
  | .noInteger base text =>
    "invalid literal for int() with base ".toList ++ Text.ofNat base ++ [':', ' '] ++
      (Text.quoted text).take Numeral.shownLength
  | .noDouble text => "could not convert string to float: ".toList ++ Text.quoted text
  | .tooManyDigits count => Numeral.limitMessage (some count)

namespace Numeral

/-- Characters that may stand around a numeral. -/
def isMargin (c : Char) : Bool := c == ' ' || ('\t' ≤ c && c ≤ '\r')

/-- The text behind an optional sign, and whether the sign is a minus. -/
def takeSign : Text → Bool × Text
  | '-' :: rest => (true, rest)
  | '+' :: rest => (false, rest)
  | rest => (false, rest)

/-- Letters and digits as digits, the letters from ten on. -/
def digit? (c : Char) : Option Nat :=
  if Text.isDigit c then some (c.toNat - '0'.toNat)
  else if 'a' ≤ c && c ≤ 'z' then some (c.toNat - 'a'.toNat + 10)
  else if 'A' ≤ c && c ≤ 'Z' then some (c.toNat - 'A'.toNat + 10)
  else none

/-- Digits of the given base. -/
def isDigitIn (base : Nat) (c : Char) : Bool := (digit? c).any (· < base)

/-- The text behind the mark of a base: `0b`, `0o` and `0x` in either case. -/
def dropMark (base : Nat) : Text → Text
  | '0' :: c :: rest =>
    if (base = 2 ∧ (c = 'b' ∨ c = 'B')) ∨ (base = 8 ∧ (c = 'o' ∨ c = 'O')) ∨
        (base = 16 ∧ (c = 'x' ∨ c = 'X')) then rest else '0' :: c :: rest
  | s => s

/-- The integer that a text denotes in base 2, 8, 10 or 16. That there are too many digits shows
before anything behind them does. -/
def readInt (base : Nat) (text : Text) : Except NumeralError Int :=
  let (negative, s) := takeSign ((Text.plainNumeral text).dropWhile isMargin)
  let (digits, rest) := Text.span (isDigitIn base) (dropMark base s)
  if digits.isEmpty then .error (.noInteger base text)
  else if base = 10 ∧ digitLimit < digits.length then .error (.tooManyDigits digits.length)
  else if !rest.all isMargin then .error (.noInteger base text)
  else
    let n : Int := Text.toNat base digits
    .ok (if negative then -n else n)

/-- Names of numbers beyond all others. -/
def infinityNames : List Text := ["inf".toList, "infinity".toList]

/-- The name of what is no number. -/
def notANumberName : Text := "nan".toList

/-- The exponent behind the digits of a decimal number; an empty text has exponent zero. -/
def readExponent? : Text → Option Int
  | [] => some 0
  | e :: rest =>
    let (negative, digits) := takeSign rest
    if (e == 'e' || e == 'E') && !digits.isEmpty && digits.all Text.isDigit then
      let n : Int := Text.toNat 10 digits
      some (if negative then -n else n)
    else none

/-- A decimal number without sign. -/
def readDecimal? (negative : Bool) (s : Text) : Option Decimal := do
  let (whole, rest) := Text.span Text.isDigit s
  let (fraction, rest) := match rest with
    | '.' :: rest => Text.span Text.isDigit rest
    | rest => ([], rest)
  if whole.isEmpty && fraction.isEmpty then none
  else
    let exponent ← readExponent? rest
    some ⟨negative, Text.toNat 10 (whole ++ fraction), exponent - fraction.length⟩

/-- The double that a text denotes. -/
def readDouble (text : Text) : Except NumeralError Double :=
  let s := (Text.plainNumeral text).dropWhile isMargin
  let (negative, s) := takeSign (s.reverse.dropWhile isMargin).reverse
  let name := s.map Char.toLower
  if name ∈ infinityNames then .ok (.infinite negative)
  else if name = notANumberName then .ok .notANumber
  else
    match readDecimal? negative s with
    | some d => .ok (Double.ofDecimal d)
    | none => .error (.noDouble text)

end Numeral

end Untranslated
