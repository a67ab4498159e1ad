import Untranslated.Text.Basic

/-!
# Decimal numbers and their nearest doubles

A number written with a fraction or an exponent is read exactly, as a `Decimal`, and then taken to
the nearest binary floating-point number, a tie going to the even mantissa. All arithmetic is on
natural numbers.
-/

namespace Untranslated

/-- The number `±coefficient · 10 ^ exponent`. -/
structure Decimal where
  negative : Bool
  coefficient : Nat
  exponent : Int
  deriving DecidableEq, Repr, Inhabited

/-- A binary floating-point number with a mantissa of 53 bits and exponents from -1074 to 971. -/
inductive Double where
  /-- The number `±mantissa · 2 ^ exponent`. -/
  | finite (negative : Bool) (mantissa : Nat) (exponent : Int)
  | infinite (negative : Bool)
  | notANumber
  deriving DecidableEq, Repr, Inhabited

/-- The integer nearest to `num / den`; of two equally near ones, the even one. -/
def roundHalfEven (num den : Nat) : Nat :=
  let q := num / den
  let r := num % den
  if 2 * r < den then q
  else if den < 2 * r then q + 1
  else if q % 2 = 0 then q else q + 1

namespace Double

/-- The double `±mantissa · 2 ^ exponent` nearest to `±num / den`, for a positive `den`. -/
def ofRatio (negative : Bool) (num den : Nat) : Double :=
  if num = 0 then .finite negative 0 (-1074)
  else
    -- The first guess is at most one too small, so the quotient has 53 or 54 bits.
    let guess : Int := (num.log2 : Int) - (den.log2 : Int) - 53
    let scaled (e : Int) : Nat × Nat := (num * Nat.pow 2 (-e).toNat, den * Nat.pow 2 e.toNat)
    let tooWide (e : Int) : Bool := Nat.pow 2 53 * (scaled e).2 ≤ (scaled e).1
    let fitted := if tooWide guess then guess + 1 else guess
    let exponent := max (if tooWide fitted then fitted + 1 else fitted) (-1074)
    let m := roundHalfEven (scaled exponent).1 (scaled exponent).2
    let (m, exponent) := if m = Nat.pow 2 53 then (Nat.pow 2 52, exponent + 1) else (m, exponent)
    if 971 < exponent then .infinite negative else .finite negative m exponent

/-- The double nearest to a decimal number. -/
def ofDecimal (d : Decimal) : Double :=
  -- Beyond these exponents the result is zero or infinite whatever the remaining digits are.
  let digits : Int := (Nat.toDigits 10 d.coefficient).length
  if d.coefficient = 0 then .finite d.negative 0 (-1074)
  else if 400 < d.exponent + digits then .infinite d.negative
  else if d.exponent + digits < -400 then .finite d.negative 0 (-1074)
  else ofRatio d.negative (d.coefficient * Nat.pow 10 d.exponent.toNat)
    (Nat.pow 10 (-d.exponent).toNat)

end Double

end Untranslated
