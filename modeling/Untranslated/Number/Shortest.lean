import Untranslated.Number.Decimal

/-!
# The shortest text of a double

A double is written with the fewest decimal digits that read back as the same double; of the
decimals of that length the nearest one is taken. `Layout` holds the decisions about how those
digits are laid out.
-/

namespace Untranslated.Double

/-- The reals that round to `mantissa · 2 ^ exponent`, as `(low, value, high, unit)`: the interval
is `[low, high] · 2 ^ unit` around `value · 2 ^ unit`, its ends included for an even mantissa. -/
def interval (mantissa : Nat) (exponent : Int) : Nat × Nat × Nat × Int :=
  let low := if mantissa = Nat.pow 2 52 ∧ -1074 < exponent then 4 * mantissa - 1 else 4 * mantissa - 2
  (low, 4 * mantissa, 4 * mantissa + 2, exponent - 2)

/-- The largest `e ≤ start` with `10 ^ e ≤ num / den`, for a positive quotient. -/
def decimalExponent (num den : Nat) : Nat → Int → Int
  | 0, e => e
  | fuel + 1, e =>
    if Nat.pow 10 e.toNat * den ≤ num * Nat.pow 10 (-e).toNat then e
    else decimalExponent num den fuel (e - 1)

/-- The first of the digit counts `count, count + 1, …` at which a decimal of that many digits
reads back as the double; the decimal is returned as coefficient and exponent. -/
def search (mantissa : Nat) (exponent top : Int) : Nat → Nat → Nat × Int
  | 0, _ => (mantissa, exponent)
  | fuel + 1, count =>
    let (low, value, high, unit) := interval mantissa exponent
    let grid : Int := top - count + 1
    -- Both sides are multiplied up until the grid and the binary unit are whole numbers.
    let up := Nat.pow 2 unit.toNat * Nat.pow 10 (-grid).toNat
    let step := Nat.pow 10 grid.toNat * Nat.pow 2 (-unit).toNat
    let inside (t : Nat) : Bool :=
      if mantissa % 2 = 0 then low * up ≤ t * step && t * step ≤ high * up
      else low * up < t * step && t * step < high * up
    let below := value * up / step
    let nearest := roundHalfEven (value * up) step
    let other := if nearest = below then below + 1 else below
    if inside nearest then (nearest, grid)
    else if inside other then (other, grid)
    else search mantissa exponent top fuel (count + 1)

/-- The coefficient without trailing zeros, its exponent raised to match. -/
def dropZeros : Nat → Nat → Int → Nat × Int
  | 0, n, e => (n, e)
  | fuel + 1, n, e =>
    if n ≠ 0 ∧ n % 10 = 0 then dropZeros fuel (n / 10) (e + 1) else (n, e)

/-- The shortest decimal that reads back as `mantissa · 2 ^ exponent`. -/
def shortest (mantissa : Nat) (exponent : Int) : Nat × Int :=
  if mantissa = 0 then (0, 0)
  else
    let num := mantissa * Nat.pow 2 exponent.toNat
    let den := Nat.pow 2 (-exponent).toNat
    let (n, e) := search mantissa exponent (decimalExponent num den 700 310) 17 1
    dropZeros 20 n e

/-- How the digits of a double are laid out. -/
structure Layout where
  /-- Positional notation is used while the point stands after `low < k ≤ high` digits. -/
  low : Int
  high : Int
  /-- The least number of exponent digits. -/
  exponentWidth : Nat

/-- Positional up to sixteen digits before the point and four zeros behind it. -/
def layout : Layout := ⟨-4, 16, 2⟩

/-- The text of the digits `n · 10 ^ e`. -/
def digitsText (l : Layout) (n : Nat) (e : Int) : Text :=
  let digits := Text.ofNat n
  let point : Int := digits.length + e
  if l.low < point ∧ point ≤ l.high then
    if point ≤ 0 then ['0', '.'] ++ List.replicate (-point).toNat '0' ++ digits
    else if 0 ≤ e then digits ++ List.replicate e.toNat '0' ++ ['.', '0']
    else digits.take point.toNat ++ ['.'] ++ digits.drop point.toNat
  else
    let x := point - 1
    let fraction := if digits.length = 1 then [] else '.' :: digits.drop 1
    let width := Text.ofNat x.natAbs
    digits.take 1 ++ fraction ++ ['e', if x < 0 then '-' else '+'] ++
      List.replicate (l.exponentWidth - width.length) '0' ++ width

/-- The text of a double. -/
def text : Double → Text
  | .finite negative m e =>
    let (n, k) := shortest m e
    (if negative then ['-'] else []) ++ digitsText layout n k
  | .infinite negative => (if negative then "-inf" else "inf").toList
  | .notANumber => "nan".toList

end Untranslated.Double
