import Untranslated.Number.Decimal

/-!
# Arithmetic of doubles

Sums and products of doubles, computed exactly and rounded once to the nearest double.
-/

namespace Untranslated.Double

/-- The double nearest to a natural number, if it is finite. -/
def ofNat? (n : Nat) : Option Double :=
  match ofRatio false n 1 with
  | .finite negative m e => some (.finite negative m e)
  | _ => none

/-- The double of opposite sign. -/
def negate : Double → Double
  | .finite negative m e => .finite (!negative) m e
  | .infinite negative => .infinite (!negative)
  | .notANumber => .notANumber

/-- The double nearest to `±n · 2 ^ e`. -/
def ofScaled (negative : Bool) (n : Nat) (e : Int) : Double :=
  ofRatio negative (n * Nat.pow 2 e.toNat) (Nat.pow 2 (-e).toNat)

/-- The product of two doubles. -/
def mul : Double → Double → Double
  | .finite s m e, .finite t n f => ofScaled (s != t) (m * n) (e + f)
  | .finite s m _, .infinite t | .infinite t, .finite s m _ =>
    if m = 0 then .notANumber else .infinite (s != t)
  | .infinite s, .infinite t => .infinite (s != t)
  | .notANumber, _ | _, .notANumber => .notANumber

/-- The sum of two doubles. A sum that vanishes is negative only if both terms are. -/
def add : Double → Double → Double
  | .finite s m e, .finite t n f =>
    let unit := min e f
    let signed (negative : Bool) (k : Nat) (x : Int) : Int :=
      let scaled : Int := (k * Nat.pow 2 (x - unit).toNat : Nat)
      if negative then -scaled else scaled
    let sum := signed s m e + signed t n f
    if sum = 0 then ofScaled (s && t) 0 unit else ofScaled (sum < 0) sum.natAbs unit
  | .infinite s, .infinite t => if s = t then .infinite s else .notANumber
  | .infinite s, .finite .. | .finite .., .infinite s => .infinite s
  | .notANumber, _ | _, .notANumber => .notANumber

end Untranslated.Double
