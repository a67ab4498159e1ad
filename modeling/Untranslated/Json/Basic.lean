import Untranslated.Number.Decimal

/-!
# JSON values

The values of the report format, with object members in the order in which they are written. The
integers are of any size; how many digits of them are written and read is said by the writer and the
reader.
-/

namespace Untranslated

/-- A JSON value. -/
inductive Json where
  | null
  | bool (b : Bool)
  /-- A number without fraction and exponent. -/
  | int (n : Int)
  /-- A number with a fraction or an exponent. -/
  | decimal (d : Decimal)
  | string (s : Text)
  | array (items : List Json)
  | object (members : List (Text × Json))
  deriving Repr, Inhabited

namespace Json

/-- The members of an object, empty for any other value. -/
def members : Json → List (Text × Json)
  | .object ms => ms
  | _ => []

/-- The value of the last member with the given name. -/
def get? (name : Text) (v : Json) : Option Json :=
  (v.members.reverse.find? fun m => m.1 == name).map (·.2)

/-- A natural number as a JSON value. -/
def nat (n : Nat) : Json := .int n

end Json

end Untranslated
