import Untranslated.Number.Arithmetic
import Untranslated.Text.Base64
import Untranslated.Text.Case
import Untranslated.Yaml.NodeType

/-!
# Values of typed scalars

The value that the text of a scalar has under a given type. A scalar whose type is implied by its
text nearly always has a value; one that was given its type by a tag may be anything.
-/

namespace Untranslated.Yaml

/-- Truth values by their spelling in lower case. -/
def truthValues : List (Text × Bool) :=
  [("yes", true), ("no", false), ("true", true), ("false", false), ("on", true),
   ("off", false)].map fun (s, b) => (s.toList, b)

/-- A truth value, in any letter case. -/
def boolValue (s : Text) : Except Fault Bool :=
  let lower := Text.lower s
  match truthValues.lookup lower with
  | some b => .ok b
  | none => .error (.noTruthValue lower)

/-- The integer of a numeral in the given base. -/
def readPart (base : Nat) (s : Text) : Except Fault Int :=
  (Numeral.readInt base s).mapError .numeral

/-- The integer behind a sign: in base 2, 8 or 16 by its first characters, in groups of sixty, or in
base ten. -/
def unsignedInt (s : Text) : Except Fault Int :=
  match s with
  | [] => .error .emptyNumber
  | ['0'] => .ok 0
  | '0' :: 'b' :: digits => readPart 2 digits
  | '0' :: 'x' :: digits => readPart 16 digits
  | '0' :: _ => readPart 8 s
  | s => do
    if ':' ∈ s then
      let groups ← (Text.splitOn ':' s).mapM (readPart 10)
      return groups.foldl (fun n group => n * 60 + group) 0
    else readPart 10 s

/-- An integer. Underscores do not count. -/
def intValue (s : Text) : Except Fault Int :=
  match s.filter (· != '_') with
  | [] => .error .emptyNumber
  | s =>
    let (negative, s) := Numeral.takeSign s
    (unsignedInt s).map fun n => if negative then -n else n

/-- The spelling of infinity. -/
def infinityText : Text := ".inf".toList

/-- The spelling of what is no number. -/
def notANumberText : Text := ".nan".toList

/-- The sum of groups of sixty, the last of which is given first and counts `unit`. -/
def sumGroups (unit : Nat) (sum : Double) : List Double → Except Fault Double
  | [] => .ok sum
  | group :: groups =>
    match Double.ofNat? unit with
    | none => .error .tooManyGroups
    | some u => sumGroups (unit * 60) (sum.add (group.mul u)) groups

/-- The double of a numeral. -/
def readFraction (s : Text) : Except Fault Double := (Numeral.readDouble s).mapError .numeral

/-- The fractional number behind a sign. -/
def unsignedFloat (s : Text) : Except Fault Double := do
  if s = infinityText then return .infinite false
  else if s = notANumberText then return .notANumber
  else if ':' ∈ s then
    let groups ← (Text.splitOn ':' s).mapM readFraction
    sumGroups 1 (.finite false 0 (-1074)) groups.reverse
  else readFraction s

/-- The text of a fractional number that counts: without underscores and in lower case. -/
def floatText (s : Text) : Text := Text.lower (s.filter (· != '_'))

/-- A fractional number. -/
def floatValue (s : Text) : Except Fault Double :=
  match floatText s with
  | [] => .error .emptyNumber
  | s =>
    let (negative, s) := Numeral.takeSign s
    (unsignedFloat s).map fun x => if negative then x.negate else x

/-- Whether a fractional number is spelled as what is no number. -/
def isNotANumberText (s : Text) : Bool := (Numeral.takeSign (floatText s)).2 == notANumberText

/-- A date or a moment, which has to exist. -/
def timestampValue (s : Text) : Except Fault Value :=
  match readTimestamp (dropLineEnd s) with
  | none => .error .noMoment
  | some (.inl d) => match d.error? with
    | some e => .error (.moment e)
    | none => .ok (.date d)
  | some (.inr m) => match m.error? with
    | some e => .error (.moment e)
    | none => .ok (.moment m)

/-- The bytes that a text in base 64 stands for. -/
def binaryValue (s : Text) : Except YamlError (List UInt8) :=
  if s.all fun c => c.toNat < 0x80 then
    match Base64.decode? s with
    | some bs => .ok bs
    | none => .error .malformed
  else .error .malformed

/-- Whether values of a type are made from a text. -/
def NodeType.isScalar : NodeType → Bool
  | .null | .bool | .int | .float | .timestamp | .binary | .string => true
  | _ => false

/-- The value of a scalar of the given type. Collections and keys of special meaning have none. -/
def NodeType.scalarValue (t : NodeType) (s : Text) : Except YamlError Value :=
  match t with
  | .null => .ok .null
  | .bool => ((boolValue s).map .bool).mapError .fault
  | .int => ((intValue s).map .int).mapError .fault
  | .float => ((floatValue s).map .float).mapError .fault
  | .timestamp => (timestampValue s).mapError .fault
  | .binary => (binaryValue s).map .bytes
  | .string => .ok (.string s)
  | _ => .error .malformed

end Untranslated.Yaml
