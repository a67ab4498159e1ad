import Untranslated.Json.Basic
import Untranslated.Moment
import Untranslated.Number.Numeral
import Untranslated.Number.Shortest

/-!
# Setting values

The values that option mappings and configuration files are made of. Their texts follow two rules:
`text` is the plain form (a string is itself), `quotedText` the form inside lists and mappings
(a string is quoted).
-/

namespace Untranslated

/-- The collections that can stand inside themselves. -/
inductive CollectionKind where
  | list
  | map
  | pair
  deriving DecidableEq, Repr, Inhabited

/-- What stands for a collection inside itself. -/
def CollectionKind.elision : CollectionKind → Text
  | .list => "[...]".toList
  | .map => "\x7b...\x7d".toList
  | .pair => "(...)".toList

/-- A setting value. -/
inductive Value where
  | null
  | bool (b : Bool)
  | int (n : Int)
  | float (x : Double)
  | string (s : Text)
  | bytes (bs : List UInt8)
  | date (d : Date)
  | moment (m : Moment)
  | list (items : List Value)
  | map (entries : List (Value × Value))
  | pair (first second : Value)
  | set (members : List Value)
  /-- A collection at a place inside itself, where it is not shown again. -/
  | elided (kind : CollectionKind)
  deriving BEq, Repr, Inhabited

namespace Value

mutual

/-- The text of a value inside a list or mapping. -/
def quotedText : Value → Text
  | .null => "None".toList
  | .bool true => "True".toList
  | .bool false => "False".toList
  | .int n => Text.ofInt n
  | .float x => x.text
  | .string s => Text.quoted s
  | .bytes bs => Text.quotedBytes bs
  | .date d => d.quotedText
  | .moment m => m.quotedText
  | .list vs => '[' :: quotedItems vs ++ [']']
  | .map es => '\x7b' :: quotedEntries es ++ ['\x7d']
  | .pair a b => '(' :: quotedText a ++ [',', ' '] ++ quotedText b ++ [')']
  | .set [] => "set()".toList
  | .set vs => '\x7b' :: quotedItems vs ++ ['\x7d']
  | .elided kind => kind.elision

/-- The items of a collection, separated by commas. -/
def quotedItems : List Value → Text
  | [] => []
  | [v] => quotedText v
  | v :: vs => quotedText v ++ [',', ' '] ++ quotedItems vs

/-- The entries of a mapping, separated by commas. -/
def quotedEntries : List (Value × Value) → Text
  | [] => []
  | [(k, v)] => quotedText k ++ [':', ' '] ++ quotedText v
  | (k, v) :: es => quotedText k ++ [':', ' '] ++ quotedText v ++ [',', ' '] ++ quotedEntries es

end

/-- The plain text of a value. However deep the value is nested it has one: that writing it may run out of
stack, at about a thousand levels, is not modelled. -/
def text : Value → Text
  | .string s => s
  | .date d => d.text
  | .moment m => m.text
  | v => v.quotedText

mutual

/-- Whether a value can be written: no integer in it has more digits than are written. -/
def isWritable : Value → Bool
  | .int n => n.natAbs < Numeral.leastOverlong
  | .list vs | .set vs => areWritable vs
  | .map es => entriesWritable es
  | .pair a b => isWritable a && isWritable b
  | _ => true

/-- Whether all values can be written. -/
def areWritable : List Value → Bool
  | [] => true
  | v :: vs => isWritable v && areWritable vs

/-- Whether all keys and values can be written. -/
def entriesWritable : List (Value × Value) → Bool
  | [] => true
  | (k, v) :: es => isWritable k && isWritable v && entriesWritable es

end

/-- Whether a value counts as something: nothing, false, zero and empty values do not. -/
def isSomething : Value → Bool
  | .null => false
  | .bool b => b
  | .int n => n != 0
  | .float (.finite _ m _) => m != 0
  | .string s => !s.isEmpty
  | .bytes bs => !bs.isEmpty
  | .list vs | .set vs => !vs.isEmpty
  | .map es => !es.isEmpty
  | _ => true

/-- The number that a value is, as numerator and denominator. Truth values are one and zero. -/
def ratio? : Value → Option (Int × Nat)
  | .bool b => some (if b then 1 else 0, 1)
  | .int n => some (n, 1)
  | .float (.finite negative m e) =>
    let n : Int := (m * Nat.pow 2 e.toNat : Nat)
    some (if negative then -n else n, Nat.pow 2 (-e).toNat)
  | _ => none

/-- Whether two values are the same key of a mapping. Numbers are by their value, moments by what
they denote; lists and mappings are no keys. -/
def sameKey (a b : Value) : Bool :=
  match a.ratio?, b.ratio? with
  | some (m, d), some (n, e) => m * e == n * d
  | none, none =>
    match a, b with
    | .null, .null => true
    | .float (.infinite s), .float (.infinite t) => s == t
    | .string s, .string t => s == t
    | .bytes s, .bytes t => s == t
    | .date d, .date e => d == e
    | .moment m, .moment n => m.same n
    | _, _ => false
  | _, _ => false

/-- The name of a value's type, as messages give it. -/
def typeName : Value → Text
  | .null => "NoneType".toList
  | .bool _ => "bool".toList
  | .int _ => "int".toList
  | .float _ => "float".toList
  | .string _ => "str".toList
  | .bytes _ => "bytes".toList
  | .date _ => "date".toList
  | .moment _ => "datetime".toList
  | .list _ | .elided .list => "list".toList
  | .map _ | .elided .map => "dict".toList
  | .pair _ _ | .elided .pair => "tuple".toList
  | .set _ => "set".toList

/-- The entries of a mapping, none for any other value. -/
def entries : Value → List (Value × Value)
  | .map es => es
  | _ => []

/-- The value of the entry whose key is the given string. -/
def lookup? (name : Text) : List (Value × Value) → Option Value
  | [] => none
  | (.string k, v) :: es => if k = name then some v else lookup? name es
  | _ :: es => lookup? name es

mutual

/-- A JSON value as a setting value; numbers with a fraction or an exponent become doubles. -/
def ofJson : Json → Value
  | .null => .null
  | .bool b => .bool b
  | .int n => .int n
  | .decimal d => .float (Double.ofDecimal d)
  | .string s => .string s
  | .array vs => .list (ofItems vs)
  | .object ms => .map (ofMembers ms)

/-- The items of a JSON array. -/
def ofItems : List Json → List Value
  | [] => []
  | v :: vs => ofJson v :: ofItems vs

/-- The members of a JSON object. -/
def ofMembers : List (Text × Json) → List (Value × Value)
  | [] => []
  | (k, v) :: ms => (.string k, ofJson v) :: ofMembers ms

end

end Value

end Untranslated
