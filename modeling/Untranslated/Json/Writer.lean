import Untranslated.Json.Basic
import Untranslated.Number.Numeral

/-!
# Writing JSON

Two layouts: indented by two blanks per level with one item per line (`prettyAt`), and on one line
(`compact`). Strings keep every character but quotes, backslashes and those below U+0020. Integers are
limited in length: a value with a longer one cannot be written (`pretty`).
-/

namespace Untranslated.Json

/-- One character inside a JSON string. -/
def writeChar (c : Char) : Text :=
  if c = '"' then ['\\', '"']
  else if c = '\\' then ['\\', '\\']
  else if c = '\n' then ['\\', 'n']
  else if c = '\r' then ['\\', 'r']
  else if c = '\t' then ['\\', 't']
  else if c = '\x08' then ['\\', 'b']
  else if c = '\x0c' then ['\\', 'f']
  else if c.toNat < 0x20 then ['\\', 'u'] ++ Text.hex 4 c.toNat
  else [c]

/-- A JSON string with its quotes. -/
def writeString (s : Text) : Text := '"' :: s.flatMap writeChar ++ ['"']

/-- A number with fraction or exponent, written with an exponent. -/
def writeDecimal (d : Decimal) : Text :=
  (if d.negative then ['-'] else []) ++ Text.ofNat d.coefficient ++ ['.', '0', 'e'] ++
    Text.ofInt d.exponent

/-- A line break and the indentation of the given level. -/
def newline (level : Nat) : Text := '\n' :: List.replicate (2 * level) ' '

mutual

/-- A value at the given indentation level, one item per line; whether its integers can be written is
another question (`isWritable`). -/
def prettyAt (level : Nat) : Json → Text
  | .null => "null".toList
  | .bool true => "true".toList
  | .bool false => "false".toList
  | .int n => Text.ofInt n
  | .decimal d => writeDecimal d
  | .string s => writeString s
  | .array [] => ['[', ']']
  | .array (v :: vs) =>
    '[' :: newline (level + 1) ++ prettyAt (level + 1) v ++ prettyItems (level + 1) vs ++
      newline level ++ [']']
  | .object [] => ['\x7b', '\x7d']
  | .object ((k, v) :: ms) =>
    '\x7b' :: newline (level + 1) ++ writeString k ++ [':', ' '] ++ prettyAt (level + 1) v ++
      prettyMembers (level + 1) ms ++ newline level ++ ['\x7d']

/-- The items of an array after its first one. -/
def prettyItems (level : Nat) : List Json → Text
  | [] => []
  | v :: vs => ',' :: newline level ++ prettyAt level v ++ prettyItems level vs

/-- The members of an object after its first one. -/
def prettyMembers (level : Nat) : List (Text × Json) → Text
  | [] => []
  | (k, v) :: ms =>
    ',' :: newline level ++ writeString k ++ [':', ' '] ++ prettyAt level v ++
      prettyMembers level ms

end

mutual

/-- Whether a value can be written: no integer in it has more digits than are written. -/
def isWritable : Json → Bool
  | .int n => n.natAbs < Numeral.leastOverlong
  | .array vs => areWritable vs
  | .object ms => membersWritable ms
  | _ => true

/-- Whether all values can be written. -/
def areWritable : List Json → Bool
  | [] => true
  | v :: vs => isWritable v && areWritable vs

/-- Whether the values of all members can be written. -/
def membersWritable : List (Text × Json) → Bool
  | [] => true
  | (_, v) :: ms => isWritable v && membersWritable ms

end

/-- A value indented by two blanks per level, if it can be written. -/
def pretty (v : Json) : Except OverlongInteger Text :=
  if v.isWritable then .ok (prettyAt 0 v) else .error ⟨⟩

mutual

/-- A value on one line. -/
def compact : Json → Text
  | .null => "null".toList
  | .bool true => "true".toList
  | .bool false => "false".toList
  | .int n => Text.ofInt n
  | .decimal d => writeDecimal d
  | .string s => writeString s
  | .array vs => '[' :: compactItems vs
  | .object ms => '\x7b' :: compactMembers ms

/-- The items of an array and its closing bracket. -/
def compactItems : List Json → Text
  | [] => [']']
  | [v] => compact v ++ [']']
  | v :: vs => compact v ++ ',' :: compactItems vs

/-- The members of an object and its closing brace. -/
def compactMembers : List (Text × Json) → Text
  | [] => ['\x7d']
  | [(k, v)] => writeString k ++ ':' :: compact v ++ ['\x7d']
  | (k, v) :: ms => writeString k ++ ':' :: compact v ++ ',' :: compactMembers ms

end

end Untranslated.Json
