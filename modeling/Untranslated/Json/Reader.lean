import Untranslated.Json.Basic
import Untranslated.Number.Numeral

/-!
# Reading JSON

A recursive-descent reader. Each reader takes the text at its position and returns what it read
together with the rest. Nesting is bounded by the length of the text, which serves as the fuel.
Integers are limited in length, and a text with a longer one is not read.
-/

namespace Untranslated.Json

/-- The text without leading blanks, tabs and line breaks. -/
def skipSpace (s : Text) : Text :=
  s.dropWhile fun c => c == ' ' || c == '\t' || c == '\n' || c == '\r'

/-- Four hexadecimal digits. -/
def readHex4 : Text → Option (Nat × Text)
  | a :: b :: c :: d :: rest =>
    if [a, b, c, d].all Text.isHexDigit then some (Text.toNat 16 [a, b, c, d], rest) else none
  | _ => none

/-- The character escaped by a backslash, read from behind that backslash. A character beyond
U+FFFF is written as a pair of surrogates. -/
def readEscape : Text → Option (Char × Text)
  | '"' :: rest => some ('"', rest)
  | '\\' :: rest => some ('\\', rest)
  | '/' :: rest => some ('/', rest)
  | 'n' :: rest => some ('\n', rest)
  | 'r' :: rest => some ('\r', rest)
  | 't' :: rest => some ('\t', rest)
  | 'b' :: rest => some ('\x08', rest)
  | 'f' :: rest => some ('\x0c', rest)
  | 'u' :: rest => do
    let (high, rest) ← readHex4 rest
    if 0xD800 ≤ high ∧ high < 0xDC00 then
      match rest with
      | '\\' :: 'u' :: rest =>
        let (low, rest) ← readHex4 rest
        if 0xDC00 ≤ low ∧ low < 0xE000 then
          some (Char.ofNat (0x10000 + (high - 0xD800) * 0x400 + (low - 0xDC00)), rest)
        else none
      | _ => none
    else some (Char.ofNat high, rest)
  | _ => none

/-- The rest of a string behind its opening quote. -/
def readString : Nat → Text → Option (Text × Text)
  | 0, _ => none
  | _ + 1, [] => none
  | fuel + 1, c :: rest =>
    if c = '"' then some ([], rest)
    else if c = '\\' then do
      let (d, rest) ← readEscape rest
      let (s, rest) ← readString fuel rest
      some (d :: s, rest)
    else if c.toNat < 0x20 then none
    else do
      let (s, rest) ← readString fuel rest
      some (c :: s, rest)

/-- The digits behind a decimal point, if there is one followed by a digit. -/
def readFraction : Text → Option (Text × Text)
  | '.' :: rest =>
    match Text.span Text.isDigit rest with
    | ([], _) => none
    | (digits, rest) => some (digits, rest)
  | _ => none

/-- The exponent of a number, if there is one. -/
def readExponent : Text → Option (Int × Text)
  | c :: rest =>
    if c = 'e' ∨ c = 'E' then
      let (negative, rest) := match rest with
        | '-' :: rest => (true, rest)
        | '+' :: rest => (false, rest)
        | rest => (false, rest)
      match Text.span Text.isDigit rest with
      | ([], _) => none
      | (digits, rest) =>
        let n := Text.toNat 10 digits
        some (if negative then -(n : Int) else n, rest)
    else none
  | [] => none

/-- The text behind a minus sign, and whether there is one. -/
def takeMinus : Text → Bool × Text
  | '-' :: rest => (true, rest)
  | s => (false, s)

/-- The digits of a whole number, which does not go on behind a leading zero, and the rest. -/
def readWhole : Text → Text × Text
  | '0' :: rest => (['0'], rest)
  | s => Text.span Text.isDigit s

/-- A number; an integer has no more digits than are read. -/
def readNumber (s : Text) : Option (Json × Text) :=
  let (negative, s) := takeMinus s
  let (whole, rest) := readWhole s
  if whole.isEmpty then none
  else
    match readFraction rest, readExponent rest with
    | none, none =>
      if Numeral.digitLimit < whole.length then none
      else
        let n := Text.toNat 10 whole
        some (.int (if negative then -(n : Int) else n), rest)
    | some (fraction, rest), _ =>
      let (e, rest) := (readExponent rest).getD (0, rest)
      some (.decimal ⟨negative, Text.toNat 10 (whole ++ fraction), e - fraction.length⟩, rest)
    | none, some (e, rest) => some (.decimal ⟨negative, Text.toNat 10 whole, e⟩, rest)

mutual

/-- A value, with blanks before it. -/
def readValue : Nat → Text → Option (Json × Text)
  | 0, _ => none
  | fuel + 1, s =>
    match skipSpace s with
    | '"' :: rest => (readString fuel rest).map fun (s, rest) => (.string s, rest)
    | '[' :: rest =>
      match skipSpace rest with
      | ']' :: rest => some (.array [], rest)
      | rest => (readItems fuel rest).map fun (vs, rest) => (.array vs, rest)
    | '\x7b' :: rest =>
      match skipSpace rest with
      | '\x7d' :: rest => some (.object [], rest)
      | rest => (readMembers fuel rest).map fun (ms, rest) => (.object ms, rest)
    | s =>
      match Text.after? "null".toList s, Text.after? "true".toList s,
          Text.after? "false".toList s with
      | some rest, _, _ => some (.null, rest)
      | _, some rest, _ => some (.bool true, rest)
      | _, _, some rest => some (.bool false, rest)
      | _, _, _ => readNumber s

/-- One or more array items and the closing bracket. -/
def readItems : Nat → Text → Option (List Json × Text)
  | 0, _ => none
  | fuel + 1, s => do
    let (v, rest) ← readValue fuel s
    match skipSpace rest with
    | ']' :: rest => some ([v], rest)
    | ',' :: rest =>
      let (vs, rest) ← readItems fuel rest
      some (v :: vs, rest)
    | _ => none

/-- One or more object members and the closing brace. -/
def readMembers : Nat → Text → Option (List (Text × Json) × Text)
  | 0, _ => none
  | fuel + 1, s =>
    match skipSpace s with
    | '"' :: rest => do
      let (k, rest) ← readString fuel rest
      match skipSpace rest with
      | ':' :: rest =>
        let (v, rest) ← readValue fuel rest
        match skipSpace rest with
        | '\x7d' :: rest => some ([(k, v)], rest)
        | ',' :: rest =>
          let (ms, rest) ← readMembers fuel rest
          some ((k, v) :: ms, rest)
        | _ => none
      | _ => none
    | _ => none

end

/-- The value that a whole text denotes; none if it is no JSON or an integer in it is too long. -/
def parse? (s : Text) : Option Json := do
  let (v, rest) ← readValue (2 * s.length + 2) s
  if (skipSpace rest).isEmpty then some v else none

end Untranslated.Json
