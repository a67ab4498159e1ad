import Untranslated.Value
import Untranslated.Yaml.Token

/-!
# Types of nodes

A node has the type that its tag names. A plain scalar without a tag has the type that its text
implies: it is a truth value, a number, a date, nothing at all or a string.
-/

namespace Untranslated.Yaml

/-- The types that nodes can have. -/
inductive NodeType where
  | null
  | bool
  | int
  | float
  | timestamp
  | binary
  | string
  | sequence
  | mapping
  | set
  /-- A sequence of mappings with one entry each, read as a list of pairs. -/
  | pairs
  /-- The key `<<`, which merges other mappings into its own. -/
  | merge
  /-- The key `=`, which gives the scalar that a mapping stands for. -/
  | default
  | unknown
  deriving DecidableEq, Repr, Inhabited

/-- The common beginning of the names of the standard types. -/
def standardTag : Text := "tag:yaml.org,2002:".toList

/-- The standard types by the rest of their names. -/
def standardTypes : List (String × NodeType) :=
  [("null", .null), ("bool", .bool), ("int", .int), ("float", .float), ("timestamp", .timestamp),
   ("binary", .binary), ("str", .string), ("seq", .sequence), ("map", .mapping), ("set", .set),
   ("omap", .pairs), ("pairs", .pairs), ("merge", .merge), ("value", .default)]

/-- The type that a tag names. -/
def NodeType.ofTag (name : Text) : NodeType :=
  match Text.after? standardTag name with
  | none => .unknown
  | some rest => (standardTypes.lookup (String.ofList rest)).getD .unknown

/-! ## Truth values and numbers -/

/-- Spellings of true. -/
def trueTexts : List Text :=
  ["yes", "Yes", "YES", "true", "True", "TRUE", "on", "On", "ON"].map String.toList

/-- Spellings of false. -/
def falseTexts : List Text :=
  ["no", "No", "NO", "false", "False", "FALSE", "off", "Off", "OFF"].map String.toList

/-- Spellings of nothing. -/
def nullTexts : List Text := ["", "~", "null", "Null", "NULL"].map String.toList

/-- Scalars that are reserved, since with more text behind them they would be no scalars. -/
def reservedTexts : List Text := ["!", "&", "*"].map String.toList

/-- Digits and underscores. -/
def isDigitOrBar (c : Char) : Bool := Text.isDigit c || c == '_'

/-- Whether a text is one or more characters satisfying `p`. -/
def isRun (p : Char → Bool) (s : Text) : Bool := !s.isEmpty && s.all p

/-- Whether a text is a digit followed by digits and underscores. -/
def isGrouped : Text → Bool
  | [] => false
  | c :: rest => Text.isDigit c && rest.all isDigitOrBar

/-- Whether a text is a number from 0 to 59 of one or two digits. -/
def isSixtieth : Text → Bool
  | [a] => Text.isDigit a
  | [a, b] => '0' ≤ a && a ≤ '5' && Text.isDigit b
  | _ => false

/-- Whether a text is an exponent with its sign, or empty. -/
def isExponent : Text → Bool
  | [] => true
  | e :: sign :: digits =>
    (e == 'e' || e == 'E') && (sign == '-' || sign == '+') && isRun Text.isDigit digits
  | _ => false

/-- Whether a text is an integer: binary, octal, decimal, hexadecimal or in groups of sixty. -/
def isInt (s : Text) : Bool :=
  match (Numeral.takeSign s).2 with
  | ['0'] => true
  | '0' :: 'b' :: rest => isRun (fun c => c == '0' || c == '1' || c == '_') rest
  | '0' :: 'x' :: rest => isRun (fun c => Text.isHexDigit c || c == '_') rest
  | '0' :: rest => isRun (fun c => ('0' ≤ c && c ≤ '7') || c == '_') rest
  | rest =>
    match Text.splitOn ':' rest with
    | [] => false
    | first :: more => isGrouped first && more.all isSixtieth

/-- Whether a text is a fractional number, possibly in groups of sixty. -/
def isFloat (s : Text) : Bool :=
  let (_, rest) := Numeral.takeSign s
  if rest ∈ [".inf".toList, ".Inf".toList, ".INF".toList] then true
  else if s ∈ [".nan".toList, ".NaN".toList, ".NAN".toList] then true
  else
    match Text.cutAt? '.' rest with
    | none => false
    | some (whole, tail) =>
      let (fraction, exponent) := Text.span isDigitOrBar tail
      match Text.splitOn ':' whole with
      | [[]] => rest == s && isGrouped fraction && isExponent exponent
      | [first] => isGrouped first && isExponent exponent
      | first :: more => isGrouped first && more.all isSixtieth && exponent.isEmpty
      | [] => false

/-! ## Dates -/

/-- Between `low` and `high` digits at the beginning of a text. -/
def takeDigits (low high : Nat) (s : Text) : Option (Nat × Text) :=
  let digits := (s.takeWhile Text.isDigit).take high
  if digits.length < low then none else some (Text.toNat 10 digits, s.drop digits.length)

/-- The text behind a given character. -/
def takeChar (c : Char) : Text → Option Text
  | [] => none
  | d :: rest => if c = d then some rest else none

/-- The offset of a time zone in minutes. -/
def readZone (s : Text) : Option (Option Int) :=
  match s.dropWhile fun c => c == ' ' || c == '\t' with
  | [] => if s.isEmpty then some none else none
  | ['Z'] => some (some 0)
  | sign :: rest => do
    guard (sign == '-' || sign == '+')
    let (hours, rest) ← takeDigits 1 2 rest
    let minutes ← match rest with
      | [] => some 0
      | rest => do
        let rest ← takeChar ':' rest
        let (m, rest) ← takeDigits 2 2 rest
        guard rest.isEmpty
        some m
    let offset : Int := hours * 60 + minutes
    some (some (if sign == '-' then -offset else offset))

/-- The time of day and the time zone behind a date. -/
def readTime (date : Date) (s : Text) : Option Moment := do
  let rest ← match s with
    | 'T' :: rest | 't' :: rest => some rest
    | s =>
      let tail := s.dropWhile fun c => c == ' ' || c == '\t'
      if tail.length < s.length then some tail else none
  let (hour, rest) ← takeDigits 1 2 rest
  let rest ← takeChar ':' rest
  let (minute, rest) ← takeDigits 2 2 rest
  let rest ← takeChar ':' rest
  let (second, rest) ← takeDigits 2 2 rest
  let (fraction, rest) := match rest with
    | '.' :: rest => Text.span Text.isDigit rest
    | rest => ([], rest)
  let zone ← readZone rest
  let micro := Text.toNat 10 ((fraction ++ List.replicate 6 '0').take 6)
  some ⟨date, hour, minute, second, micro, zone⟩

/-- A date, or a date with a time of day; the numbers are not checked. -/
def readTimestamp (s : Text) : Option (Date ⊕ Moment) := do
  let (year, rest) ← takeDigits 4 4 s
  let rest ← takeChar '-' rest
  let (month, rest) ← takeDigits 1 2 rest
  let rest ← takeChar '-' rest
  let (day, rest) ← takeDigits 1 2 rest
  if rest.isEmpty then some (.inl ⟨year, month, day⟩)
  else (readTime ⟨year, month, day⟩ rest).map .inr

/-- Whether a text is a date or a moment. A date alone has two digits for month and day. -/
def isTimestamp (s : Text) : Bool :=
  match readTimestamp s with
  | some (.inl _) => s.length == 10
  | some (.inr _) => true
  | none => false

/-! ## The implied type -/

/-- A text without the line end behind it, unless the line end is all there is. -/
def dropLineEnd (s : Text) : Text :=
  if 1 < s.length ∧ s.getLast? = some '\n' then s.dropLast else s

/-- The type that the text of a scalar implies. A line end behind it does not count. -/
def NodeType.implied (text : Text) : NodeType :=
  let s := dropLineEnd text
  if s ∈ nullTexts then .null
  else if s ∈ trueTexts ∨ s ∈ falseTexts then .bool
  else if isFloat s then .float
  else if isInt s then .int
  else if isTimestamp s then .timestamp
  else if s = ['<', '<'] then .merge
  else if s = ['='] then .default
  else if s ∈ reservedTexts then .unknown
  else .string

end Untranslated.Yaml
