import Untranslated.Moment
import Untranslated.Number.Numeral

/-!
# YAML tokens and the place of reading

Tokens of a YAML text. The beginning and end of indented collections are tokens of their own. If the
text cannot be read to its end, the last token says why. A
`Cursor` is a place in the text with its line and column; behind the end stands a NUL character,
which no YAML text contains.
-/

namespace Untranslated.Yaml

/-- What a text that is good YAML otherwise can hold and a value cannot be made of. -/
inductive Fault where
  /-- A date or moment that does not exist. -/
  | moment (e : MomentError)
  /-- A numeral that cannot be read. -/
  | numeral (e : NumeralError)
  /-- A truth value that is none of the known ones; its text in lower case. -/
  | noTruthValue (text : Text)
  /-- A number without any character, or an integer with nothing but a sign. -/
  | emptyNumber
  /-- More groups of sixty than a fractional number can have. -/
  | tooManyGroups
  /-- A moment whose text is none. -/
  | noMoment
  /-- A moment that is given as the default of a mapping. -/
  | momentOfMapping
  /-- A character number that is too large for a character. -/
  | noCharacter
  /-- A character number of more than 31 bits. -/
  | hugeCharacter
  /-- A mapping whose default is the mapping itself, or collections nested too deep. -/
  | endless
  deriving DecidableEq, Repr

/-- The wording of a fault. -/
def Fault.message : Fault → Text
  | .moment e => e.message
  | .numeral e => e.message
  | .noTruthValue text => Text.quoted text
  | .emptyNumber => "string index out of range".toList
  | .tooManyGroups => "int too large to convert to float".toList
  | .noMoment => "'NoneType' object has no attribute 'groupdict'".toList
  | .momentOfMapping => "expected string or bytes-like object, got 'list'".toList
  | .noCharacter => "chr() arg not in range(0x110000)".toList
  | .hugeCharacter => "Python int too large to convert to C int".toList
  | .endless => "maximum recursion depth exceeded".toList

/-- Why a configuration text gives no value. -/
inductive YamlError where
  /-- The text is no YAML text, or holds something that is not supported in configurations. -/
  | malformed
  | fault (e : Fault)
  deriving DecidableEq, Repr

/-- A token. -/
inductive Token where
  /-- The directive that gives the version of YAML. -/
  | version (major minor : Nat)
  /-- The directive that gives a tag handle its meaning. -/
  | handle (name meaning : Text)
  /-- Any other directive. -/
  | directive
  | documentStart
  | documentEnd
  | blockSequenceStart
  | blockMappingStart
  | blockEnd
  | flowSequenceStart
  | flowSequenceEnd
  | flowMappingStart
  | flowMappingEnd
  | blockEntry
  | flowEntry
  | key
  | value
  | alias (name : Text)
  | anchor (name : Text)
  /-- A tag with its handle, absent for a verbatim tag, and the rest of its name. -/
  | tag (handle : Option Text) (rest : Text)
  /-- A scalar, and whether it was written without quotes and indicators. -/
  | scalar (text : Text) (plain : Bool)
  | streamEnd
  /-- The place from which on the text cannot be read. -/
  | unreadable (e : YamlError)
  deriving DecidableEq, Repr, Inhabited

/-- Whether a token is a directive. -/
def Token.isDirective : Token → Bool
  | .version _ _ | .handle _ _ | .directive => true
  | _ => false

/-- A place in a text. -/
structure Cursor where
  rest : Text
  index : Nat
  line : Nat
  column : Nat
  deriving Repr, Inhabited

/-- The character behind the end. -/
def endMark : Char := Char.ofNat 0

/-- Characters that end a line: line feed, carriage return, next line and the two separators. -/
def isBreak (c : Char) : Bool :=
  c == '\n' || c == '\r' || c.toNat == 0x85 || c.toNat == 0x2028 || c.toNat == 0x2029

/-- Line ends and the end of the text. -/
def isBreakOrEnd (c : Char) : Bool := isBreak c || c == endMark

/-- Blanks, tabs, line ends and the end of the text. -/
def isBlankOrEnd (c : Char) : Bool := c == ' ' || c == '\t' || isBreakOrEnd c

namespace Cursor

/-- The beginning of a text. -/
def start (s : Text) : Cursor := ⟨s, 0, 0, 0⟩

/-- The character `k` places on. -/
def peek (c : Cursor) (k : Nat) : Char := c.rest.getD k endMark

/-- One character further. A byte order mark takes no column. -/
def next (c : Cursor) : Cursor :=
  match c.rest with
  | [] => c
  | x :: rest =>
    if isBreak x && !(x == '\r' && rest.head? == some '\n') then ⟨rest, c.index + 1, c.line + 1, 0⟩
    else if x.toNat = 0xFEFF then ⟨rest, c.index + 1, c.line, c.column⟩
    else ⟨rest, c.index + 1, c.line, c.column + 1⟩

/-- `n` characters further. -/
def forward (c : Cursor) : Nat → Cursor
  | 0 => c
  | n + 1 => c.next.forward n

/-- Behind the longest run of characters satisfying `p`, with that run. -/
def takeWhile (c : Cursor) (p : Char → Bool) : Text × Cursor :=
  let run := c.rest.takeWhile p
  (run, c.forward run.length)

/-- Behind a line end, with the text it contributes; at any other place nothing is read. -/
def lineBreak (c : Cursor) : Text × Cursor :=
  let x := c.peek 0
  if x == '\r' && c.peek 1 == '\n' then (['\n'], c.forward 2)
  else if x == '\r' || x == '\n' || x.toNat == 0x85 then (['\n'], c.next)
  else if x.toNat == 0x2028 || x.toNat == 0x2029 then ([x], c.next)
  else ([], c)

/-- Whether a document marker made of three given characters stands here. -/
def atMarker (c : Cursor) (x : Char) : Bool :=
  c.rest.take 3 == [x, x, x] && isBlankOrEnd (c.peek 3)

/-- Whether a marker of either kind stands here. -/
def atSeparator (c : Cursor) : Bool := c.atMarker '-' || c.atMarker '.'

end Cursor

end Untranslated.Yaml
