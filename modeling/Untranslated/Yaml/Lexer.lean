import Untranslated.Yaml.Scalar
import Untranslated.Yaml.Tag

/-!
# Reading YAML tokens

The lexer keeps the columns of the open indented collections, and for each nesting of brackets the
token that may turn out to be the key of a mapping: only the `:` behind it tells. The tokens that
open the mapping are then inserted before that key.
-/

namespace Untranslated.Yaml

/-- A token that may be a mapping key. -/
structure PossibleKey where
  /-- The number of tokens before it. -/
  place : Nat
  /-- Whether it must be a key, because it begins a line of an open mapping. -/
  required : Bool
  index : Nat
  line : Nat
  column : Nat
  deriving Repr, Inhabited

/-- The state of the lexer. -/
structure Lexer where
  cursor : Cursor
  tokens : Array Token
  /-- How many brackets are open. -/
  flowLevel : Nat
  /-- The column of the innermost indented collection, -1 for none. -/
  indent : Int
  /-- The columns of the collections around it. -/
  outer : List Int
  /-- Whether a key may begin here. -/
  keyAllowed : Bool
  /-- Possible keys by the number of open brackets. -/
  possible : List (Nat × PossibleKey)
  deriving Repr, Inhabited

namespace Lexer

/-- A lexer at the beginning of a text. -/
def start (s : Text) : Lexer := ⟨Cursor.start s, #[], 0, -1, [], true, []⟩

/-- One more token. -/
def emit (l : Lexer) (t : Token) : Lexer := { l with tokens := l.tokens.push t }

/-- A token inserted before the token of the given number. -/
def insert (l : Lexer) (place : Nat) (t : Token) : Lexer :=
  { l with tokens := l.tokens.insertIdxIfInBounds place t }

/-- Whether brackets are open. -/
def inFlow (l : Lexer) : Bool := 0 < l.flowLevel

/-! ## Possible keys -/

/-- Whether a possible key is not on this line or too far back. -/
def isStale (l : Lexer) (k : PossibleKey) : Bool :=
  k.line != l.cursor.line || 1024 < l.cursor.index - k.index

/-- Stale possible keys are none after all. -/
def dropStale (l : Lexer) : Except YamlError Lexer :=
  if l.possible.any fun (_, k) => l.isStale k && k.required then .error .malformed
  else .ok { l with possible := l.possible.filter fun (_, k) => !l.isStale k }

/-- How many tokens are certain: those before the first one that may still turn out to be a key. -/
def certain (l : Lexer) : Nat :=
  ((l.possible.filter fun (_, k) => !l.isStale k).map fun (_, k) => k.place).foldl min l.tokens.size

/-- The possible key at this nesting of brackets is none after all. -/
def dropKey (l : Lexer) : Except YamlError Lexer :=
  match l.possible.lookup l.flowLevel with
  | none => .ok l
  | some k =>
    if k.required then .error .malformed
    else .ok { l with possible := l.possible.filter fun (level, _) => level != l.flowLevel }

/-- The next token may be a key. -/
def saveKey (l : Lexer) : Except YamlError Lexer :=
  if l.keyAllowed then do
    let required := !l.inFlow && l.indent == l.cursor.column
    let l ← l.dropKey
    let k : PossibleKey :=
      ⟨l.tokens.size, required, l.cursor.index, l.cursor.line, l.cursor.column⟩
    return { l with possible := (l.flowLevel, k) :: l.possible }
  else .ok l

/-! ## Indentation -/

/-- Closes the indented collections that begin right of the given column. -/
def unwind (l : Lexer) (column : Int) : Lexer :=
  if l.inFlow then l else go l.outer l
where
  /-- Follows the columns of the outer collections. -/
  go : List Int → Lexer → Lexer
    | [], l => l
    | column' :: outer, l =>
      if column < l.indent then go outer ({ l with indent := column', outer }.emit .blockEnd) else l

/-- Opens an indented collection at the given column, unless it is open already. -/
def indentTo (l : Lexer) (column : Nat) : Bool × Lexer :=
  if l.indent < column then (true, { l with indent := column, outer := l.indent :: l.outer })
  else (false, l)

/-- Opens an indented collection here if need be, emitting the given token for it. -/
def openBlock (l : Lexer) (t : Token) : Lexer :=
  match l.indentTo l.cursor.column with
  | (true, l) => l.emit t
  | (false, l) => l

/-! ## Tokens -/

/-- Skips blanks, comments and line ends. Behind a line end outside brackets a key may begin. -/
def skipSpace : Nat → Lexer → Lexer
  | 0, l => l
  | fuel + 1, l =>
    let c := (l.cursor.takeWhile (· == ' ')).2
    let c := if c.peek 0 == '#' then (c.takeWhile fun x => !isBreakOrEnd x).2 else c
    if isBreak (c.peek 0) then
      skipSpace fuel { l with cursor := c.lineBreak.2, keyAllowed := l.keyAllowed || !l.inFlow }
    else { l with cursor := c }

/-- A one-character token. -/
def single (l : Lexer) (t : Token) : Lexer := { l with cursor := l.cursor.next }.emit t

/-- The end of everything. -/
def finish (l : Lexer) : Except YamlError Lexer := do
  let l ← (l.unwind (-1)).dropKey
  return { l with keyAllowed := false, possible := [] }.emit .streamEnd

/-- A directive line. -/
def directive (fuel : Nat) (l : Lexer) : Except YamlError Lexer := do
  let l ← (l.unwind (-1)).dropKey
  let (t, c) ← directiveLine fuel l.cursor.next
  return { l with keyAllowed := false, cursor := c }.emit t

/-- A document marker. -/
def marker (l : Lexer) (t : Token) : Except YamlError Lexer := do
  let l ← (l.unwind (-1)).dropKey
  return { l with keyAllowed := false, cursor := l.cursor.forward 3 }.emit t

/-- An opening bracket. -/
def openBracket (l : Lexer) (t : Token) : Except YamlError Lexer := do
  let l ← l.saveKey
  return { l with flowLevel := l.flowLevel + 1, keyAllowed := true }.single t

/-- A closing bracket. -/
def closeBracket (l : Lexer) (t : Token) : Except YamlError Lexer := do
  let l ← l.dropKey
  if l.flowLevel = 0 then .error .malformed
  else return { l with flowLevel := l.flowLevel - 1, keyAllowed := false }.single t

/-- A comma between brackets. -/
def flowEntry (l : Lexer) : Except YamlError Lexer := do
  let l ← { l with keyAllowed := true }.dropKey
  return l.single .flowEntry

/-- The dash of a list entry. -/
def blockEntry (l : Lexer) : Except YamlError Lexer := do
  if !l.inFlow && !l.keyAllowed then .error .malformed
  else
    let l := if l.inFlow then l else l.openBlock .blockSequenceStart
    let l ← { l with keyAllowed := true }.dropKey
    return l.single .blockEntry

/-- The question mark of an explicit key. -/
def explicitKey (l : Lexer) : Except YamlError Lexer := do
  if !l.inFlow && !l.keyAllowed then .error .malformed
  else
    let l := if l.inFlow then l else l.openBlock .blockMappingStart
    let l ← { l with keyAllowed := !l.inFlow }.dropKey
    return l.single .key

/-- The colon of a value: it turns the possible key before it into a key. -/
def value (l : Lexer) : Except YamlError Lexer := do
  match l.possible.lookup l.flowLevel with
  | some k =>
    let l := { l with possible := l.possible.filter fun (level, _) => level != l.flowLevel }
    let l := l.insert k.place .key
    let l := if l.inFlow then l else
      match l.indentTo k.column with
      | (true, l) => l.insert k.place .blockMappingStart
      | (false, l) => l
    return { l with keyAllowed := false }.single .value
  | none =>
    if !l.inFlow && !l.keyAllowed then .error .malformed
    else
      let l := if l.inFlow then l else l.openBlock .blockMappingStart
      let l ← { l with keyAllowed := !l.inFlow }.dropKey
      return l.single .value

/-- An alias or an anchor. -/
def anchor (l : Lexer) (make : Text → Token) : Except YamlError Lexer := do
  let l ← l.saveKey
  let (name, c) := l.cursor.next.takeWhile isNameChar
  let x := c.peek 0
  if name.isEmpty ||
      !(isBlankOrEnd x || ['?', ':', ',', ']', '\x7d', '%', '@', '\x60'].contains x) then
    .error .malformed
  else return { l with keyAllowed := false, cursor := c }.emit (make name)

/-- A tag. -/
def tag (fuel : Nat) (l : Lexer) : Except YamlError Lexer := do
  let l ← l.saveKey
  let (handle, rest, c) ← tagParts fuel l.cursor
  return { l with keyAllowed := false, cursor := c }.emit (.tag handle rest)

/-- A block scalar. -/
def block (fuel : Nat) (l : Lexer) : Except YamlError Lexer := do
  let l ← { l with keyAllowed := true }.dropKey
  let (s, c) ← blockScalar fuel l.indent l.cursor
  return { l with cursor := c }.emit (.scalar s false)

/-- A quoted scalar. -/
def quoted (fuel : Nat) (l : Lexer) : Except YamlError Lexer := do
  let l ← l.saveKey
  let (s, c) ← quotedScalar fuel l.cursor
  return { l with keyAllowed := false, cursor := c }.emit (.scalar s false)

/-- A plain scalar. -/
def plain (fuel : Nat) (l : Lexer) : Except YamlError Lexer := do
  let l ← l.saveKey
  let (s, c, passed) := plainRuns l.inFlow (l.indent + 1) fuel false l.cursor
  return { l with keyAllowed := passed, cursor := c }.emit (.scalar s true)

/-- Whether a plain scalar begins here. -/
def startsPlain (l : Lexer) : Bool :=
  let x := l.cursor.peek 0
  (!isBlankOrEnd x && !"-?:,[]\x7b\x7d#&*!|>'\"%@\x60".toList.contains x) ||
    (!isBlankOrEnd (l.cursor.peek 1) &&
      (x == '-' || (!l.inFlow && (x == '?' || x == ':'))))

/-- The next token. -/
def token (fuel : Nat) (l : Lexer) : Except YamlError Lexer := do
  let l ← (skipSpace fuel l).dropStale
  let l := l.unwind l.cursor.column
  let c := l.cursor
  let x := c.peek 0
  let blank := isBlankOrEnd (c.peek 1)
  if c.rest.isEmpty then l.finish
  else if x == '%' && c.column == 0 then l.directive fuel
  else if c.column == 0 && c.atMarker '-' then l.marker .documentStart
  else if c.column == 0 && c.atMarker '.' then l.marker .documentEnd
  else if x == '[' then l.openBracket .flowSequenceStart
  else if x == '\x7b' then l.openBracket .flowMappingStart
  else if x == ']' then l.closeBracket .flowSequenceEnd
  else if x == '\x7d' then l.closeBracket .flowMappingEnd
  else if x == ',' then l.flowEntry
  else if x == '-' && blank then l.blockEntry
  else if x == '?' && (l.inFlow || blank) then l.explicitKey
  else if x == ':' && (l.inFlow || blank) then l.value
  else if x == '*' then l.anchor .alias
  else if x == '&' then l.anchor .anchor
  else if x == '!' then l.tag fuel
  else if (x == '|' || x == '>') && !l.inFlow then l.block fuel
  else if x == '\x27' || x == '"' then l.quoted fuel
  else if l.startsPlain then l.plain fuel
  else .error .malformed

/-- The tokens up to the end of the text, or up to what cannot be read. A token that may turn out to
be a key is not known before what follows it is. -/
def run (fuel : Nat) : Nat → Lexer → List Token
  | 0, _ => [.unreadable .malformed]
  | steps + 1, l =>
    match l.token fuel with
    | .error e => l.tokens.toList.take l.certain ++ [.unreadable e]
    | .ok l => if l.tokens.back? == some .streamEnd then l.tokens.toList else run fuel steps l

end Lexer

/-- Characters that a YAML text may contain. -/
def isYamlChar (c : Char) : Bool :=
  let n := c.toNat
  n == 9 || n == 10 || n == 13 || (0x20 ≤ n && n ≤ 0x7E) || n == 0x85 || (0xA0 ≤ n && n ≤ 0xD7FF) ||
    (0xE000 ≤ n && n ≤ 0xFFFD) || 0x10000 ≤ n

/-- The tokens of a text. A leading byte order mark is skipped. -/
def tokens (s : Text) : List Token :=
  if s.all isYamlChar then
    let l := Lexer.start s
    let l := if l.cursor.peek 0 == Char.ofNat 0xFEFF then { l with cursor := l.cursor.next } else l
    l.run (s.length + 1) (s.length + 2)
  else [.unreadable .malformed]

end Untranslated.Yaml
