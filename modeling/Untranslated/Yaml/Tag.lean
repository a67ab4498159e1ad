import Untranslated.Text.Utf8
import Untranslated.Yaml.Token

/-!
# Reading YAML tags and directives

A tag names the type of a node: in full between angle brackets, or by a handle, which stands for the
beginning of the name, and the rest of the name. Directives before a document give the version of
YAML and the meaning of handles.
-/

namespace Untranslated.Yaml

/-- Characters of anchors, handles and the names of directives. -/
def isNameChar (x : Char) : Bool := Text.isLetterOrDigit x || x == '-' || x == '_'

/-- Characters of tag names. A percent sign begins a byte in hexadecimal. -/
def isTagChar (x : Char) : Bool :=
  Text.isLetterOrDigit x || "-;/?:@&=+$,_.!~*'()[]%".toList.contains x

/-- Blanks, line ends and the end of the text, one of which stands behind a tag. -/
def endsTag (x : Char) : Bool := x == ' ' || isBreakOrEnd x

/-- A run of bytes, each written as a percent sign and two hexadecimal digits. -/
def escapedBytes : Nat → Cursor → Except YamlError (List UInt8 × Cursor)
  | 0, c => .ok ([], c)
  | fuel + 1, c =>
    match c.rest with
    | '%' :: a :: b :: _ =>
      if Text.isHexDigit a && Text.isHexDigit b then do
        let (more, c) ← escapedBytes fuel (c.forward 3)
        return (UInt8.ofNat (Text.toNat 16 [a, b]) :: more, c)
      else .error .malformed
    | '%' :: _ => .error .malformed
    | _ => .ok ([], c)

/-- The characters of a tag name at a place, bytes in hexadecimal decoded. -/
def tagChars : Nat → Cursor → Except YamlError (Text × Cursor)
  | 0, c => .ok ([], c)
  | fuel + 1, c => do
    let (run, c) := c.takeWhile fun x => isTagChar x && x != '%'
    if c.peek 0 == '%' then
      let (bytes, c) ← escapedBytes fuel c
      match Utf8.decode? bytes with
      | none => .error .malformed
      | some s =>
        let (more, c) ← tagChars fuel c
        return (run ++ s ++ more, c)
    else return (run, c)

/-- The name of a tag, which is not empty. -/
def tagName (fuel : Nat) (c : Cursor) : Except YamlError (Text × Cursor) := do
  let (name, c) ← tagChars fuel c
  if name.isEmpty then .error .malformed else return (name, c)

/-- A handle: an exclamation mark, or a name between two of them, which may be empty. -/
def tagHandle (c : Cursor) : Except YamlError (Text × Cursor) :=
  if c.peek 0 != '!' then .error .malformed
  else if c.peek 1 == ' ' then .ok (['!'], c.next)
  else
    let (name, c) := c.next.takeWhile isNameChar
    if c.peek 0 == '!' then .ok (['!'] ++ name ++ ['!'], c.next) else .error .malformed

/-- A tag: its handle, absent if it is verbatim, and the rest of its name. -/
def tagParts (fuel : Nat) (c : Cursor) : Except YamlError (Option Text × Text × Cursor) := do
  let (handle, rest, c) ←
    if c.peek 1 == '<' then
      let (name, c) ← tagName fuel (c.forward 2)
      if c.peek 0 == '>' then pure (none, name, c.next) else .error .malformed
    else if isBlankOrEnd (c.peek 1) then pure (none, ['!'], c.next)
    else
      let word := c.next.rest.takeWhile fun x => !endsTag x
      let (handle, c) ← if word.contains '!' then tagHandle c else pure (['!'], c.next)
      let (name, c) ← tagName fuel c
      pure (some handle, name, c)
  if endsTag (c.peek 0) then return (handle, rest, c) else .error .malformed

/-! ## Directives -/

/-- A place behind blanks. -/
def skipBlanks (c : Cursor) : Cursor := (c.takeWhile (· == ' ')).2

/-- A number of a version. -/
def versionNumber (c : Cursor) : Except YamlError (Nat × Cursor) :=
  let (digits, c) := c.takeWhile Text.isDigit
  if digits.isEmpty then .error .malformed
  else if Numeral.digitLimit < digits.length then
    .error (.fault (.numeral (.tooManyDigits digits.length)))
  else .ok (Text.toNat 10 digits, c)

/-- The content of a directive that gives the version. -/
def versionDirective (c : Cursor) : Except YamlError (Token × Cursor) := do
  let (major, c) ← versionNumber (skipBlanks c)
  if c.peek 0 != '.' then .error .malformed
  else
    let (minor, c) ← versionNumber c.next
    if endsTag (c.peek 0) then return (.version major minor, c) else .error .malformed

/-- The content of a directive that gives the meaning of a handle. -/
def handleDirective (fuel : Nat) (c : Cursor) : Except YamlError (Token × Cursor) := do
  let (name, c) ← tagHandle (skipBlanks c)
  if c.peek 0 != ' ' then .error .malformed
  else
    let (meaning, c) ← tagName fuel (skipBlanks c)
    if endsTag (c.peek 0) then return (.handle name meaning, c) else .error .malformed

/-- The rest of a directive's line: nothing but blanks and a comment. -/
def directiveEnd (c : Cursor) : Except YamlError Cursor :=
  let c := skipBlanks c
  let c := if c.peek 0 == '#' then (c.takeWhile fun x => !isBreakOrEnd x).2 else c
  if isBreakOrEnd (c.peek 0) then .ok c.lineBreak.2 else .error .malformed

/-- A directive, read from behind its percent sign. Directives of unknown names are skipped. -/
def directiveLine (fuel : Nat) (c : Cursor) : Except YamlError (Token × Cursor) := do
  let (name, c) := c.takeWhile isNameChar
  if name.isEmpty || !endsTag (c.peek 0) then .error .malformed
  else
    let (token, c) ←
      if name = "YAML".toList then versionDirective c
      else if name = "TAG".toList then handleDirective fuel c
      else pure (.directive, (c.takeWhile fun x => !isBreakOrEnd x).2)
    return (token, ← directiveEnd c)

end Untranslated.Yaml
