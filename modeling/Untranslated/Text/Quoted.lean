import Untranslated.Text.Printable

/-!
# Quoted text

Messages quote the texts they talk about. A quoted text stands between single quotes, or between
double quotes when it holds a single quote and no double one; the quote in use, backslashes and
characters without a printed form are spelled out. Quoted bytes have a `b` before them, and of them
only ASCII has a printed form.
-/

namespace Untranslated.Text

/-- The quote that `s` is written between. -/
def quoteFor (s : Text) : Char := if '\'' ∈ s ∧ '"' ∉ s then '"' else '\''

/-- One character inside a quoted text. -/
def quoteChar (quote c : Char) : Text :=
  if c = quote ∨ c = '\\' then ['\\', c]
  else if c = '\n' then ['\\', 'n']
  else if c = '\r' then ['\\', 'r']
  else if c = '\t' then ['\\', 't']
  else if isPrintable c then [c]
  else if c.toNat < 0x100 then ['\\', 'x'] ++ hex 2 c.toNat
  else if c.toNat < 0x10000 then ['\\', 'u'] ++ hex 4 c.toNat
  else ['\\', 'U'] ++ hex 8 c.toNat

/-- A text in quotes. -/
def quoted (s : Text) : Text :=
  let quote := quoteFor s
  quote :: s.flatMap (quoteChar quote) ++ [quote]

/-- One byte inside quoted bytes, given as the character of its number. -/
def quoteByte (quote c : Char) : Text :=
  if c.toNat < 0x80 then quoteChar quote c else ['\\', 'x'] ++ hex 2 c.toNat

/-- Bytes in quotes. -/
def quotedBytes (bs : List UInt8) : Text :=
  let s : Text := bs.map fun b => Char.ofNat b.toNat
  let quote := quoteFor s
  ['b', quote] ++ s.flatMap (quoteByte quote) ++ [quote]

end Untranslated.Text
