import Untranslated.Text.Basic

/-!
# UTF-8

Bytes are decoded character by character. A part that is no character is as long as possible while
it could still begin one, and at least one byte; what becomes of such parts is the caller's choice:
`decodeLossy` puts U+FFFD in their place, `decode?` refuses them.
-/

namespace Untranslated.Utf8

/-- The number of continuation bytes behind a first byte, the range of the first of them, and the
bits that the first byte contributes. -/
def lead? (b : Nat) : Option (Nat × Nat × Nat × Nat) :=
  if b < 0x80 then some (0, 0, 0, b)
  else if b < 0xC2 then none
  else if b < 0xE0 then some (1, 0x80, 0xBF, b - 0xC0)
  else if b = 0xE0 then some (2, 0xA0, 0xBF, 0)
  else if b = 0xED then some (2, 0x80, 0x9F, 0xD)
  else if b < 0xF0 then some (2, 0x80, 0xBF, b - 0xE0)
  else if b = 0xF0 then some (3, 0x90, 0xBF, 0)
  else if b < 0xF4 then some (3, 0x80, 0xBF, b - 0xF0)
  else if b = 0xF4 then some (3, 0x80, 0x8F, 4)
  else none

/-- The code points of the bytes; `none` stands for each ill-formed part. While `owed` continuation
bytes are missing, `low` and `high` bound the next one and `bits` are those read so far. -/
def decodeFrom (owed low high bits : Nat) : List UInt8 → List (Option Char)
  | [] => if owed = 0 then [] else [none]
  | b :: rest =>
    let n := b.toNat
    if owed ≠ 0 ∧ low ≤ n ∧ n ≤ high then
      let bits := bits * 64 + (n - 0x80)
      if owed = 1 then some (Char.ofNat bits) :: decodeFrom 0 0 0 0 rest
      else decodeFrom (owed - 1) 0x80 0xBF bits rest
    else
      (if owed = 0 then [] else [none]) ++
        match lead? n with
        | none => none :: decodeFrom 0 0 0 0 rest
        | some (0, _, _, bits) => some (Char.ofNat bits) :: decodeFrom 0 0 0 0 rest
        | some (more, low, high, bits) => decodeFrom more low high bits rest

/-- The code points of the bytes; `none` stands for each ill-formed part. -/
def decode (bytes : List UInt8) : List (Option Char) := decodeFrom 0 0 0 0 bytes

/-- The text of the bytes, with U+FFFD for each ill-formed part. -/
def decodeLossy (bytes : List UInt8) : Text :=
  (decode bytes).map fun c => c.getD (Char.ofNat 0xFFFD)

/-- The text of well-formed bytes. -/
def decode? (bytes : List UInt8) : Option Text := (decode bytes).mapM id

/-- The text without a leading byte order mark. -/
def dropMark : Text → Text
  | [] => []
  | c :: rest => if c.toNat = 0xFEFF then rest else c :: rest

/-- The bytes of a text. -/
def encode (s : Text) : List UInt8 := (String.ofList s).toUTF8.toList

end Untranslated.Utf8
