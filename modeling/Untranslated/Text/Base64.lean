import Untranslated.Text.Basic

/-!
# Base 64

Bytes written with 64 characters, four characters for three bytes. Reading is lenient: characters
outside the alphabet are skipped, and everything behind a complete padding is left alone.
-/

namespace Untranslated.Base64

/-- The value of a character of the alphabet. -/
def value? (c : Char) : Option Nat :=
  if 'A' ≤ c && c ≤ 'Z' then some (c.toNat - 'A'.toNat)
  else if 'a' ≤ c && c ≤ 'z' then some (c.toNat - 'a'.toNat + 26)
  else if Text.isDigit c then some (c.toNat - '0'.toNat + 52)
  else if c = '+' then some 62
  else if c = '/' then some 63
  else none

/-- The bytes of a text, of which `place` characters of the current four have been read, with `left`
their bits that belong to the next byte, and `pads` padding characters since. Nothing is the answer
when the text ends before four characters are complete. -/
def decodeFrom (place left pads : Nat) : Text → Option (List UInt8)
  | [] => if place = 0 then some [] else none
  | c :: rest =>
    if c = '=' then
      if 2 ≤ place then
        if 4 ≤ place + pads + 1 then some [] else decodeFrom place left (pads + 1) rest
      else decodeFrom place left pads rest
    else
      match value? c with
      | none => decodeFrom place left pads rest
      | some v =>
        match place with
        | 0 => decodeFrom 1 v 0 rest
        | 1 => (decodeFrom 2 (v % 16) 0 rest).map (UInt8.ofNat (left * 4 + v / 16) :: ·)
        | 2 => (decodeFrom 3 (v % 4) 0 rest).map (UInt8.ofNat (left * 16 + v / 4) :: ·)
        | _ => (decodeFrom 0 0 0 rest).map (UInt8.ofNat (left * 64 + v) :: ·)

/-- The bytes that a text stands for. -/
def decode? (s : Text) : Option (List UInt8) := decodeFrom 0 0 0 s

end Untranslated.Base64
