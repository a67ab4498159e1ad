import Untranslated.Text.Basic

/-!
# Styled text

Text for terminals: a style is switched on by a control sequence and off by another. A sequence is
an escape character and an opening bracket, then any number of parameter characters, any number of
intermediate characters and one final character; `plain` removes all of them. Only the latest releases of
click remove every such sequence, the ones that `Untranslated.Command.Line` follows.
-/

namespace Untranslated

/-- A way to set off text on a terminal. -/
inductive Style where
  | bold
  | yellow
  | grey
  deriving DecidableEq, Repr, Inhabited

/-- The parameter of a style in its control sequence. -/
def Style.parameter : Style → Text
  | .bold => ['1']
  | .yellow => ['9', '3']
  | .grey => ['9', '0']

namespace Text

/-- The control sequence with the given parameter that sets the style of what follows. -/
def styleSequence (parameter : Text) : Text := ['\x1b', '['] ++ parameter ++ ['m']

/-- A text in the given style, or plain when styles are not wanted. -/
def styled (wanted : Bool) (style : Style) (s : Text) : Text :=
  if wanted then styleSequence style.parameter ++ s ++ styleSequence ['0'] else s

/-- The parameter characters of a control sequence: digits and the punctuation around them. -/
def isParameter (c : Char) : Bool := '0' ≤ c && c ≤ '?'

/-- The intermediate characters of a control sequence: the blank and the punctuation behind it. -/
def isIntermediate (c : Char) : Bool := ' ' ≤ c && c ≤ '/'

/-- The characters that end a control sequence: letters and the punctuation around them. -/
def isFinal (c : Char) : Bool := '@' ≤ c && c ≤ '~'

/-- The length of the control sequence at the beginning of a text. -/
def sequenceLength? : Text → Option Nat
  | '\x1b' :: '[' :: rest =>
    let (parameters, rest) := span isParameter rest
    match span isIntermediate rest with
    | (intermediates, c :: _) =>
      if isFinal c then some (parameters.length + intermediates.length + 3) else none
    | (_, []) => none
  | _ => none

/-- The text behind the first `n` characters without its control sequences. -/
def plainAfter : Nat → Text → Text
  | _, [] => []
  | n + 1, _ :: rest => plainAfter n rest
  | 0, c :: rest =>
    match sequenceLength? (c :: rest) with
    | some n => plainAfter (n - 1) rest
    | none => c :: plainAfter 0 rest

/-- The text without its control sequences. -/
def plain (s : Text) : Text := plainAfter 0 s

end Text

end Untranslated
