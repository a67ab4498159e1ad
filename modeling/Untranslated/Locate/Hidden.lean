import Untranslated.Source.Lines
import Untranslated.Text.Space

/-!
# Hidden ranges

Comments, marked sections, declarations and processing instructions hide what they contain: no tag
and no text is looked for inside them.
-/

namespace Untranslated.Hidden

/-- The length of a construct with a lead of `skip` characters that ends with the first `close`
behind it, or with the text. -/
def lengthThrough (skip : Nat) (close s : Text) : Nat :=
  match Text.find? close (s.drop skip) with
  | some n => skip + n + close.length
  | none => s.length

/-- The length of the hidden construct at the beginning of a text. -/
def length? (s : Text) : Option Nat :=
  if Text.startsWith "<!--".toList s then some (lengthThrough 4 "-->".toList s)
  else if Text.startsWith "<![CDATA[".toList s then some (lengthThrough 9 "]]>".toList s)
  else if Text.startsWith "<!".toList s then some (lengthThrough 2 ">".toList s)
  else if Text.startsWith "<?".toList s then some (lengthThrough 2 ">".toList s)
  else none

/-- The hidden ranges of `s`, which begins at the given offset. -/
def spansFrom (offset : Nat) (s : Text) : List Span :=
  match s with
  | [] => []
  | c :: tail =>
    match length? (c :: tail) with
    | some n =>
      if 0 < n then ⟨offset, offset + n⟩ :: spansFrom (offset + n) ((c :: tail).drop n)
      else spansFrom (offset + 1) tail
    | none => spansFrom (offset + 1) tail
termination_by s.length
decreasing_by all_goals simp_wf <;> omega

/-- The hidden ranges of a text that begin at or after `start`, found by reading from there. -/
def spans (text : Text) (start : Nat) : List Span := spansFrom start (text.drop start)

/-- The length of the end tags and hidden constructs at the beginning of a text: what may stand
between a node and the text behind it. -/
def gapLength (s : Text) : Nat :=
  let first :=
    if Text.startsWith "</".toList s then some (lengthThrough 2 ">".toList s) else length? s
  match first with
  | some n => if 0 < n ∧ n ≤ s.length then n + gapLength (s.drop n) else 0
  | none => 0
termination_by s.length
decreasing_by simp only [List.length_drop]; omega

end Untranslated.Hidden
