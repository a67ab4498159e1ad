import Untranslated.Source.Lines
import Untranslated.Text.Quoted

/-!
# Template mask

Template expressions such as `<% … %>` are not text. The mask of a source holds the range of each
expression from its opening delimiter through its closing one. Expressions do not nest, and an
opening delimiter that is never closed begins none.

* `Mask.build` finds the expressions in one pass from left to right.
* `overlaps`, `covers` and `outside` answer questions about ranges of offsets.
* `stripExpressions` removes the expressions from a decoded value.
-/

namespace Untranslated

/-- The texts that open and close a template expression. -/
structure Delimiters where
  opening : Text
  closing : Text
  deriving DecidableEq, Repr, Inhabited

/-- Why a list of texts is no delimiter pair. -/
inductive DelimiterError where
  | tooFew (count : Nat)
  | tooMany
  deriving DecidableEq, Repr

/-- The wording of a delimiter error. -/
def DelimiterError.message : DelimiterError → Text
  | .tooFew n =>
    "not enough values to unpack (expected 2, got ".toList ++ Text.ofNat n ++ [')']
  | .tooMany => "too many values to unpack (expected 2)".toList

namespace Delimiters

/-- The delimiters given by a list of texts; the empty list gives none. -/
def ofList? : List Text → Except DelimiterError (Option Delimiters)
  | [] => .ok none
  | [_] => .error (.tooFew 1)
  | [a, b] => .ok (some ⟨a, b⟩)
  | _ => .error .tooMany

/-- The range of the first expression in `s`. -/
def first? (d : Delimiters) (s : Text) : Option Span := do
  let i ← Text.find? d.opening s
  let body := i + d.opening.length
  let j ← Text.find? d.closing (s.drop body)
  some ⟨i, body + j + d.closing.length⟩

end Delimiters

/-- The template expressions of one source, in order and without overlap. -/
structure Mask where
  spans : List Span
  delimiters : Option Delimiters
  deriving Repr, Inhabited

namespace Mask

/-- The mask of a source without template expressions. -/
def empty : Mask := ⟨[], none⟩

/-- The expressions of `s`, which begins at the given offset. -/
def spansFrom (d : Delimiters) (offset : Nat) (s : Text) : List Span :=
  match d.first? s with
  | none => []
  | some e =>
    ⟨offset + e.start, offset + e.stop⟩ ::
      if 0 < e.stop ∧ e.stop ≤ s.length then spansFrom d (offset + e.stop) (s.drop e.stop) else []
termination_by s.length
decreasing_by simp only [List.length_drop]; omega

/-- The mask of a text; without delimiters nothing is masked. -/
def build (text : Text) : Option Delimiters → Mask
  | none => empty
  | some d => ⟨spansFrom d 0 text, some d⟩

/-- The expressions from the last one that begins at or before `start`. -/
def spansNear (m : Mask) (start : Int) : List Span :=
  m.spans.drop (m.spans.countP (fun s => (s.start : Int) ≤ start) - 1)

/-- Whether one of the ordered ranges meets `[start, stop)`. -/
def meets (start stop : Int) : List Span → Bool
  | [] => false
  | s :: rest =>
    if stop ≤ s.start then false
    else if start < s.stop then true
    else meets start stop rest

/-- Whether `[start, stop)` meets an expression. -/
def overlaps (m : Mask) (start stop : Int) : Bool := meets start stop (m.spansNear start)

/-- The parts of `[pos, stop)` between the ordered ranges. -/
def gaps (pos stop : Int) : List Span → List (Int × Int)
  | [] => if pos < stop then [(pos, stop)] else []
  | s :: rest =>
    if stop ≤ s.start then (if pos < stop then [(pos, stop)] else [])
    else if s.stop ≤ pos then gaps pos stop rest
    else (if pos < s.start then [(pos, (s.start : Int))] else []) ++ gaps (max pos s.stop) stop rest

/-- The parts of `[start, stop)` that lie outside all expressions. -/
def outside (m : Mask) (start stop : Int) : List (Int × Int) :=
  gaps start stop (m.spansNear start)

/-- Whether `[start, stop)` lies inside expressions altogether. -/
def covers (m : Mask) (start stop : Int) : Bool := (m.outside start stop).isEmpty

/-- The text without the expressions that the delimiters find in it. -/
def strip (d : Delimiters) (s : Text) : Text :=
  match d.first? s with
  | none => s
  | some e =>
    if 0 < e.stop ∧ e.stop ≤ s.length then s.take e.start ++ strip d (s.drop e.stop) else s
termination_by s.length
decreasing_by simp only [List.length_drop]; omega

/-- A decoded value without its template expressions. -/
def stripExpressions (m : Mask) (value : Text) : Text :=
  match m.delimiters with
  | none => value
  | some d => strip d value

/-- A printed form of the mask. -/
def describe (m : Mask) : Text :=
  let span (s : Span) : Text :=
    "TemplateSpan(start=".toList ++ Text.ofNat s.start ++ ", end=".toList ++ Text.ofNat s.stop ++
      [')']
  let pair : Text := match m.delimiters with
    | none => "None".toList
    | some d =>
      ['('] ++ Text.quoted d.opening ++ [',', ' '] ++ Text.quoted d.closing ++ [')']
  "TemplateMask([".toList ++ Text.join [',', ' '] (m.spans.map span) ++ "], delimiters=".toList ++
    pair ++ [')']

end Mask

end Untranslated
