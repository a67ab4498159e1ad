import Untranslated.Locate.WrittenReference
import Untranslated.Source.Mask

/-!
# Evidence

The evidence of a candidate is the first part of its source range that lies outside all template
expressions and shows something, without whitespace and blank references at its ends. A reference
at such an end that cannot be read is an error, and so is a range that reaches behind the source.
-/

namespace Untranslated

/-- Why a range of the source has no evidence to speak of. -/
inductive EvidenceError where
  /-- A reference at an end of the evidence cannot be read. -/
  | overlong (reference : OverlongReference)
  /-- The range ends behind the end of the source. -/
  | beyondEnd
  deriving DecidableEq, Repr

/-- The wording of a failure to find evidence. -/
def EvidenceError.message : EvidenceError → Text
  | .overlong reference => reference.message
  | .beyondEnd => "string index out of range".toList

namespace Evidence

/-- The text without leading whitespace and blank references. -/
def trimStart (s : Text) : Text :=
  match s with
  | [] => []
  | c :: rest =>
    if Text.isSpace c then trimStart rest
    else
      match WrittenReference.longest? (c :: rest) with
      | some after =>
        if after.length ≤ rest.length ∧
            WrittenReference.isBlank ((c :: rest).take (rest.length + 1 - after.length)) then
          trimStart after
        else c :: rest
      | none => c :: rest
termination_by s.length
decreasing_by all_goals simp_wf <;> omega

/-- The text before its last ampersand, and the text from there on. -/
def cutAtLastAmpersand? : Text → Option (Text × Text)
  | [] => none
  | c :: rest =>
    match cutAtLastAmpersand? rest with
    | some (a, b) => some (c :: a, b)
    | none => if c = '&' then some ([], c :: rest) else none

/-- The text without trailing whitespace and blank references. -/
def trimEnd (s : Text) : Text :=
  if s.getLast?.any Text.isSpace then trimEnd s.dropLast
  else
    match cutAtLastAmpersand? s with
    | some (before, reference) =>
      if before.length < s.length ∧ WrittenReference.isWhole reference ∧
          WrittenReference.isBlank reference then trimEnd before
      else s
    | none => s
termination_by s.length
decreasing_by
  · have : s ≠ [] := by rintro rfl; simp at *
    have := List.length_pos_iff.mpr this
    simp only [List.length_dropLast]; omega
  · simp_all

/-- A range of the source without whitespace and blank references at its ends. -/
def trim (text : Text) (start stop : Nat) : Span :=
  let fragment := Text.slice text start stop
  let kept := trimStart fragment
  let first := start + (fragment.length - kept.length)
  ⟨first, first + (trimEnd kept).length⟩

/-- What keeps a range from being trimmed, looked for at its beginning and then at its end. -/
def obstacle? (text : Text) (start stop : Nat) : Option EvidenceError :=
  let kept := trimStart (Text.slice text start stop)
  let first := (WrittenReference.longest? kept).bind fun after =>
    Reference.overlong? (kept.take (kept.length - after.length))
  let last := (cutAtLastAmpersand? (trimEnd kept)).bind fun (_, reference) =>
    if WrittenReference.isWhole reference then Reference.overlong? reference else none
  match first with
  | some reference => some (.overlong reference)
  | none => if text.length < stop then some .beyondEnd else last.map .overlong

/-- The first of the ranges with evidence in it, trimmed to the evidence. -/
def firstOf (text : Text) : List (Int × Int) → Except EvidenceError (Option Span)
  | [] => .ok none
  | (a, b) :: ranges =>
    match obstacle? text a.toNat b.toNat with
    | some e => .error e
    | none =>
      let s := trim text a.toNat b.toNat
      if s.start < s.stop then .ok (some s) else firstOf text ranges

/-- The evidence in `[start, stop)`, if anything there is evidence. -/
def range? (text : Text) (mask : Mask) (start stop : Nat) : Except EvidenceError (Option Span) :=
  firstOf text (mask.outside start stop)

/-! ## Ranges that begin before the source

A range may begin at a negative offset. Its characters there are those at the end of the source, as
offsets count from the end, while a reference can only stand at the beginning of the source.
-/

/-- Where the evidence of such a range may begin, `count` being how far before the source it does. -/
def startBefore (text : Text) (stop : Int) : Nat → Except EvidenceError Int
  | 0 => .ok 0
  | count + 1 =>
    let start : Int := -(count + 1)
    if stop ≤ start then .ok start
    else
      match Text.at? text start with
      | none => .error .beyondEnd
      | some c =>
        if Text.isSpace c then startBefore text stop count
        else
          let beginning := text.take stop.toNat
          match WrittenReference.longest? beginning with
          | none => .ok start
          | some after =>
            let reference := beginning.take (beginning.length - after.length)
            match Reference.overlong? reference with
            | some e => .error (.overlong e)
            | none => .ok (if WrittenReference.isBlank reference then reference.length else start)

/-- Where the evidence of such a range ends. -/
def stopBehind (text : Text) (start stop : Int) : Except EvidenceError Int :=
  if start < stop then
    match Text.at? text (stop - 1) with
    | none => .error .beyondEnd
    | some c =>
      if Text.isSpace c then stopBehind text start (stop - 1)
      else
        match cutAtLastAmpersand? (Text.sliceAt text start stop) with
        | none => .ok stop
        | some (before, reference) =>
          let ampersand := Text.offset text start + before.length
          if ampersand < stop ∧ WrittenReference.isWhole reference then
            match Reference.overlong? reference with
            | some e => .error (.overlong e)
            | none =>
              if WrittenReference.isBlank reference then stopBehind text start ampersand
              else .ok stop
          else .ok stop
  else .ok stop
termination_by (stop - start).toNat
decreasing_by all_goals omega

/-- The evidence in a range between any two offsets. -/
def rangeAt? (text : Text) (mask : Mask) (start stop : Int) :
    Except EvidenceError (Option (Int × Int)) :=
  let placed (s : Option Span) : Option (Int × Int) := s.map fun s => (s.start, s.stop)
  match start with
  | .ofNat first => (range? text mask first stop.toNat).map placed
  | .negSucc count =>
    match mask.outside start stop with
    | [] => .ok none
    | (_, last) :: ranges => do
      let first ← startBefore text last (count + 1)
      if 0 ≤ first then return placed (← firstOf text ((first, last) :: ranges))
      let last ← stopBehind text first last
      if first < last then return some (first, last)
      return placed (← firstOf text ranges)

end Evidence

end Untranslated
