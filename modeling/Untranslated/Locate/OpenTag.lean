import Untranslated.Source.Lines
import Untranslated.Text.Case

/-!
# Opening tags in the source

`OpenTag.scan` reads the opening tag at a given place of the source and records where the values of
its attributes stand. Quoted values may contain angle brackets. A tag that is never closed runs to
the end of the source.
-/

namespace Untranslated

/-- An attribute as written, with the range of its value. -/
structure WrittenAttribute where
  name : Text
  value : Span
  deriving DecidableEq, Repr, Inhabited

/-- The extent of an opening tag and its attributes. -/
structure OpenTag where
  start : Nat
  stop : Nat
  attributes : List WrittenAttribute
  deriving DecidableEq, Repr, Inhabited

namespace OpenTag

/-- The last attribute of the given name, letter case aside. -/
def attribute? (t : OpenTag) (name : Text) : Option WrittenAttribute :=
  t.attributes.reverse.find? fun a => Text.lower a.name == Text.lower name

/-- How many characters of whitespace and stray slashes precede the next attribute; the slash of
`/>` is not stray. -/
def gapLength : Text → Nat
  | [] => 0
  | c :: rest =>
    if Text.isSpace c then 1 + gapLength rest
    else if c = '/' ∧ rest.head? ≠ some '>' then 1 + gapLength rest
    else 0

/-- Characters of an attribute name. -/
def isNameChar (c : Char) : Bool := !Text.isSpace c && c != '/' && c != '>' && c != '='

/-- The value behind an attribute name: where it begins and ends and where reading goes on, all
relative to the end of the name. Without a value, all three are zero. An unclosed quote is no
value; but behind whitespace it leaves an empty value before the last whitespace character. -/
def valuePlace (s : Text) : Nat × Nat × Nat :=
  let before := (s.takeWhile Text.isSpace).length
  match s.drop before with
  | '=' :: rest =>
    let blank := (rest.takeWhile Text.isSpace).length
    let place := before + 1 + blank
    let quoted (quote : Char) (body : Text) : Nat × Nat × Nat :=
      match Text.find? [quote] body with
      | some n => (place + 1, place + 1 + n, place + 2 + n)
      | none => if blank = 0 then (0, 0, 0) else (place - 1, place - 1, place - 1)
    match rest.drop blank with
    | '\x27' :: body => quoted '\x27' body
    | '"' :: body => quoted '"' body
    | body =>
      let n := (body.takeWhile fun c => !Text.isSpace c && c != '>').length
      (place, place + n, place + n)
  | _ => (0, 0, 0)

/-- The attributes of a tag and its end, `s` being the source from offset `pos` on. -/
def scanFrom (pos : Nat) (s : Text) : List WrittenAttribute × Nat :=
  let gap := gapLength s
  match _h : s.drop gap with
  | [] => ([], pos + s.length)
  | c :: rest =>
    if c = '>' then ([], pos + gap + 1)
    else if c = '/' ∧ rest.head? = some '>' then ([], pos + gap + 2)
    else
      let name := (c :: rest).takeWhile isNameChar
      if name.isEmpty then scanFrom (pos + gap + 1) rest
      else
        let nameEnd := pos + gap + name.length
        let (first, last, next) := valuePlace ((c :: rest).drop name.length)
        let (others, stop) :=
          scanFrom (nameEnd + next) ((c :: rest).drop (name.length + next))
        (⟨name, ⟨nameEnd + first, nameEnd + last⟩⟩ :: others, stop)
termination_by s.length
decreasing_by
  · have := congrArg List.length _h
    simp only [List.length_drop, List.length_cons] at this
    omega
  · have := congrArg List.length _h
    simp only [List.length_drop, List.length_cons] at this ⊢
    have hn : 0 < (List.takeWhile isNameChar (c :: rest)).length :=
      List.length_pos_iff.mpr fun h => ‹¬name.isEmpty = true› (List.isEmpty_iff.mpr h)
    omega

/-- The opening tag that begins at `start` and whose name ends at `nameEnd`. -/
def scan (text : Text) (start nameEnd : Nat) : OpenTag :=
  if nameEnd < text.length then
    let (attributes, stop) := scanFrom nameEnd (text.drop nameEnd)
    ⟨start, stop, attributes⟩
  else ⟨start, text.length, []⟩

end OpenTag

end Untranslated
