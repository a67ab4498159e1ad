import Untranslated.Candidate
import Untranslated.Locate.Evidence
import Untranslated.Locate.Hidden
import Untranslated.Locate.OpenTag
import Untranslated.Locate.ValuePattern
import Untranslated.Log

/-!
# Locating candidates in the source

The document tree is decoded and normalised, so it does not say where its strings stand in the
source. The resolver finds that out by keeping one cursor over the source and advancing through
every node of the document in order: an element is located at the next `<name` outside hidden
ranges and the cursor moves behind its opening tag; a text is located where it is next written and
the cursor moves behind it. Nodes inside ignored elements are passed in the same way, so their
content is never mistaken for a later candidate.

A request that fails leaves the resolver behind the node at which it failed.
-/

namespace Untranslated

/-- Where a node stands in the source. -/
inductive Located where
  | tag (t : OpenTag)
  | text (s : Span)
  deriving DecidableEq, Repr, Inhabited

/-- The evidence of a candidate; an attribute's comes with its raw opening tag. -/
structure EvidenceSpan where
  start : Nat
  stop : Nat
  scope : Option Text
  deriving DecidableEq, Repr, Inhabited

/-- Why a candidate could not be located. -/
inductive LocateError where
  /-- The quoted text was not found at or after the offset. -/
  | notFound (value : Text) (offset : Nat)
  /-- No node is left, and the element with the given opening tag was not among the rest. -/
  | elementPassed (markup : Text) (offset : Nat)
  /-- A reference in the source that had to be decoded cannot be read. -/
  | overlong (reference : OverlongReference)
  | evidence (e : EvidenceError)
  deriving DecidableEq, Repr

/-- The wording of a failure to locate. -/
def LocateError.message : LocateError → Text
  | .notFound value offset | .elementPassed value offset =>
    "could not locate ".toList ++ Text.quoted value ++ " at or after offset ".toList ++
      Text.ofNat offset
  | .overlong reference => reference.message
  | .evidence e => e.message

namespace Resolver

/-- What a resolver works on. -/
structure Source where
  text : Text
  mask : Mask
  deriving Repr, Inhabited

/-- How far a resolver has got. -/
structure State where
  cursor : Nat
  /-- The nodes not yet passed, with their places in document order. -/
  remaining : List (Nat × Node)
  /-- The node passed last and where it was located, if it was. -/
  last : Option (Nat × Option Located)
  /-- Hidden ranges, trusted from the cursor on. -/
  hidden : List Span
  log : Log
  deriving Repr, Inhabited

/-- A resolver that has passed no node. -/
def State.start (src : Source) (d : Document) : State :=
  ⟨0, d.nodes.zipIdx.map fun (n, i) => (i, n), none, Hidden.spans src.text 0, []⟩

/-- The state with one more log line. -/
def State.note (st : State) (message : Text) : State :=
  { st with log := st.log ++ [⟨.resolver, message⟩] }

/-- The state with hidden ranges that can be trusted from the cursor on. The cursor never stops
inside a true hidden construct, so a range that holds it began inside a quoted value or verbatim
content that the cursor has since passed; the ranges are then read anew from the cursor. -/
def State.refresh (src : Source) (st : State) : State :=
  if st.hidden.any fun s => s.start < st.cursor && st.cursor < s.stop then
    { st with hidden := Hidden.spans src.text st.cursor }
  else st

/-- Whether an offset lies in a hidden range, and the state with trusted ranges. -/
def isHidden (src : Source) (offset : Nat) (st : State) : Bool × State :=
  let st := st.refresh src
  (st.hidden.any fun s => s.contains offset, st)

/-! ## Elements -/

/-- Whether `s` begins with the boundary `<name` of a tag, letter case aside. -/
def startsTag (name s : Text) : Bool :=
  match s with
  | '<' :: rest =>
    let head := rest.take name.length
    head.length == name.length && (name.zip head).all (fun (a, b) => Text.sameLetter a b) &&
      match rest.drop name.length with
      | [] => true
      | c :: _ => Text.isSpace c || c == '/' || c == '>'
  | _ => false

/-- The offsets at which a tag of the given name begins in `s`, which begins at the given offset;
`skip` characters belong to the previous find. -/
def tagStarts (name : Text) (offset skip : Nat) : Text → List Nat
  | [] => []
  | c :: rest =>
    match skip with
    | skip + 1 => tagStarts name (offset + 1) skip rest
    | 0 =>
      if startsTag name (c :: rest) then offset :: tagStarts name (offset + 1) name.length rest
      else tagStarts name (offset + 1) 0 rest

/-- The first of the offsets that is not hidden. -/
def firstVisible (src : Source) : List Nat → State → Option Nat × State
  | [], st => (none, st)
  | o :: os, st =>
    match isHidden src o st with
    | (true, st) => firstVisible src os st
    | (false, st) => (some o, st)

/-- A list of pairs with, for each key, only the last value. -/
def lastValues (pairs : List (Text × Text)) : List (Text × Text) := Document.mergeAttributes pairs

/-- Whether two lists of pairs agree as mappings, later pairs overriding earlier ones. -/
def sameMapping (a b : List (Text × Text)) : Bool :=
  let a := lastValues a
  let b := lastValues b
  a.length == b.length && a.all fun (k, v) => b.lookup k == some v

/-- The value of an attribute as it is written. -/
def writtenValue (src : Source) (a : WrittenAttribute) : Text :=
  Text.slice src.text a.value.start a.value.stop

/-- Whether a raw opening tag is the given element's: as rendered, or else with the same
attributes up to letter case, references and whitespace. -/
def agrees (src : Source) (name : Text) (attributes : Attributes) (t : OpenTag) :
    Except OverlongReference Bool :=
  if Text.slice src.text t.start t.stop == renderOpenTag name attributes then .ok true
  else
    match t.attributes.findSome? fun a => Reference.overlong? (writtenValue src a) with
    | some reference => .error reference
    | none =>
      .ok (sameMapping
        (attributes.map fun (k, v) => (Text.lower k, Text.squash v.text))
        (t.attributes.map fun a =>
          (Text.lower a.name, Text.squash (Reference.decode (writtenValue src a)))))

/-- The next opening tag of the given element. A `strict` request fails when there is none. -/
def locateTag (src : Source) (name : Text) (attributes : Attributes) (strict : Bool) (st : State) :
    Except LocateError (Option Located) × State :=
  let starts := tagStarts name st.cursor 0 (src.text.drop st.cursor)
  match firstVisible src starts st with
  | (some o, st) =>
    let t := OpenTag.scan src.text o (o + 1 + name.length)
    match agrees src name attributes t with
    | .error reference => (.error (.overlong reference), st)
    | .ok same =>
      let st :=
        if same then st
        else st.note ("opening tag at ".toList ++ Text.ofNat o ++ " differs from parsed <".toList ++
          name ++ ">; using it anyway".toList)
      (.ok (some (.tag t)), { st with cursor := t.stop })
  | (none, st) =>
    if strict then (.error (.notFound (['<'] ++ name ++ ['>']) st.cursor), st)
    else
      (.ok none, st.note ("no opening tag found for <".toList ++ name ++ "> after ".toList ++
        Text.ofNat st.cursor))

/-! ## Texts -/

/-- Whether a piece of source decodes to the wanted words. -/
def saysWanted (wanted piece : Text) : Except OverlongReference Bool :=
  match Reference.overlong? piece with
  | some reference => .error reference
  | none => .ok (Text.squash (Reference.decode piece) == wanted)

/-- The first of the places that is not hidden and decodes to the wanted words; if there is none,
the first that is not hidden. -/
def bestPlace (src : Source) (wanted : Text) :
    Option Span → List Span → State → Except LocateError (Option Span) × State
  | fallback, [], st => (.ok fallback, st)
  | fallback, s :: ss, st =>
    match isHidden src s.start st with
    | (true, st) => bestPlace src wanted fallback ss st
    | (false, st) =>
      match saysWanted wanted (Text.slice src.text s.start s.stop) with
      | .error reference => (.error (.overlong reference), st)
      | .ok true => (.ok (some s), st)
      | .ok false => bestPlace src wanted (fallback.or (some s)) ss st

/-- The best of the places of a pattern in a text that begins at the given offset, found without
looking for places behind it; `skip` characters belong to the previous place. -/
def searchFrom (src : Source) (p : ValuePattern) (wanted : Text) (offset skip : Nat)
    (fallback : Option Span) : Text → State → Except LocateError (Option Span) × State
  | [], st => bestPlace src wanted fallback (p.findAll offset skip []) st
  | c :: rest, st =>
    match skip with
    | skip + 1 => searchFrom src p wanted (offset + 1) skip fallback rest st
    | 0 =>
      match p.matchLength? (c :: rest) with
      | none => searchFrom src p wanted (offset + 1) 0 fallback rest st
      | some n =>
        match isHidden src offset st with
        | (true, st) => searchFrom src p wanted (offset + 1) (n - 1) fallback rest st
        | (false, st) =>
          let s : Span := ⟨offset, offset + n⟩
          match saysWanted wanted (Text.slice src.text s.start s.stop) with
          | .error reference => (.error (.overlong reference), st)
          | .ok true => (.ok (some s), st)
          | .ok false => searchFrom src p wanted (offset + 1) (n - 1) (fallback.or (some s)) rest st

/-- Stopping early does not change which place is the best. -/
theorem searchFrom_eq_bestPlace (src : Source) (p : ValuePattern) (wanted : Text)
    (offset skip : Nat) (fallback : Option Span) (s : Text) (st : State) :
    searchFrom src p wanted offset skip fallback s st =
      bestPlace src wanted fallback (p.findAll offset skip s) st := by
  induction s generalizing offset skip fallback st with
  | nil => rfl
  | cons c rest ih =>
    cases skip with
    | succ skip => exact ih (offset + 1) skip fallback st
    | zero =>
      simp only [searchFrom, ValuePattern.findAll]
      cases p.matchLength? (c :: rest) with
      | none => exact ih (offset + 1) 0 fallback st
      | some n =>
        simp only [bestPlace]
        split
        · exact ih ..
        · split
          · rfl
          · rfl
          · exact ih ..

/-- Where a decoded value is written within `[start, stop)`. -/
def search (src : Source) (value : Text) (start stop : Nat) (st : State) :
    Except LocateError (Option Span) × State :=
  searchFrom src (ValuePattern.ofValue value) (Text.squash value) start 0 none
    ((src.text.take stop).drop start) st

/-- The next place of a text: right at the cursor, behind the end tags and hidden constructs
there, or else wherever the value is written later. A blank text that is not next is passed over.
A `strict` request fails when the text is nowhere. -/
def locateText (src : Source) (value : Text) (strict : Bool) (st : State) :
    Except LocateError (Option Located) × State :=
  let here := src.text.drop st.cursor
  let start := if Text.startsWith value here then st.cursor else st.cursor + Hidden.gapLength here
  if Text.startsWith value (src.text.drop start) then
    let s : Span := ⟨start, start + value.length⟩
    (.ok (some (.text s)), { st with cursor := s.stop })
  else if Text.isBlank value then (.ok none, st)
  else
    match search src value st.cursor src.text.length st with
    | (.error e, st) => (.error e, st)
    | (.ok (some s), st) => (.ok (some (.text s)), { st with cursor := s.stop })
    | (.ok none, st) =>
      if strict then (.error (.notFound value st.cursor), st)
      else
        (.ok none, st.note ("text ".toList ++ Text.quoted (value.take 40) ++
          " not found after ".toList ++ Text.ofNat st.cursor))

/-! ## Nodes in document order -/

/-- The next place of a node; strings other than texts have none. -/
def locate (src : Source) (strict : Bool) (st : State) :
    Node → Except LocateError (Option Located) × State
  | .element name attributes _ => locateTag src name attributes strict st
  | .leaf .text s => locateText src s strict st
  | .leaf _ _ => (.ok none, st)

/-- Passes the nodes up to the target and returns its place. When the nodes run out, `missing` is
the error. -/
def advance (src : Source) (target : Nat) (missing : Nat → LocateError) :
    List (Nat × Node) → State → Except LocateError Located × State
  | [], st => (.error (missing st.cursor), { st with remaining := [] })
  | (i, node) :: rest, st =>
    let strict := i == target
    match locate src strict { st with remaining := rest } node with
    | (.error e, st) => (.error e, st)
    | (.ok place, st) =>
      let st := { st with last := some (i, place) }
      match strict, place with
      | true, some l => (.ok l, st)
      | _, _ => advance src target missing rest st

/-- The error for a candidate whose node is not among the remaining ones. -/
def missing (c : Candidate) (offset : Nat) : LocateError :=
  match c.attributeName with
  | none => .notFound c.value offset
  | some _ => .elementPassed c.markup offset

/-- The place of a candidate's node, known already if it was the last one passed. -/
def seek (src : Source) (c : Candidate) (st : State) : Except LocateError Located × State :=
  match st.last with
  | some (i, some l) =>
    if i = c.node then (.ok l, st) else advance src c.node (missing c) st.remaining st
  | _ => advance src c.node (missing c) st.remaining st

/-- The range of an attribute's value inside its tag. An attribute that the tag does not show, or
shows empty, is searched by its value. -/
def locateAttribute (src : Source) (c : Candidate) (t : OpenTag) (st : State) :
    Except LocateError Span × State :=
  let found := t.attribute? (c.attributeName.getD [])
  match found.filter fun a => a.value.start != a.value.stop with
  | some a => (.ok a.value, st)
  | none =>
    match search src c.value t.start t.stop st with
    | (.error e, st) => (.error e, st)
    | (.ok (some s), st) => (.ok s, st)
    | (.ok none, st) => (.error (.notFound c.value t.start), st)

/-- The evidence in a located range; none means that only template expressions are there. -/
def evidence (src : Source) (c : Candidate) (s : Span) (scope : Option Text) (st : State) :
    Except LocateError (Option EvidenceSpan) × State :=
  match Evidence.range? src.text src.mask s.start s.stop with
  | .error e => (.error (.evidence e), st)
  | .ok (some e) => (.ok (some ⟨e.start, e.stop, scope⟩), st)
  | .ok none =>
    (.ok none, st.note ("candidate ".toList ++ Text.quoted c.value ++
      " is template expression only".toList))

/-- The evidence of a candidate. Candidates are to be resolved in document order. -/
def resolve (src : Source) (c : Candidate) (st : State) :
    Except LocateError (Option EvidenceSpan) × State :=
  match seek src c st with
  | (.error e, st) => (.error e, st)
  | (.ok place, st) =>
    match c.kind, place with
    | .attribute, .tag t =>
      match locateAttribute src c t st with
      | (.error e, st) => (.error e, st)
      | (.ok s, st) => evidence src c s (some (Text.slice src.text t.start t.stop)) st
    | .attribute, .text _ => (.error (.notFound c.markup st.cursor), st)
    | .text, .text s => evidence src c s none st
    | .text, .tag _ => (.error (.notFound c.value st.cursor), st)

end Resolver

end Untranslated
