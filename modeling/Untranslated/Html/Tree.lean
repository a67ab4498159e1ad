import Untranslated.Html.Event

/-!
# Document trees

The events of a markup text build a tree of elements and strings. Building is tolerant: an end tag
closes the innermost open element of its name together with everything opened since, one that fits
no open element is skipped, and the end of the text closes what is still open. Void elements close
at once, and so does every element written `<x/>`. This is how Beautiful Soup 4.15.0 builds its tree.
-/

namespace Untranslated

/-- An attribute value: a text, or a list of words for an attribute that holds several. -/
inductive AttributeValue where
  | single (s : Text)
  | several (words : List Text)
  deriving DecidableEq, Repr, Inhabited

/-- A value as one text, several words with blanks between them. -/
def AttributeValue.text : AttributeValue → Text
  | .single s => s
  | .several ws => Text.join [' '] ws

/-- Attributes of an element, in the order of their first occurrence. -/
abbrev Attributes := List (Text × AttributeValue)

/-- A node of a document. -/
inductive Node where
  | element (name : Text) (attributes : Attributes) (children : List Node)
  | leaf (kind : LeafKind) (s : Text)
  deriving Repr, Inhabited

/-- The content of a document, the list of its top-level nodes. -/
abbrev Document := List Node

/-- An opening tag with quoted and encoded attribute values. -/
def renderOpenTag (name : Text) (attributes : Attributes) : Text :=
  '<' :: name ++ attributes.flatMap (fun (k, v) =>
    ' ' :: k ++ ['=', '"'] ++ Reference.encode v.text ++ ['"']) ++ ['>']

namespace Node

mutual

/-- How many nodes a node consists of, itself included. -/
def size : Node → Nat
  | .element _ _ children => 1 + sizeList children
  | .leaf _ _ => 1

/-- How many nodes a list of nodes consists of. -/
def sizeList : List Node → Nat
  | [] => 0
  | n :: ns => size n + sizeList ns

end

mutual

/-- A node and all nodes inside it in document order, each with its depth. -/
def listing (depth : Nat) : Node → List (Nat × Node)
  | .element name attributes children =>
    (depth, .element name attributes children) :: listingAll (depth + 1) children
  | .leaf kind s => [(depth, .leaf kind s)]

/-- The nodes of a list in document order, each with its depth. -/
def listingAll (depth : Nat) : List Node → List (Nat × Node)
  | [] => []
  | n :: ns => listing depth n ++ listingAll depth ns

end

end Node

namespace Document

/-! ## Building -/

/-- Elements that have no content. -/
def voidElements : List Text :=
  ["area", "base", "br", "col", "embed", "hr", "img", "input", "keygen", "link", "menuitem", "meta",
   "param", "source", "track", "wbr", "basefont", "bgsound", "command", "frame", "image", "isindex",
   "nextid", "spacer"].map String.toList

/-- Elements inside which whitespace is kept as it is. -/
def preformatted : List Text := ["pre".toList, "textarea".toList]

/-- An element that is still open, its children so far in reverse. -/
structure Frame where
  name : Text
  attributes : Attributes
  children : List Node
  deriving Repr, Inhabited

/-- A document under construction. -/
structure Builder where
  /-- The open elements, innermost first. -/
  frames : List Frame
  /-- The finished top-level nodes in reverse. -/
  top : List Node
  /-- The text read since the last tag, if any. -/
  pending : Option Text
  /-- Void elements whose explicit end tag is still to be skipped. -/
  closedVoids : List Text
  deriving Repr, Inhabited

/-- A builder that has read nothing. -/
def Builder.start : Builder := ⟨[], [], none, []⟩

/-- Whether every character is a blank, tab, line feed, form feed or carriage return. -/
def isPlainSpace (s : Text) : Bool :=
  s.all fun c => c == ' ' || c == '\n' || c == '\t' || c == '\x0c' || c == '\r'

/-- A string that is nothing but space shrinks to one line feed if it holds one, else to one
blank. -/
def shrinkSpace (s : Text) : Text :=
  if isPlainSpace s then (if '\n' ∈ s then ['\n'] else [' ']) else s

/-- The attributes of a tag: of equal names the last value counts, at the first one's place. -/
def mergeAttributes (pairs : List (Text × Text)) : List (Text × Text) :=
  pairs.foldl (fun done (k, v) =>
    if done.any (fun p => p.1 == k) then done.map fun p => if p.1 == k then (k, v) else p
    else done ++ [(k, v)]) []

/-- Attribute values, those of the given names split into words. -/
def splitValues (severalValued : List Text) (pairs : List (Text × Text)) : Attributes :=
  pairs.map fun (k, v) =>
    (k, if k ∈ severalValued then .several (Text.words v) else .single v)

namespace Builder

/-- A finished node goes into the innermost open element. -/
def add (b : Builder) (n : Node) : Builder :=
  match b.frames with
  | [] => { b with top := n :: b.top }
  | f :: fs => { b with frames := { f with children := n :: f.children } :: fs }

/-- A string of the document. -/
def addLeaf (b : Builder) (kind : LeafKind) (s : Text) : Builder :=
  let kept := b.frames.any fun f => f.name ∈ preformatted
  b.add (.leaf kind (if kept then s else shrinkSpace s))

/-- The text read so far becomes a node. -/
def flush (b : Builder) : Builder :=
  match b.pending with
  | none => b
  | some s => { b with pending := none }.addLeaf .text s

/-- The innermost open element is finished. -/
def pop (b : Builder) : Builder :=
  match b.frames with
  | [] => b
  | f :: fs => { b with frames := fs }.add (.element f.name f.attributes f.children.reverse)

/-- An element is opened. -/
def push (b : Builder) (name : Text) (attributes : Attributes) : Builder :=
  { b with frames := ⟨name, attributes, []⟩ :: b.frames }

/-- As many open elements as there are in `frames` are finished, up to one of the given name. -/
def popThrough (name : Text) : List Frame → Builder → Builder
  | [], b => b
  | f :: fs, b => if f.name = name then b.pop else popThrough name fs b.pop

/-- The innermost open element of the given name is closed, if there is one. -/
def close (b : Builder) (name : Text) : Builder :=
  if b.frames.any fun f => f.name = name then popThrough name b.frames b else b

/-- One event. A void element that was opened by a plain tag leaves an end tag of its name to be
skipped. An element written `<x/>` neither leaves one nor takes one up: in `<br>a<br/>b` the text `b` is
in neither element. -/
def event (severalValued : List Text) (b : Builder) : Event → Builder
  | .text s => { b with pending := some (b.pending.getD [] ++ s) }
  | .leaf kind s => b.flush.addLeaf kind s
  | .startTag name pairs =>
    let b := b.flush.push name (splitValues severalValued (mergeAttributes pairs))
    if name ∈ voidElements then { b.pop with closedVoids := name :: b.closedVoids } else b
  | .selfClosed name pairs =>
    (b.flush.push name (splitValues severalValued (mergeAttributes pairs))).pop
  | .endTag name =>
    if name ∈ b.closedVoids then { b with closedVoids := b.closedVoids.erase name }
    else b.flush.close name

/-- Everything still open is closed. -/
def finish (b : Builder) : Document :=
  let b := b.flush
  (b.frames.foldl (fun b _ => b.pop) b).top.reverse

end Builder

/-- The document that a sequence of events builds. -/
def ofEvents (severalValued : List Text) (events : List Event) : Document :=
  (events.foldl (Builder.event severalValued) Builder.start).finish

/-- The document of a markup text. Values of the attributes named in `severalValued` are split
into words. -/
def parse (severalValued : List Text) (text : Text) : Except MarkupError Document :=
  (Event.read text).map (ofEvents severalValued)

/-- All nodes of a document in document order, each with its depth. -/
def listing (d : Document) : List (Nat × Node) := Node.listingAll 0 d

/-- All nodes of a document in document order. -/
def nodes (d : Document) : List Node := d.listing.map (·.2)

end Document

end Untranslated
