import Untranslated.Html.Tree

/-!
# Candidates

A candidate is a string of a document that may need translation: a text inside an element, or the
value of one of the checked attributes. `Document.candidates` collects them in document order with
an explicit stack of the nodes still to visit; the content of ignored elements is left out.
-/

namespace Untranslated

/-- What part of the markup a candidate comes from. -/
inductive CandidateKind where
  | text
  | attribute
  deriving DecidableEq, Repr, Inhabited

/-- A string that may need translation. -/
structure Candidate where
  kind : CandidateKind
  /-- The decoded text or attribute value. -/
  value : Text
  /-- The rendered opening tag of the owning element. -/
  markup : Text
  /-- The name of the owning element. -/
  tag : Text
  /-- The attribute's name, absent for a text. -/
  attributeName : Option Text
  /-- The place in document order of the node that the string belongs to. -/
  node : Nat
  deriving DecidableEq, Repr, Inhabited

namespace Document

/-- A node still to visit: its place in document order and the element it stands in, if any. -/
structure Visit where
  owner : Option (Text × Attributes)
  place : Nat
  node : Node
  deriving Repr, Inhabited

/-- The visits of a list of siblings, the first of which has the given place. -/
def visits (owner : Option (Text × Attributes)) : Nat → List Node → List Visit
  | _, [] => []
  | place, n :: ns => ⟨owner, place, n⟩ :: visits owner (place + n.size) ns

/-- The candidates among the attributes of an element, in source order. -/
def attributeCandidates (wanted : List Text) (place : Nat) (name : Text) (attributes : Attributes) :
    List Candidate :=
  (attributes.filter fun (k, _) => Text.lower k ∈ wanted).map fun (k, v) =>
    ⟨.attribute, v.text, renderOpenTag name attributes, name, some k, place⟩

/-- The candidate that a text makes; at the top level it has no owner and makes none. -/
def textCandidates (owner : Option (Text × Attributes)) (place : Nat) (s : Text) :
    List Candidate :=
  match owner with
  | none => []
  | some (name, attributes) => [⟨.text, s, renderOpenTag name attributes, name, none, place⟩]

/-- How many nodes the visits of a stack amount to. -/
def stackSize : List Visit → Nat
  | [] => 0
  | v :: vs => v.node.size + stackSize vs

theorem stackSize_append (s t : List Visit) : stackSize (s ++ t) = stackSize s + stackSize t := by
  induction s with
  | nil => simp [stackSize]
  | cons v vs ih => simp only [List.cons_append, stackSize, ih]; omega

theorem stackSize_visits (owner : Option (Text × Attributes)) (place : Nat) (ns : List Node) :
    stackSize (visits owner place ns) = Node.sizeList ns := by
  induction ns generalizing place with
  | nil => rfl
  | cons n ns ih => simp only [visits, stackSize, Node.sizeList, ih]

/-- The candidates of the nodes on a stack, top first. Element names in `ignored` and attribute
names in `wanted` are in lower case. -/
def drain (ignored wanted : List Text) (stack : List Visit) : List Candidate :=
  match stack with
  | [] => []
  | ⟨owner, place, .leaf kind s⟩ :: rest =>
    (if kind = .text then textCandidates owner place s else []) ++ drain ignored wanted rest
  | ⟨_, place, .element name attributes children⟩ :: rest =>
    if Text.lower name ∈ ignored then drain ignored wanted rest
    else
      attributeCandidates wanted place name attributes ++
        drain ignored wanted (visits (some (name, attributes)) (place + 1) children ++ rest)
termination_by stackSize stack
decreasing_by
  · simp [stackSize, Node.size]
  · simp only [stackSize, Node.size]; omega
  · rw [stackSize_append, stackSize_visits]
    simp only [stackSize, Node.size]
    omega

/-- The candidates of a document. Tags and attributes are named in any letter case. -/
def candidates (d : Document) (ignoredTags attributes : List Text) : List Candidate :=
  drain (ignoredTags.map Text.lower) (attributes.map Text.lower) (visits none 0 d)

end Document

end Untranslated
