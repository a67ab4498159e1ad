import Untranslated.Yaml.Node
import Untranslated.Yaml.Typed

/-!
# Values of YAML documents

A document holds scalar values and the collections that its nodes denote. As a node may contain
itself, so may a collection: collections are known by their numbers, and `Document.view` shows what
is in one, with a collection inside itself left out.

Of equal keys in a mapping the first one stays and the last value counts, and keys of a merged
mapping count less than the mapping's own. Collections are filled in the order in which they were
met, level by level, so of several faults in a document the one nearest to its root shows first.

What a document means, and which documents are refused, is as in PyYAML 6.0.3 with its safe loader.
-/

namespace Untranslated.Yaml

/-- The number of a collection. -/
abbrev ObjectId := Nat

/-- A place in a document: a scalar value, or a collection. -/
inductive Ref where
  | scalar (v : Value)
  | object (id : ObjectId)
  deriving Repr, Inhabited

/-- A collection. Keys and members are always scalars. -/
inductive Object where
  | list (items : List Ref)
  | map (entries : List (Value × Ref))
  | pair (first second : Ref)
  | set (members : List Value)
  deriving Repr, Inhabited

/-- The value of a YAML text. -/
structure Document where
  objects : Array Object
  root : Ref
  deriving Repr, Inhabited

namespace Document

/-! ## Views -/

/-- The kind of a collection, as far as it can contain itself. -/
def kindOf : Object → CollectionKind
  | .list _ | .set _ => .list
  | .map _ => .map
  | .pair _ _ => .pair

/-- The value at a place, seen from inside the given collections, which are not shown again. The
collections around a place are all different, so their number bounds the depth. -/
def viewFrom (d : Document) : Nat → List ObjectId → Ref → Value
  | _, _, .scalar v => v
  | 0, _, .object _ => .null
  | depth + 1, around, .object id =>
    match d.objects[id]? with
    | none => .null
    | some o =>
      if around.contains id then .elided (kindOf o)
      else
        let inside := viewFrom d depth (id :: around)
        match o with
        | .list items => .list (items.map inside)
        | .map entries => .map (entries.map fun (k, r) => (k, inside r))
        | .pair a b => .pair (inside a) (inside b)
        | .set members => .set members

/-- The value at a place. -/
def view (d : Document) (r : Ref) : Value := d.viewFrom (d.objects.size + 1) [] r

/-- The value at a place, each item of a list being seen on its own. -/
def items (d : Document) (r : Ref) : Value :=
  match r with
  | .scalar v => v
  | .object id =>
    match d.objects[id]? with
    | some (.list items) => .list (items.map d.view)
    | _ => d.view r

/-- The entries of a mapping. -/
def entries? (d : Document) : Ref → Option (List (Value × Ref))
  | .scalar _ => none
  | .object id =>
    match d.objects[id]? with
    | some (.map entries) => some entries
    | _ => none

end Document

/-! ## Building -/

/-- A document whose collections are being filled. -/
structure Builder where
  nodes : Array Node
  /-- The place that each node has become, if it has. -/
  places : Array (Option Ref)
  objects : Array Object
  /-- The collections still to be filled, the last one first, with their nodes. -/
  waiting : List (NodeId × ObjectId)
  deriving Repr, Inhabited

/-- A step of building a document. -/
abbrev Building := StateT Builder (Except YamlError)

namespace Builder

/-- A node. -/
def node (id : NodeId) : Building Node := do
  match (← get).nodes[id]? with
  | some n => return n
  | none => throw .malformed

/-- The entries of a mapping node; no other node has any. -/
def entriesOf (id : NodeId) : Building (List (NodeId × NodeId)) := do
  match (← node id).content with
  | .mapping entries => return entries
  | _ => throw .malformed

/-- Changes a node. -/
def change (id : NodeId) (f : Node → Node) : Building Unit :=
  modify fun b => { b with nodes := b.nodes.modify id f }

/-- A new collection. -/
def allocate (o : Object) : Building ObjectId := do
  let b ← get
  set { b with objects := b.objects.push o }
  return b.objects.size

/-! ### Scalars -/

/-- The text of a scalar node, or of the default of a mapping. -/
def scalarText : Nat → NodeId → Building Text
  | 0, _ => throw (.fault .endless)
  | fuel + 1, id => do
    match (← node id).content with
    | .scalar s => return s
    | .sequence _ => throw .malformed
    | .mapping entries =>
      let nodes := (← get).nodes
      match entries.find? fun (k, _) => (nodes[k]?).any fun n => n.type == .default with
      | some (_, v) => scalarText fuel v
      | none => throw .malformed

/-- The value of a node of a scalar type. -/
def scalar (id : NodeId) : Building Value := do
  let n ← node id
  if !n.type.isScalar then throw .malformed
  else
    let s ← scalarText ((← get).nodes.size + 1) id
    match n.type, n.content with
    | .timestamp, .mapping _ => throw (.fault .momentOfMapping)
    | t, _ => t.scalarValue s

/-- The collection that a node of the given type becomes, still empty. -/
def emptyObject? : NodeType → Option Object
  | .sequence | .pairs => some (.list [])
  | .mapping => some (.map [])
  | .set => some (.set [])
  | _ => none

/-- The place that a node becomes. A collection is filled later. -/
def place (id : NodeId) : Building Ref := do
  match (← get).places[id]?.join with
  | some r => return r
  | none =>
    let r ← match emptyObject? (← node id).type with
      | some o => do
        let object ← allocate o
        modify fun b => { b with waiting := (id, object) :: b.waiting }
        pure (.object object)
      | none => pure (.scalar (← scalar id))
    modify fun b => { b with places := b.places.setIfInBounds id (some r) }
    return r

/-! ### Merging -/

/-- Whether a key merges other mappings. -/
def isMerge (nodes : Array Node) (k : NodeId) : Bool := (nodes[k]?).any fun n => n.type == .merge

/-- A key that is a default becomes a string. -/
def nameDefault (k : NodeId) : Building Unit :=
  change k fun n => if n.type = .default then { n with type := .string } else n

mutual

/-- Replaces the merging keys of a mapping by the entries that they merge, which come before the
mapping's own. -/
def flatten (fuel : Nat) (id : NodeId) : Building Unit :=
  match fuel with
  | 0 => throw .malformed
  | fuel + 1 => flattenFrom fuel id 0 []

/-- The same from the given entry on, `merged` being merged in already. -/
def flattenFrom (fuel : Nat) (id : NodeId) (index : Nat) (merged : List (NodeId × NodeId)) :
    Building Unit :=
  match fuel with
  | 0 => throw .malformed
  | fuel + 1 => do
    let entries ← entriesOf id
    let nodes := (← get).nodes
    let plain := (entries.drop index).takeWhile fun (k, _) => !isMerge nodes k
    plain.forM fun (k, _) => nameDefault k
    let next := index + plain.length
    match entries[next]? with
    | none => change id fun n => { n with content := .mapping (merged ++ entries) }
    | some (_, v) =>
      change id fun n => { n with content := .mapping (entries.eraseIdx next) }
      let more ← match (← node v).content with
        | .mapping _ => do
          flatten fuel v
          entriesOf v
        | .sequence items => mergedItems fuel items
        | .scalar _ => throw .malformed
      flattenFrom fuel id next (merged ++ more)

/-- The entries of the mappings of a sequence, in reverse order of the mappings. -/
def mergedItems (fuel : Nat) (items : List NodeId) : Building (List (NodeId × NodeId)) :=
  match fuel with
  | 0 => throw .malformed
  | fuel + 1 => do
    match items with
    | [] => return []
    | item :: rest =>
      match (← node item).content with
      | .mapping _ =>
        flatten fuel item
        let first ← entriesOf item
        return (← mergedItems fuel rest) ++ first
      | _ => throw .malformed

end

/-- Enough fuel for flattening: between two levels that take away a merging key there are at most as
many others as there are items of sequences. -/
def flattenFuel (nodes : Array Node) : Nat :=
  let count (size : Content → Nat) : Nat := nodes.foldl (fun n node => n + size node.content) 0
  let entries := count fun
    | .mapping entries => entries.length
    | _ => 0
  let items := count fun
    | .sequence items => items.length
    | _ => 0
  (entries + 1) * (items + 4)

/-! ### Collections -/

/-- A key with the number of its node; the spelled-out `.nan` has none, as it is the same for all
nodes. -/
structure Key where
  value : Value
  origin : Option NodeId
  deriving Repr, Inhabited

/-- Whether two keys are the same. What is no number is the same as itself only. -/
def Key.same (a b : Key) : Bool :=
  match a.value, b.value with
  | .float .notANumber, .float .notANumber => a.origin == b.origin
  | v, w => v.sameKey w

/-- The entries of a mapping with one more: the value of an earlier equal key is replaced. -/
def put (entries : List (Key × Ref)) (k : Key) (r : Ref) : List (Key × Ref) :=
  if entries.any fun e => e.1.same k then
    entries.map fun e => if e.1.same k then (e.1, r) else e
  else entries ++ [(k, r)]

/-- The key that a node becomes. Collections are no keys. -/
def key (id : NodeId) : Building Key := do
  match ← place id with
  | .object _ => throw .malformed
  | .scalar v =>
    match (← node id).content with
    | .scalar s => return ⟨v, if isNotANumberText s then none else some id⟩
    | _ => return ⟨v, some id⟩

/-- The entries of a mapping node. -/
def mapEntries (id : NodeId) : Building (List (Value × Ref)) := do
  let _ ← entriesOf id
  flatten (flattenFuel (← get).nodes) id
  let entries ← (← entriesOf id).foldlM (fun done (k, v) => do
    let k ← key k
    return put done k (← place v)) []
  return entries.map fun (k, r) => (k.value, r)

/-- The pair that a mapping node of one entry becomes. -/
def pair (id : NodeId) : Building Ref := do
  match (← node id).content with
  | .mapping [(k, v)] =>
    let first ← place k
    let second ← place v
    return .object (← allocate (.pair first second))
  | _ => throw .malformed

/-- What a node of a collection type holds. The members of a set are in the order of the document, though
a set has no order: as the list of a setting it counts up to order, and only a set inside a list shows
the one that was chosen here. -/
def object (id : NodeId) : Building Object := do
  let n ← node id
  match n.type, n.content with
  | .sequence, .sequence items => return .list (← items.mapM place)
  | .pairs, .sequence items => return .list (← items.mapM pair)
  | .mapping, .mapping _ => return .map (← mapEntries id)
  | .set, .mapping _ => return .set ((← mapEntries id).map (·.1))
  | _, _ => throw .malformed

/-- Fills a collection. -/
def fill (id : NodeId) (o : ObjectId) : Building Unit := do
  let content ← object id
  modify fun b => { b with objects := b.objects.setIfInBounds o content }

/-- Fills the waiting collections and those met on the way, level by level. -/
def fillAll : Nat → Building Unit
  | 0 => return
  | levels + 1 => do
    match (← get).waiting with
    | [] => return
    | waiting =>
      modify fun b => { b with waiting := [] }
      waiting.reverse.forM fun (id, o) => fill id o
      fillAll levels

end Builder

/-- The document of a graph of nodes. -/
def Document.ofGraph (g : Graph) : Except YamlError Document := do
  let build : Building Ref := do
    let root ← Builder.place g.root
    Builder.fillAll (g.nodes.size + 1)
    return root
  let (root, b) ← build.run ⟨g.nodes, g.nodes.map fun _ => none, #[], []⟩
  return ⟨b.objects, root⟩

/-- The document of a YAML text; a text without a document has the value null. -/
def parse (s : Text) : Except YamlError Document := do
  match ← Graph.ofTokens? (tokens s) with
  | none => return ⟨#[], .scalar .null⟩
  | some g => Document.ofGraph g

end Untranslated.Yaml
