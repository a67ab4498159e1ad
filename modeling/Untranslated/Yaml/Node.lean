import Untranslated.Yaml.Lexer
import Untranslated.Yaml.NodeType

/-!
# YAML nodes

Tokens form a graph of scalars, sequences and mappings. An alias is the node that its anchor names,
and since an anchor counts from the beginning of its node on, a node may contain itself. Nodes are
therefore known by their numbers. A text holds at most one document.
-/

namespace Untranslated.Yaml

/-- The number of a node, in the order in which nodes begin. -/
abbrev NodeId := Nat

/-- What a node consists of. -/
inductive Content where
  | scalar (text : Text)
  | sequence (items : List NodeId)
  | mapping (entries : List (NodeId × NodeId))
  deriving DecidableEq, Repr, Inhabited

/-- A node of a YAML document. -/
structure Node where
  type : NodeType
  content : Content
  deriving DecidableEq, Repr, Inhabited

/-- What is left to read, and what has been read. -/
structure NodeReader where
  /-- The tokens that are left. -/
  tokens : List Token
  /-- The nodes so far. -/
  nodes : Array Node
  /-- The nodes that anchors name. -/
  anchors : List (Text × NodeId)
  /-- What handles stand for. -/
  handles : List (Text × Text)
  /-- How many collections are being read, one inside the other. -/
  depth : Nat
  deriving Repr, Inhabited

/-- A step of reading nodes. -/
abbrev Reading := StateT NodeReader (Except YamlError)

namespace NodeReader

/-! ## Tokens -/

/-- The next token. At the place from which on the text cannot be read, its error is raised. -/
def peek : Reading Token := do
  match (← get).tokens with
  | [] => throw .malformed
  | .unreadable e :: _ => throw e
  | t :: _ => return t

/-- Passes the next token. -/
def pass : Reading Unit := modify fun c => { c with tokens := c.tokens.drop 1 }

/-- Passes the next token, which has to be the given one. -/
def expect (t : Token) : Reading Unit := do
  if (← peek) = t then pass else throw .malformed

/-! ## Nodes -/

/-- A new node and its number. -/
def add (n : Node) : Reading NodeId := do
  let c ← get
  set { c with nodes := c.nodes.push n }
  return c.nodes.size

/-- Gives a node its content. -/
def fill (id : NodeId) (content : Content) : Reading NodeId := do
  modify fun c => { c with nodes := c.nodes.modify id fun n => { n with content } }
  return id

/-- An empty scalar. -/
def empty : Reading NodeId := add ⟨.null, .scalar []⟩

/-- The full name of a tag. -/
def fullName (handle : Option Text) (rest : Text) : Reading Text := do
  match handle with
  | none => return rest
  | some h =>
    match (← get).handles.lookup h with
    | some meaning => return meaning ++ rest
    | none => throw .malformed

/-- The anchor and the tag before a node, in either order. -/
def properties : Reading (Option Text × Option Text) := do
  match ← peek with
  | .anchor a =>
    pass
    match ← peek with
    | .tag h r =>
      pass
      return (some a, some (← fullName h r))
    | _ => return (some a, none)
  | .tag h r =>
    pass
    match ← peek with
    | .anchor a =>
      pass
      return (some a, some (← fullName h r))
    | _ => return (none, some (← fullName h r))
  | _ => return (none, none)

/-- The type of a scalar by its tag. A lone exclamation mark says nothing, also of a scalar that is
not plain. -/
def scalarType (tag : Option Text) (plain : Bool) (text : Text) : NodeType :=
  match tag with
  | none => if plain then .implied text else .string
  | some name => if name = ['!'] then .implied text else .ofTag name

/-- The type of a collection by its tag. -/
def collectionType (tag : Option Text) (otherwise : NodeType) : NodeType :=
  match tag with
  | none => otherwise
  | some name => if name = ['!'] then otherwise else .ofTag name

/-- A new node under its anchor. -/
def enter (anchor : Option Text) (n : Node) : Reading NodeId := do
  let id ← add n
  if let some a := anchor then modify fun c => { c with anchors := (a, id) :: c.anchors }
  return id

/-- How deep collections may be nested. -/
def nestingLimit : Nat := 490

/-- Reads the content of a collection, one level deeper. -/
def inside (content : Reading α) : Reading α := do
  let depth := (← get).depth
  if nestingLimit ≤ depth then throw (.fault .endless)
  modify fun c => { c with depth := depth + 1 }
  let a ← content
  modify fun c => { c with depth }
  return a

/-- A node without content: it needs an anchor or a tag. -/
def vacant (anchor tag : Option Text) : Reading NodeId :=
  if anchor.isNone && tag.isNone then throw .malformed
  else enter anchor ⟨scalarType tag true [], .scalar []⟩

mutual

/-- A node. Inside brackets there are no indented collections; after the colon or the question mark
of an indented mapping, a list need not be indented. An anchor names one node only. -/
def node (fuel : Nat) (block indentless : Bool) : Reading NodeId :=
  match fuel with
  | 0 => throw .malformed
  | fuel + 1 => do
    match ← peek with
    | .alias a =>
      pass
      match (← get).anchors.lookup a with
      | some id => return id
      | none => throw .malformed
    | _ =>
      let (anchor, tag) ← properties
      let next ← peek
      let anchors := (← get).anchors
      if anchor.any fun a => (anchors.lookup a).isSome then throw .malformed
      else
        let sequence (items : Reading (List NodeId)) : Reading NodeId := do
          let id ← enter anchor ⟨collectionType tag .sequence, .sequence []⟩
          fill id (.sequence (← inside items))
        let mapping (entries : Reading (List (NodeId × NodeId))) : Reading NodeId := do
          let id ← enter anchor ⟨collectionType tag .mapping, .mapping []⟩
          fill id (.mapping (← inside entries))
        match next with
        | .scalar s plain =>
          pass
          enter anchor ⟨scalarType tag plain s, .scalar s⟩
        | .flowSequenceStart =>
          pass
          sequence (flowItems fuel true)
        | .flowMappingStart =>
          pass
          mapping (flowEntries fuel true)
        | .blockEntry => if indentless then sequence (indentlessItems fuel) else vacant anchor tag
        | .blockSequenceStart =>
          if block then
            pass
            sequence (blockItems fuel)
          else vacant anchor tag
        | .blockMappingStart =>
          if block then
            pass
            mapping (blockEntries fuel)
          else vacant anchor tag
        | _ => vacant anchor tag

/-- The items of an indented list and its end. -/
def blockItems (fuel : Nat) : Reading (List NodeId) :=
  match fuel with
  | 0 => throw .malformed
  | fuel + 1 => do
    match ← peek with
    | .blockEntry =>
      pass
      let item ← match ← peek with
        | .blockEntry | .blockEnd => empty
        | _ => node fuel true false
      return item :: (← blockItems fuel)
    | .blockEnd =>
      pass
      return []
    | _ => throw .malformed

/-- The items of a list that is not indented further than the mapping it stands in. -/
def indentlessItems (fuel : Nat) : Reading (List NodeId) :=
  match fuel with
  | 0 => throw .malformed
  | fuel + 1 => do
    match ← peek with
    | .blockEntry =>
      pass
      let item ← match ← peek with
        | .blockEntry | .key | .value | .blockEnd => empty
        | _ => node fuel true false
      return item :: (← indentlessItems fuel)
    | _ => return []

/-- The entries of an indented mapping and its end. -/
def blockEntries (fuel : Nat) : Reading (List (NodeId × NodeId)) :=
  match fuel with
  | 0 => throw .malformed
  | fuel + 1 => do
    match ← peek with
    | .blockEnd =>
      pass
      return []
    | .key =>
      pass
      let k ← blockPart fuel
      let v ← match ← peek with
        | .value =>
          pass
          blockPart fuel
        | _ => empty
      return (k, v) :: (← blockEntries fuel)
    | _ => throw .malformed

/-- A key or a value of an indented mapping. -/
def blockPart (fuel : Nat) : Reading NodeId :=
  match fuel with
  | 0 => throw .malformed
  | fuel + 1 => do
    match ← peek with
    | .key | .value | .blockEnd => empty
    | _ => node fuel true true

/-- The items of a list in brackets and its closing bracket. -/
def flowItems (fuel : Nat) (first : Bool) : Reading (List NodeId) :=
  match fuel with
  | 0 => throw .malformed
  | fuel + 1 => do
    if (← peek) = .flowSequenceEnd then
      pass
      return []
    else
      if !first then expect .flowEntry
      match ← peek with
      | .key =>
        pass
        let id ← add ⟨.mapping, .mapping []⟩
        let entry ← inside do
          let k ← flowPart fuel .flowSequenceEnd
          return (k, ← flowValue fuel .flowSequenceEnd)
        let item ← fill id (.mapping [entry])
        return item :: (← flowItems fuel false)
      | .flowSequenceEnd =>
        pass
        return []
      | _ =>
        let item ← node fuel false false
        return item :: (← flowItems fuel false)

/-- The entries of a mapping in braces and its closing brace. -/
def flowEntries (fuel : Nat) (first : Bool) : Reading (List (NodeId × NodeId)) :=
  match fuel with
  | 0 => throw .malformed
  | fuel + 1 => do
    if (← peek) = .flowMappingEnd then
      pass
      return []
    else
      if !first then expect .flowEntry
      match ← peek with
      | .key =>
        pass
        let k ← flowPart fuel .flowMappingEnd
        let v ← flowValue fuel .flowMappingEnd
        return (k, v) :: (← flowEntries fuel false)
      | .flowMappingEnd =>
        pass
        return []
      | _ =>
        let k ← node fuel false false
        let _ ← peek
        let v ← empty
        return (k, v) :: (← flowEntries fuel false)

/-- A key between brackets, possibly empty. -/
def flowPart (fuel : Nat) (close : Token) : Reading NodeId :=
  match fuel with
  | 0 => throw .malformed
  | fuel + 1 => do
    let t ← peek
    if t = .value || t = .flowEntry || t = close then empty else node fuel false false

/-- A value between brackets behind its colon, possibly missing. -/
def flowValue (fuel : Nat) (close : Token) : Reading NodeId :=
  match fuel with
  | 0 => throw .malformed
  | fuel + 1 => do
    if (← peek) = .value then
      pass
      let t ← peek
      if t = .flowEntry || t = close then empty else node fuel false false
    else empty

end

/-! ## Documents -/

/-- What the handles stand for that need no directive. -/
def standardHandles : List (Text × Text) := [(['!'], ['!']), (['!', '!'], standardTag)]

/-- The directives before a document: at most one version, whose major number is one, and at most
one meaning for each handle. -/
def directives : Nat → Option Nat → List (Text × Text) → Reading Unit
  | 0, _, _ => throw .malformed
  | fuel + 1, version, handles => do
    match ← peek with
    | .version major _ =>
      pass
      if version.isSome || major != 1 then throw .malformed
      else directives fuel (some major) handles
    | .handle name meaning =>
      pass
      if (handles.lookup name).isSome then throw .malformed
      else directives fuel version ((name, meaning) :: handles)
    | .directive =>
      pass
      directives fuel version handles
    | _ => modify fun c => { c with handles := handles ++ standardHandles }

/-- Passes the marks of a document's end. -/
def documentEnds : Nat → Reading Unit
  | 0 => throw .malformed
  | fuel + 1 => do
    if (← peek) = .documentEnd then
      pass
      documentEnds fuel

/-- The content of a document behind its mark. -/
def content (fuel : Nat) : Reading NodeId := do
  let t ← peek
  if t.isDirective || t = .documentStart || t = .documentEnd || t = .streamEnd then empty
  else node fuel true false

/-- The root node of the only document, if there is a document. -/
def document (fuel : Nat) : Reading (Option NodeId) := do
  let first ← peek
  if first = .streamEnd then return none
  else
    let root ← if first.isDirective || first = .documentStart then do
        directives fuel none []
        expect .documentStart
        content fuel
      else node fuel true false
    documentEnds fuel
    if (← peek) = .streamEnd then return some root
    else
      -- Another document, which is one too many, is read up to its beginning.
      directives fuel none []
      let _ ← peek
      throw .malformed

end NodeReader

/-- The nodes of a document and its root. -/
structure Graph where
  nodes : Array Node
  root : NodeId
  deriving Repr, Inhabited

/-- The graph of the document that the tokens form, if there is a document. -/
def Graph.ofTokens? (ts : List Token) : Except YamlError (Option Graph) := do
  let fuel := 4 * ts.length + 4
  let (root, c) ← (NodeReader.document fuel).run ⟨ts, #[], [], NodeReader.standardHandles, 0⟩
  return root.map fun id => ⟨c.nodes, id⟩

end Untranslated.Yaml
