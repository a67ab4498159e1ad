import Untranslated.Proofs.Walk

/-!
# The walk as a recursion over the tree

`Document.candidates` keeps a stack of the nodes still to visit. What it yields can be said without
one:

* `Node.contributed` is the recursion: an ignored element contributes nothing, any other one its
  wanted attributes and then what its children contribute, a text itself if it has an owner. A stack
  yields what its nodes contribute, one after the other (`drain_eq_flatMap`).
* `Seen` are the nodes that stand neither in an ignored element nor are one, each with its owner and
  its place. The candidates of such a node are its own ones (`filter_contributedAll`), and there are
  no others (`seen_of_mem_contributedAll`).
* `candidates_recursive` puts these together.
-/

namespace Untranslated

namespace Node

/-- The candidates that a node yields by itself: an element one for each wanted attribute, in source
order, and a text one, owned by the element it stands in. At the top level a text has no owner and
yields none. -/
def own (wanted : List Text) (owner : Option (Text × Attributes)) (place : Nat) :
    Node → List Candidate
  | .element name attributes _ => attributes.filterMap fun (k, v) =>
    if Text.lower k ∈ wanted then
      some ⟨.attribute, v.text, renderOpenTag name attributes, name, some k, place⟩
    else none
  | .leaf .text s => owner.toList.map fun (name, attributes) =>
    ⟨.text, s, renderOpenTag name attributes, name, none, place⟩
  | .leaf _ _ => []

mutual

/-- The candidates that a node contributes to a document. -/
def contributed (ignored wanted : List Text) (owner : Option (Text × Attributes)) (place : Nat) :
    Node → List Candidate
  | .element name attributes children =>
    if Text.lower name ∈ ignored then []
    else
      own wanted owner place (.element name attributes children) ++
        contributedAll ignored wanted (some (name, attributes)) (place + 1) children
  | .leaf kind s => own wanted owner place (.leaf kind s)

/-- The candidates that a list of siblings contributes, the first of which has the given place. -/
def contributedAll (ignored wanted : List Text) (owner : Option (Text × Attributes)) (place : Nat) :
    List Node → List Candidate
  | [] => []
  | n :: ns =>
    contributed ignored wanted owner place n ++
      contributedAll ignored wanted owner (place + n.size) ns

end

theorem node_of_mem_own {wanted : List Text} {owner : Option (Text × Attributes)} {place : Nat}
    {n : Node} {c : Candidate} (h : c ∈ own wanted owner place n) : c.node = place := by
  unfold own at h
  split at h
  · obtain ⟨⟨k, v⟩, -, hc⟩ := List.mem_filterMap.mp h
    obtain ⟨-, hc⟩ := Option.ite_none_right_eq_some.mp hc
    rw [← Option.some.inj hc]
  · obtain ⟨o, -, rfl⟩ := List.mem_map.mp h
    rfl
  · cases h

end Node

namespace Document

open Node (own contributed contributedAll)

/-! ## The stack and the recursion -/

theorem flatMap_visits (ignored wanted : List Text) (owner : Option (Text × Attributes))
    (place : Nat) (ns : List Node) :
    (visits owner place ns).flatMap (fun v => contributed ignored wanted v.owner v.place v.node) =
      contributedAll ignored wanted owner place ns := by
  induction ns generalizing place with
  | nil => rfl
  | cons n ns ih => rw [visits, List.flatMap_cons, ih, contributedAll]

theorem own_element (wanted : List Text) (owner : Option (Text × Attributes)) (place : Nat)
    (name : Text) (attributes : Attributes) (children : List Node) :
    own wanted owner place (.element name attributes children) =
      attributeCandidates wanted place name attributes := by
  simp only [own, attributeCandidates, ← List.filterMap_eq_map, List.filterMap_filter]
  simp

theorem own_leaf (wanted : List Text) (owner : Option (Text × Attributes)) (place : Nat)
    (kind : LeafKind) (s : Text) :
    own wanted owner place (.leaf kind s) =
      if kind = .text then textCandidates owner place s else [] := by
  cases kind <;> cases owner <;> rfl

/-- What is still to be yielded is what the nodes on the stack contribute, from the top down. -/
theorem drain_eq_flatMap (ignored wanted : List Text) (stack : List Visit) :
    drain ignored wanted stack =
      stack.flatMap fun v => contributed ignored wanted v.owner v.place v.node := by
  induction stack using drain.induct ignored with
  | case1 => rw [drain, List.flatMap_nil]
  | case2 owner place kind s rest ih => rw [drain, List.flatMap_cons, ih, contributed, own_leaf]
  | case3 owner place name attributes children rest hignored ih =>
    rw [drain, if_pos hignored, List.flatMap_cons, ih, contributed, if_pos hignored, List.nil_append]
  | case4 owner place name attributes children rest hignored ih =>
    rw [drain, if_neg hignored, ih, List.flatMap_append, flatMap_visits, List.flatMap_cons,
      contributed, if_neg hignored, own_element, List.append_assoc]

theorem drain_visits (ignored wanted : List Text) (owner : Option (Text × Attributes)) (place : Nat)
    (ns : List Node) :
    drain ignored wanted (visits owner place ns) =
      contributedAll ignored wanted owner place ns := by
  rw [drain_eq_flatMap, flatMap_visits]

theorem node_of_mem_contributedAll {ignored wanted : List Text}
    {owner : Option (Text × Attributes)} {place : Nat} {ns : List Node} {c : Candidate}
    (h : c ∈ contributedAll ignored wanted owner place ns) :
    place ≤ c.node ∧ c.node < place + Node.sizeList ns := by
  rw [← drain_visits] at h
  obtain ⟨v, hv, hle, hlt⟩ := node_of_mem_drain h
  have := mem_visits hv
  omega

/-! ## Nodes that are seen -/

/-- A node of a list of siblings, or inside one of them, that neither is an ignored element nor
stands in one; with the element it stands in and its place. -/
inductive Seen (ignored : List Text) :
    Option (Text × Attributes) → Nat → List Node → Visit → Prop where
  | leaf {owner : Option (Text × Attributes)} {place : Nat} {kind : LeafKind} {s : Text}
    {ns : List Node} : Seen ignored owner place (.leaf kind s :: ns) ⟨owner, place, .leaf kind s⟩
  | element {owner : Option (Text × Attributes)} {place : Nat} {name : Text}
    {attributes : Attributes} {children ns : List Node} (h : Text.lower name ∉ ignored) :
    Seen ignored owner place (.element name attributes children :: ns)
      ⟨owner, place, .element name attributes children⟩
  | inside {owner : Option (Text × Attributes)} {place : Nat} {name : Text}
    {attributes : Attributes} {children ns : List Node} {v : Visit} (h : Text.lower name ∉ ignored)
    (hv : Seen ignored (some (name, attributes)) (place + 1) children v) :
    Seen ignored owner place (.element name attributes children :: ns) v
  | later {owner : Option (Text × Attributes)} {place : Nat} {n : Node} {ns : List Node} {v : Visit}
    (hv : Seen ignored owner (place + n.size) ns v) : Seen ignored owner place (n :: ns) v

section
variable {ignored wanted : List Text} {owner : Option (Text × Attributes)} {place : Nat}
  {ns : List Node} {v : Visit}

theorem Seen.bounds (h : Seen ignored owner place ns v) :
    place ≤ v.place ∧ v.place < place + Node.sizeList ns := by
  induction h with
  | leaf | element => simp only [Node.sizeList, Node.size]; omega
  | inside _ _ ih | later _ ih => simp only [Node.sizeList, Node.size] at ih ⊢; omega

/-- The place of a seen node is that in document order. -/
theorem Seen.stands {nodes : List Node} (h : Seen ignored owner place ns v)
    (hnodes : Node.flattenAll ns <+: nodes.drop place) : nodes[v.place]? = some v.node := by
  induction h with
  | leaf | element => exact (stands_of_mem_visits hnodes _ List.mem_cons_self).getElem?
  | @inside owner _ _ _ _ _ _ _ _ ih =>
    exact ih (stands_of_mem_visits hnodes ⟨owner, _, _⟩ List.mem_cons_self).children
  | later _ ih => exact ih (flattenAll_prefix_of_cons hnodes)

/-! ### The candidates of one node -/

theorem filter_own (n : Node) :
    (own wanted owner place n).filter (·.node = place) = own wanted owner place n :=
  List.filter_eq_self.mpr fun _ hc => decide_eq_true (Node.node_of_mem_own hc)

theorem filter_own_of_ne {m : Nat} (n : Node) (h : place ≠ m) :
    (own wanted owner place n).filter (·.node = m) = [] :=
  List.filter_eq_nil_iff.mpr fun _ hc hm =>
    h ((Node.node_of_mem_own hc).symm.trans (of_decide_eq_true hm))

/-- Nodes contribute nothing at places that they do not cover. -/
theorem filter_contributedAll_of_outside {m : Nat} (ns : List Node)
    (h : m < place ∨ place + Node.sizeList ns ≤ m) :
    (contributedAll ignored wanted owner place ns).filter (·.node = m) = [] := by
  refine List.filter_eq_nil_iff.mpr fun c hc hm => ?_
  have hbounds := node_of_mem_contributedAll hc
  have hm : c.node = m := of_decide_eq_true hm
  omega

theorem filter_contributed_of_outside {m : Nat} (n : Node)
    (h : m < place ∨ place + n.size ≤ m) :
    (contributed ignored wanted owner place n).filter (·.node = m) = [] := by
  have hone : contributedAll ignored wanted owner place [n] =
      contributed ignored wanted owner place n := by
    rw [contributedAll, contributedAll, List.append_nil]
  rw [← hone]
  exact filter_contributedAll_of_outside [n] (by simpa [Node.sizeList] using h)

/-- Of what siblings contribute, the part that belongs to a seen node is what the node yields by
itself. -/
theorem Seen.filter_contributedAll (h : Seen ignored owner place ns v) :
    (contributedAll ignored wanted owner place ns).filter (·.node = v.place) =
      own wanted v.owner v.place v.node := by
  induction h with
  | leaf =>
    rw [contributedAll, contributed, List.filter_append, filter_own,
      filter_contributedAll_of_outside _ (by simp [Node.size]), List.append_nil]
  | element h =>
    rw [contributedAll, contributed, if_neg h, List.filter_append, List.filter_append, filter_own,
      filter_contributedAll_of_outside _ (.inl (Nat.lt_succ_self _)),
      filter_contributedAll_of_outside _ (.inl (Nat.lt_add_of_pos_right (by rw [Node.size]; omega))),
      List.append_nil, List.append_nil]
  | @inside owner place name attributes children ns v h hv ih =>
    have hbounds := hv.bounds
    rw [contributedAll, contributed, if_neg h, List.filter_append, List.filter_append,
      filter_own_of_ne _ (by omega), ih,
      filter_contributedAll_of_outside _ (by rw [Node.size]; omega), List.append_nil, List.nil_append]
  | later hv ih =>
    have hbounds := hv.bounds
    rw [contributedAll, List.filter_append, filter_contributed_of_outside _ (.inr hbounds.1), ih,
      List.nil_append]

end

mutual

theorem seen_of_mem_contributed {ignored wanted : List Text} {owner : Option (Text × Attributes)}
    {place : Nat} {n : Node} {c : Candidate} (h : c ∈ contributed ignored wanted owner place n)
    (ns : List Node) : ∃ v, Seen ignored owner place (n :: ns) v ∧ c.node = v.place := by
  match n with
  | .leaf kind s => exact ⟨_, .leaf, Node.node_of_mem_own h⟩
  | .element name attributes children =>
    rw [contributed] at h
    split at h
    · cases h
    · rename_i hname
      rcases List.mem_append.mp h with h | h
      · exact ⟨_, .element hname, Node.node_of_mem_own h⟩
      · obtain ⟨v, hv, hc⟩ := seen_of_mem_contributedAll h
        exact ⟨v, .inside hname hv, hc⟩

/-- Whatever is contributed belongs to a seen node. -/
theorem seen_of_mem_contributedAll {ignored wanted : List Text} {owner : Option (Text × Attributes)}
    {place : Nat} {ns : List Node} {c : Candidate}
    (h : c ∈ contributedAll ignored wanted owner place ns) :
    ∃ v, Seen ignored owner place ns v ∧ c.node = v.place := by
  match ns with
  | [] => cases h
  | n :: ns =>
    rw [contributedAll] at h
    rcases List.mem_append.mp h with h | h
    · exact seen_of_mem_contributed h ns
    · obtain ⟨v, hv, hc⟩ := seen_of_mem_contributedAll h
      exact ⟨v, .later hv, hc⟩

end

/-- **What a walk yields.** The candidates of a document are what the recursion over its tree
contributes, in document order. For every node that is not ignored, the candidates at its place are
exactly its own ones, each of them once, and there are no candidates at other places. -/
theorem candidates_recursive (d : Document) (ignoredTags attributes : List Text) :
    d.candidates ignoredTags attributes =
      contributedAll (ignoredTags.map Text.lower) (attributes.map Text.lower) none 0 d ∧
    (d.candidates ignoredTags attributes).Pairwise (fun c c' => c.node ≤ c'.node) ∧
    (∀ v, Seen (ignoredTags.map Text.lower) none 0 d v → d.nodes[v.place]? = some v.node ∧
      (d.candidates ignoredTags attributes).filter (fun c => c.node = v.place) =
        own (attributes.map Text.lower) v.owner v.place v.node) ∧
    ∀ c ∈ d.candidates ignoredTags attributes,
      ∃ v, Seen (ignoredTags.map Text.lower) none 0 d v ∧ c.node = v.place := by
  have heq : d.candidates ignoredTags attributes =
      contributedAll (ignoredTags.map Text.lower) (attributes.map Text.lower) none 0 d :=
    drain_visits _ _ none 0 d
  refine ⟨heq, pairwise_candidates d ignoredTags attributes, fun v hv => ⟨?_, ?_⟩, fun c hc => ?_⟩
  · exact hv.stands (by simp [nodes_eq])
  · rw [heq]
    exact hv.filter_contributedAll
  · rw [heq] at hc
    exact seen_of_mem_contributedAll hc

end Document

end Untranslated
