import Untranslated.Candidate

/-!
# The walk over a document

`Document.candidates` visits the nodes with an explicit stack. The lemmas here say what it yields:

* every candidate belongs to the node at its place in document order (`mem_candidates`), and candidates
  come in that order (`precedes_candidates`);
* fewer attributes and more ignored elements only leave candidates out (`filter_candidates`), and
  texts are yielded whatever the attributes are (`mem_candidates_nil`);
* it does not matter in which order attributes and elements are named (`candidates_congr`).
-/

namespace Untranslated

namespace Node

/-- A node and all nodes inside it in document order. -/
def flatten (n : Node) : List Node := (n.listing 0).map (·.2)

/-- All nodes of a list in document order. -/
def flattenAll (ns : List Node) : List Node := (listingAll 0 ns).map (·.2)

mutual

theorem map_listing (depth : Nat) (n : Node) : (n.listing depth).map (·.2) = n.flatten := by
  match n with
  | .element name attributes children =>
    rw [flatten, listing, listing, List.map_cons, List.map_cons, map_listingAll (depth + 1) children,
      map_listingAll (0 + 1) children]
  | .leaf kind s => rfl

theorem map_listingAll (depth : Nat) (ns : List Node) :
    (listingAll depth ns).map (·.2) = flattenAll ns := by
  match ns with
  | [] => rfl
  | n :: ns =>
    rw [flattenAll, listingAll, listingAll, List.map_append, List.map_append, map_listing depth n,
      map_listing 0 n, map_listingAll depth ns, map_listingAll 0 ns]

end

@[simp] theorem flatten_element (name : Text) (attributes : Attributes) (children : List Node) :
    (element name attributes children).flatten =
      element name attributes children :: flattenAll children := by
  simp only [flatten, listing, List.map_cons, map_listingAll]

@[simp] theorem flatten_leaf (kind : LeafKind) (s : Text) : (leaf kind s).flatten = [leaf kind s] :=
  rfl

@[simp] theorem flattenAll_nil : flattenAll [] = [] := rfl

@[simp] theorem flattenAll_cons (n : Node) (ns : List Node) :
    flattenAll (n :: ns) = n.flatten ++ flattenAll ns := by
  simp only [flattenAll, listingAll, List.map_append, map_listing]

mutual

@[simp] theorem length_flatten (n : Node) : n.flatten.length = n.size := by
  match n with
  | .element name attributes children =>
    simp only [flatten_element, List.length_cons, length_flattenAll children, size]
    omega
  | .leaf kind s => rfl

@[simp] theorem length_flattenAll (ns : List Node) : (flattenAll ns).length = sizeList ns := by
  match ns with
  | [] => rfl
  | n :: ns =>
    simp only [flattenAll_cons, List.length_append, length_flatten n, length_flattenAll ns, sizeList]

end

/-- A node comes before the nodes inside it. -/
theorem head?_flatten (n : Node) : n.flatten.head? = some n := by
  cases n with
  | element name attributes children => simp
  | leaf kind s => rfl

end Node

/-- The candidate is taken from the node. -/
def Candidate.From (c : Candidate) : Node → Prop
  | .element name attributes _ =>
    c.kind = .attribute ∧ c.tag = name ∧
      ∃ k v, (k, v) ∈ attributes ∧ c.attributeName = some k ∧ c.value = v.text
  | .leaf kind s => kind = .text ∧ c.kind = .text ∧ c.attributeName = none ∧ c.value = s

/-- The candidate comes before the other one in document order. Only attributes share a node. -/
def Candidate.Precedes (c c' : Candidate) : Prop :=
  c.node < c'.node ∨ c.node = c'.node ∧ c.kind = .attribute ∧ c'.kind = .attribute

theorem Candidate.Precedes.le {c c' : Candidate} (h : c.Precedes c') : c.node ≤ c'.node := by
  rcases h with h | h
  · exact Nat.le_of_lt h
  · exact Nat.le_of_eq h.1

namespace Document

theorem nodes_eq (d : Document) : d.nodes = Node.flattenAll d := rfl

/-! ## Stacks -/

/-- The visits of a stack cover separate ranges of places, in order. -/
def Spread (stack : List Visit) : Prop :=
  stack.Pairwise fun v w => v.place + v.node.size ≤ w.place

/-- The node to visit stands at its place among the nodes. -/
def Visit.Stands (nodes : List Node) (v : Visit) : Prop := v.node.flatten <+: nodes.drop v.place

theorem mem_visits {owner : Option (Text × Attributes)} {place : Nat} {ns : List Node} {v : Visit}
    (h : v ∈ visits owner place ns) :
    place ≤ v.place ∧ v.place + v.node.size ≤ place + Node.sizeList ns := by
  induction ns generalizing place with
  | nil => simp [visits] at h
  | cons n ns ih =>
    rcases List.mem_cons.mp h with rfl | h
    · simp only [Node.sizeList]
      omega
    · have := ih h
      simp only [Node.sizeList]
      omega

theorem spread_visits (owner : Option (Text × Attributes)) (place : Nat) (ns : List Node) :
    Spread (visits owner place ns) := by
  induction ns generalizing place with
  | nil => exact List.Pairwise.nil
  | cons n ns ih => exact List.pairwise_cons.mpr ⟨fun w hw => (mem_visits hw).1, ih (place + n.size)⟩

/-- Behind a node of a list of siblings stand the others. -/
theorem flattenAll_prefix_of_cons {nodes : List Node} {place : Nat} {n : Node} {ns : List Node}
    (h : Node.flattenAll (n :: ns) <+: nodes.drop place) :
    Node.flattenAll ns <+: nodes.drop (place + n.size) := by
  obtain ⟨after, hafter⟩ := h
  refine ⟨after, ?_⟩
  rw [← List.drop_drop, ← hafter, Node.flattenAll_cons, List.append_assoc,
    List.drop_append_of_le_length (by simp)]
  simp [List.drop_of_length_le]

theorem stands_of_mem_visits {nodes : List Node} {owner : Option (Text × Attributes)} {place : Nat}
    {ns : List Node} (h : Node.flattenAll ns <+: nodes.drop place) :
    ∀ v ∈ visits owner place ns, v.Stands nodes := by
  induction ns generalizing place with
  | nil => simp [visits]
  | cons n ns ih =>
    intro v hv
    rcases List.mem_cons.mp hv with rfl | hv
    · rw [Node.flattenAll_cons] at h
      exact (List.prefix_append _ _).trans h
    · exact ih (flattenAll_prefix_of_cons h) v hv

/-- The stack that replaces an element by its children covers places behind the element. -/
theorem Spread.children {owner : Option (Text × Attributes)} {place : Nat} {name : Text}
    {attributes : Attributes} {children : List Node} {rest : List Visit}
    (h : Spread (⟨owner, place, .element name attributes children⟩ :: rest)) :
    Spread (visits (some (name, attributes)) (place + 1) children ++ rest) ∧
      ∀ w ∈ visits (some (name, attributes)) (place + 1) children ++ rest, place < w.place := by
  obtain ⟨hfirst, hrest⟩ := List.pairwise_cons.mp h
  simp only [Node.size] at hfirst
  refine ⟨List.pairwise_append.mpr ⟨spread_visits .., hrest, fun v hv w hw => ?_⟩, fun w hw => ?_⟩
  · have := mem_visits hv
    have := hfirst w hw
    omega
  · rcases List.mem_append.mp hw with hw | hw
    · have := mem_visits hw
      omega
    · have := hfirst w hw
      omega

/-! ## What a stack yields -/

theorem drain_append (ignored wanted : List Text) (s t : List Visit) :
    drain ignored wanted (s ++ t) = drain ignored wanted s ++ drain ignored wanted t := by
  induction s using drain.induct ignored with
  | case1 => simp [drain]
  | case2 owner place kind s rest ih => simp only [List.cons_append, drain, ih, List.append_assoc]
  | case3 owner place name attributes children rest hignored ih =>
    simp only [List.cons_append, drain, if_pos hignored, ih]
  | case4 owner place name attributes children rest hignored ih =>
    simp only [List.cons_append, drain, if_neg hignored, ← List.append_assoc, ih]

theorem mem_attributeCandidates {wanted : List Text} {place : Nat} {name : Text}
    {attributes : Attributes} {c : Candidate} :
    c ∈ attributeCandidates wanted place name attributes ↔
      ∃ k v, (k, v) ∈ attributes ∧ Text.lower k ∈ wanted ∧
        c = ⟨.attribute, v.text, renderOpenTag name attributes, name, some k, place⟩ := by
  simp only [attributeCandidates, List.mem_map, List.mem_filter, decide_eq_true_eq, Prod.exists]
  constructor
  · rintro ⟨k, v, ⟨hmem, hwanted⟩, rfl⟩
    exact ⟨k, v, hmem, hwanted, rfl⟩
  · rintro ⟨k, v, hmem, hwanted, rfl⟩
    exact ⟨k, v, ⟨hmem, hwanted⟩, rfl⟩

theorem node_of_mem_attributeCandidates {wanted : List Text} {place : Nat} {name : Text}
    {attributes : Attributes} {c : Candidate}
    (h : c ∈ attributeCandidates wanted place name attributes) : c.node = place := by
  obtain ⟨k, v, -, -, rfl⟩ := mem_attributeCandidates.mp h
  rfl

theorem mem_textCandidates {owner : Option (Text × Attributes)} {place : Nat} {s : Text}
    {c : Candidate} (h : c ∈ textCandidates owner place s) :
    c.kind = .text ∧ c.value = s ∧ c.attributeName = none ∧ c.node = place := by
  unfold textCandidates at h
  split at h
  · cases h
  · rw [List.mem_singleton] at h
    subst h
    exact ⟨rfl, rfl, rfl, rfl⟩

/-- Candidates of a stack belong to places that the stack covers. -/
theorem node_of_mem_drain {ignored wanted : List Text} {stack : List Visit} {c : Candidate}
    (h : c ∈ drain ignored wanted stack) :
    ∃ v ∈ stack, v.place ≤ c.node ∧ c.node < v.place + v.node.size := by
  induction stack using drain.induct ignored with
  | case1 => simp [drain] at h
  | case2 owner place kind s rest ih =>
    rw [drain, List.mem_append] at h
    rcases h with h | h
    · refine ⟨_, List.mem_cons_self, ?_⟩
      split at h
      · obtain ⟨-, -, -, hnode⟩ := mem_textCandidates h
        simp [hnode, Node.size]
      · cases h
    · obtain ⟨v, hv, hle⟩ := ih h
      exact ⟨v, List.mem_cons_of_mem _ hv, hle⟩
  | case3 owner place name attributes children rest hignored ih =>
    rw [drain, if_pos hignored] at h
    obtain ⟨v, hv, hle⟩ := ih h
    exact ⟨v, List.mem_cons_of_mem _ hv, hle⟩
  | case4 owner place name attributes children rest hignored ih =>
    rw [drain, if_neg hignored, List.mem_append] at h
    rcases h with h | h
    · obtain ⟨k, v, -, -, rfl⟩ := mem_attributeCandidates.mp h
      exact ⟨_, List.mem_cons_self, by simp only [Node.size]; omega⟩
    · obtain ⟨v, hv, hle⟩ := ih h
      rcases List.mem_append.mp hv with hv | hv
      · have := mem_visits hv
        refine ⟨_, List.mem_cons_self, ?_⟩
        simp only [Node.size]
        omega
      · exact ⟨v, List.mem_cons_of_mem _ hv, hle⟩

/-- The candidates of a stack lie at or behind the places it covers. -/
theorem le_node_of_mem_drain {ignored wanted : List Text} {stack : List Visit} {c : Candidate}
    {place : Nat} (hstack : ∀ v ∈ stack, place ≤ v.place) (h : c ∈ drain ignored wanted stack) :
    place ≤ c.node := by
  obtain ⟨v, hv, hle, -⟩ := node_of_mem_drain h
  exact Nat.le_trans (hstack v hv) hle

/-- Candidates are yielded in document order. -/
theorem pairwise_drain {ignored wanted : List Text} {stack : List Visit} (h : Spread stack) :
    (drain ignored wanted stack).Pairwise Candidate.Precedes := by
  induction stack using drain.induct ignored with
  | case1 => simp [drain]
  | case2 owner place kind s rest ih =>
    obtain ⟨hfirst, hrest⟩ := List.pairwise_cons.mp h
    rw [drain]
    refine List.pairwise_append.mpr ⟨?_, ih hrest, fun c hc c' hc' => .inl ?_⟩
    · split
      · unfold textCandidates
        split <;> simp
      · simp
    · split at hc
      · obtain ⟨-, -, -, hnode⟩ := mem_textCandidates hc
        rw [hnode]
        exact le_node_of_mem_drain hfirst hc'
      · cases hc
  | case3 owner place name attributes children rest hignored ih =>
    rw [drain, if_pos hignored]
    exact ih (List.pairwise_cons.mp h).2
  | case4 owner place name attributes children rest hignored ih =>
    obtain ⟨hspread, hbehind⟩ := h.children
    rw [drain, if_neg hignored]
    have hattribute : ∀ c ∈ attributeCandidates wanted place name attributes,
        c.node = place ∧ c.kind = .attribute := by
      intro c hc
      obtain ⟨k, v, -, -, rfl⟩ := mem_attributeCandidates.mp hc
      exact ⟨rfl, rfl⟩
    refine List.pairwise_append.mpr ⟨?_, ih hspread, fun c hc c' hc' => .inl ?_⟩
    · refine List.pairwise_of_forall_mem_list fun c hc c' hc' => .inr ?_
      obtain ⟨hnode, hkind⟩ := hattribute c hc
      obtain ⟨hnode', hkind'⟩ := hattribute c' hc'
      exact ⟨hnode.trans hnode'.symm, hkind, hkind'⟩
    · rw [(hattribute c hc).1]
      exact le_node_of_mem_drain hbehind hc'

/-! ## The nodes of candidates -/

theorem Visit.Stands.getElem? {nodes : List Node} {v : Visit} (h : v.Stands nodes) :
    nodes[v.place]? = some v.node := by
  obtain ⟨after, hafter⟩ := h
  rw [← List.head?_drop, ← hafter, List.head?_append, Node.head?_flatten]
  rfl

theorem Visit.Stands.children {nodes : List Node} {owner : Option (Text × Attributes)} {place : Nat}
    {name : Text} {attributes : Attributes} {children : List Node}
    (h : Visit.Stands nodes ⟨owner, place, .element name attributes children⟩) :
    Node.flattenAll children <+: nodes.drop (place + 1) := by
  obtain ⟨after, hafter⟩ := h
  simp only [Node.flatten_element, List.cons_append] at hafter
  refine ⟨after, ?_⟩
  rw [← List.drop_drop, ← hafter]
  rfl

theorem from_of_mem_drain {ignored wanted : List Text} {nodes : List Node} {stack : List Visit}
    {c : Candidate} (hstands : ∀ v ∈ stack, v.Stands nodes) (h : c ∈ drain ignored wanted stack) :
    ∃ node, nodes[c.node]? = some node ∧ c.From node := by
  induction stack using drain.induct ignored with
  | case1 => simp [drain] at h
  | case2 owner place kind s rest ih =>
    obtain ⟨hfirst, hrest⟩ := List.forall_mem_cons.mp hstands
    rw [drain, List.mem_append] at h
    rcases h with h | h
    · split at h
      · rename_i hkind
        obtain ⟨htext, hvalue, hname, hnode⟩ := mem_textCandidates h
        exact ⟨.leaf kind s, hnode ▸ hfirst.getElem?, hkind, htext, hname, hvalue⟩
      · cases h
    · exact ih hrest h
  | case3 owner place name attributes children rest hignored ih =>
    rw [drain, if_pos hignored] at h
    exact ih (List.forall_mem_cons.mp hstands).2 h
  | case4 owner place name attributes children rest hignored ih =>
    obtain ⟨hfirst, hrest⟩ := List.forall_mem_cons.mp hstands
    rw [drain, if_neg hignored, List.mem_append] at h
    rcases h with h | h
    · obtain ⟨k, v, hmem, -, rfl⟩ := mem_attributeCandidates.mp h
      exact ⟨_, hfirst.getElem?, rfl, rfl, k, v, hmem, rfl, rfl⟩
    · refine ih (fun v hv => ?_) h
      rcases List.mem_append.mp hv with hv | hv
      · exact stands_of_mem_visits hfirst.children v hv
      · exact hrest v hv

/-! ## Leaving candidates out -/

section Narrowing

variable {ignored ignored' wanted wanted' : List Text}

theorem filter_attributeCandidates (h : ∀ a ∈ wanted, a ∈ wanted') (place : Nat) (name : Text)
    (attributes : Attributes) :
    (attributeCandidates wanted' place name attributes).filter
        (· ∈ attributeCandidates wanted place name attributes) =
      attributeCandidates wanted place name attributes := by
  have hkept : ∀ c ∈ attributeCandidates wanted' place name attributes,
      decide (c ∈ attributeCandidates wanted place name attributes) =
        decide (∃ k ∈ c.attributeName, Text.lower k ∈ wanted) := by
    intro c hc
    obtain ⟨k, v, hmem, -, rfl⟩ := mem_attributeCandidates.mp hc
    rw [decide_eq_decide, mem_attributeCandidates]
    constructor
    · rintro ⟨k', v', -, hwanted, heq⟩
      simp only [Candidate.mk.injEq] at heq
      exact ⟨k', heq.2.2.2.2.1, hwanted⟩
    · rintro ⟨k', hk', hwanted⟩
      cases hk'
      exact ⟨k, v, hmem, hwanted, rfl⟩
  rw [List.filter_congr hkept, attributeCandidates, attributeCandidates, List.filter_map,
    List.filter_filter]
  congr 1
  refine List.filter_congr fun ⟨k, v⟩ _ => ?_
  have := h (Text.lower k)
  simpa using this

/-- Candidates from both sides of a place are kept by those of their own side. -/
theorem filter_mem_append {l l' kept kept' : List Candidate} (place : Nat)
    (hl : ∀ c ∈ l, c.node < place) (hl' : ∀ c ∈ l', place ≤ c.node)
    (hkept : ∀ c ∈ kept, c.node < place) (hkept' : ∀ c ∈ kept', place ≤ c.node) :
    (l ++ l').filter (· ∈ kept ++ kept') = l.filter (· ∈ kept) ++ l'.filter (· ∈ kept') := by
  rw [List.filter_append]
  congr 1
  · refine List.filter_congr fun c hc => ?_
    have : c ∉ kept' := fun hc' => Nat.not_le_of_lt (hl c hc) (hkept' c hc')
    simp [this]
  · refine List.filter_congr fun c hc => ?_
    have : c ∉ kept := fun hc' => Nat.not_le_of_lt (hkept c hc') (hl' c hc)
    simp [this]

/-- With fewer attributes wanted and more elements ignored, a spread stack yields the same but for
the candidates left out. -/
theorem filter_drain (hwanted : ∀ a ∈ wanted, a ∈ wanted') (hignored : ∀ t ∈ ignored', t ∈ ignored)
    {stack : List Visit} (h : Spread stack) :
    (drain ignored' wanted' stack).filter (· ∈ drain ignored wanted stack) =
      drain ignored wanted stack := by
  induction stack using drain.induct ignored with
  | case1 => simp [drain]
  | case2 owner place kind s rest ih =>
    obtain ⟨hfirst, hrest⟩ := List.pairwise_cons.mp h
    simp only [Node.size] at hfirst
    simp only [drain]
    generalize htexts : (if kind = .text then textCandidates owner place s else []) = texts
    have hnode : ∀ c ∈ texts, c.node < place + 1 := by
      intro c hc
      rw [← htexts] at hc
      split at hc
      · rw [(mem_textCandidates hc).2.2.2]
        exact Nat.lt_succ_self place
      · cases hc
    rw [filter_mem_append (place + 1) hnode (fun c => le_node_of_mem_drain hfirst) hnode
      (fun c => le_node_of_mem_drain hfirst), ih hrest]
    simp
  | case3 owner place name attributes children rest hin ih =>
    obtain ⟨hfirst, hrest⟩ := List.pairwise_cons.mp h
    have hout : drain ignored wanted (⟨owner, place, .element name attributes children⟩ :: rest) =
        [] ++ drain ignored wanted rest := by
      rw [drain, if_pos hin, List.nil_append]
    rw [hout]
    by_cases hin' : Text.lower name ∈ ignored'
    · rw [drain, if_pos hin']
      exact ih hrest
    · have hinside : ∀ c ∈ attributeCandidates wanted' place name attributes ++
          drain ignored' wanted' (visits (some (name, attributes)) (place + 1) children),
          c.node < place + (Node.element name attributes children).size := by
        intro c hc
        rw [Node.size]
        rcases List.mem_append.mp hc with hc | hc
        · have := node_of_mem_attributeCandidates hc
          omega
        · obtain ⟨v, hv, -, hlt⟩ := node_of_mem_drain hc
          have := mem_visits hv
          omega
      rw [drain, if_neg hin', drain_append, ← List.append_assoc,
        filter_mem_append _ hinside (fun c => le_node_of_mem_drain hfirst) (by simp)
          (fun c => le_node_of_mem_drain hfirst), ih hrest, List.filter_eq_nil_iff.mpr (by simp)]
  | case4 owner place name attributes children rest hin ih =>
    obtain ⟨hspread, hbehind⟩ := h.children
    have hin' : Text.lower name ∉ ignored' := fun hmem => hin (hignored _ hmem)
    have hnode : ∀ wanted, ∀ c ∈ attributeCandidates wanted place name attributes,
        c.node < place + 1 := by
      intro wanted c hc
      rw [node_of_mem_attributeCandidates hc]
      exact Nat.lt_succ_self place
    simp only [drain, if_neg hin, if_neg hin']
    rw [filter_mem_append (place + 1) (hnode wanted') (fun c => le_node_of_mem_drain hbehind)
      (hnode wanted) (fun c => le_node_of_mem_drain hbehind), ih hspread,
      filter_attributeCandidates hwanted]

end Narrowing

/-- Without attributes, only texts are yielded. -/
theorem kind_of_mem_drain_nil {ignored : List Text} {stack : List Visit} {c : Candidate}
    (h : c ∈ drain ignored [] stack) : c.kind = .text := by
  induction stack using drain.induct ignored with
  | case1 => simp [drain] at h
  | case2 owner place kind s rest ih =>
    rw [drain, List.mem_append] at h
    rcases h with h | h
    · split at h
      · exact (mem_textCandidates h).1
      · cases h
    · exact ih h
  | case3 owner place name attributes children rest hin ih =>
    rw [drain, if_pos hin] at h
    exact ih h
  | case4 owner place name attributes children rest hin ih =>
    rw [drain, if_neg hin, List.mem_append] at h
    rcases h with h | h
    · obtain ⟨k, v, -, hwanted, -⟩ := mem_attributeCandidates.mp h
      cases hwanted
    · exact ih h

/-- Texts are yielded whatever the attributes are. -/
theorem mem_drain_of_text {ignored wanted : List Text} (wanted' : List Text) {stack : List Visit}
    {c : Candidate} (h : c ∈ drain ignored wanted stack) (hkind : c.kind = .text) :
    c ∈ drain ignored wanted' stack := by
  induction stack using drain.induct ignored with
  | case1 => simp [drain] at h
  | case2 owner place kind s rest ih =>
    rw [drain, List.mem_append] at h ⊢
    exact h.imp_right ih
  | case3 owner place name attributes children rest hin ih =>
    rw [drain, if_pos hin] at h ⊢
    exact ih h
  | case4 owner place name attributes children rest hin ih =>
    rw [drain, if_neg hin, List.mem_append] at h ⊢
    rcases h with h | h
    · obtain ⟨k, v, -, -, rfl⟩ := mem_attributeCandidates.mp h
      cases hkind
    · exact .inr (ih h)

/-! ## Documents -/

section Candidates

variable {d : Document} {ignored ignored' wanted wanted' : List Text} {c : Candidate}

/-- A candidate of a document is taken from the node at its place. -/
theorem mem_candidates (h : c ∈ d.candidates ignored wanted) :
    ∃ node, d.nodes[c.node]? = some node ∧ c.From node :=
  from_of_mem_drain (stands_of_mem_visits (by simp [nodes_eq])) h

theorem precedes_candidates (d : Document) (ignored wanted : List Text) :
    (d.candidates ignored wanted).Pairwise Candidate.Precedes :=
  pairwise_drain (spread_visits none 0 d)

theorem pairwise_candidates (d : Document) (ignored wanted : List Text) :
    (d.candidates ignored wanted).Pairwise fun c c' => c.node ≤ c'.node :=
  (precedes_candidates d ignored wanted).imp fun h => h.le

/-- Naming fewer attributes and ignoring more elements, letter case aside, only leaves candidates
out. -/
theorem filter_candidates (d : Document)
    (hwanted : ∀ a ∈ wanted, Text.lower a ∈ wanted'.map Text.lower)
    (hignored : ∀ t ∈ ignored', Text.lower t ∈ ignored.map Text.lower) :
    (d.candidates ignored' wanted').filter (· ∈ d.candidates ignored wanted) =
      d.candidates ignored wanted := by
  refine filter_drain (fun a ha => ?_) (fun t ht => ?_) (spread_visits none 0 d)
  · obtain ⟨a', ha', rfl⟩ := List.mem_map.mp ha
    exact hwanted a' ha'
  · obtain ⟨t', ht', rfl⟩ := List.mem_map.mp ht
    exact hignored t' ht'

/-- Which attributes and elements are named counts, not their order or how often. -/
theorem candidates_congr (d : Document) (hwanted : ∀ a, a ∈ wanted ↔ a ∈ wanted')
    (hignored : ∀ t, t ∈ ignored ↔ t ∈ ignored') :
    d.candidates ignored wanted = d.candidates ignored' wanted' := by
  have hnarrower := filter_candidates d (fun a ha => List.mem_map_of_mem ((hwanted a).mp ha))
    fun t ht => List.mem_map_of_mem ((hignored t).mpr ht)
  have hwider := filter_candidates d (fun a ha => List.mem_map_of_mem ((hwanted a).mpr ha))
    fun t ht => List.mem_map_of_mem ((hignored t).mp ht)
  -- Each of the two is what a filter keeps of the other.
  have hsublist : (d.candidates ignored wanted).Sublist (d.candidates ignored' wanted') :=
    hnarrower ▸ List.filter_sublist
  have hsublist' : (d.candidates ignored' wanted').Sublist (d.candidates ignored wanted) :=
    hwider ▸ List.filter_sublist
  exact hsublist.eq_of_length_le hsublist'.length_le

/-- Without attributes, exactly the texts are candidates. -/
theorem mem_candidates_nil (h : c ∈ d.candidates ignored wanted) :
    c ∈ d.candidates ignored [] ↔ c.kind = .text :=
  ⟨kind_of_mem_drain_nil, mem_drain_of_text _ h⟩

end Candidates

end Document

end Untranslated
