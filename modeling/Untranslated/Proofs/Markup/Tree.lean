import Untranslated.Proofs.Markup.Reading

/-!
# The document of nested markup

The events of markup whose tags are nested build the nodes of its pieces (`parse_nested`), and for
well-formed markup these are its tree (`parse_renderAll`). A text is added to the document
only when the next tag is read, so the lemmas compare builders after the pending text is flushed.
-/

namespace Untranslated

namespace Document

open Markup

/-- Attributes of different names are kept as they are. -/
theorem mergeAttributes_eq_self {pairs : List (Text × Text)} (h : (pairs.map Prod.fst).Nodup) :
    mergeAttributes pairs = pairs := by
  have hmerge : ∀ done : List (Text × Text), (∀ a ∈ done, ∀ b ∈ pairs, a.1 ≠ b.1) →
      pairs.foldl (fun done a =>
        if done.any (fun p => p.1 == a.1) then done.map fun p => if p.1 == a.1 then a else p
        else done ++ [a]) done = done ++ pairs := by
    induction pairs with
    | nil => simp
    | cons a pairs ih =>
      obtain ⟨k, v⟩ := a
      obtain ⟨hk, hpairs⟩ := List.nodup_cons.mp h
      intro done hdone
      have hnew : (done.any fun p => p.1 == k) = false := by
        rw [List.any_eq_false]
        intro p hp
        simpa using hdone p hp (k, v) List.mem_cons_self
      rw [List.foldl_cons]
      simp only [hnew, Bool.false_eq_true, if_false]
      rw [ih hpairs, List.append_assoc, List.singleton_append]
      intro p hp b hb
      rcases List.mem_append.mp hp with hp | hp
      · exact hdone p hp b (List.mem_cons_of_mem _ hb)
      · rw [List.mem_singleton.mp hp]
        exact fun heq => hk (heq ▸ List.mem_map_of_mem hb)
  exact hmerge [] (by simp)

/-- Of equal names the last value counts. -/
theorem find?_of_mem_mergeAttributes {pairs : List (Text × Text)} {k v : Text}
    (h : (k, v) ∈ mergeAttributes pairs) : pairs.reverse.find? (fun p => p.1 == k) = some (k, v) := by
  induction pairs using List.reverseRecOn with
  | nil => cases h
  | append_singleton pairs last ih =>
    obtain ⟨k', v'⟩ := last
    rw [mergeAttributes, List.foldl_append, ← mergeAttributes, List.foldl_cons, List.foldl_nil] at h
    rw [List.reverse_append, List.reverse_singleton, List.singleton_append, List.find?_cons]
    simp only at h ⊢
    -- A pair of another name was there before.
    have hbefore : (k, v) ∈ mergeAttributes pairs → k ≠ k' →
        (match k' == k with
          | true => some (k', v')
          | false => pairs.reverse.find? fun p => p.1 == k) = some (k, v) := by
      intro hmem hne
      rw [beq_eq_false_iff_ne.mpr (Ne.symm hne)]
      exact ih hmem
    split at h
    · obtain ⟨p, hp, heq⟩ := List.mem_map.mp h
      split at heq
      · obtain ⟨rfl, rfl⟩ := Prod.mk.inj heq
        rw [beq_self_eq_true]
      · rename_i hne
        subst heq
        exact hbefore hp (by simpa using hne)
    · rename_i hnew
      rcases List.mem_append.mp h with h | h
      · refine hbefore h fun heq => hnew (List.any_eq_true.mpr ⟨_, h, ?_⟩)
        simp [heq]
      · obtain ⟨rfl, rfl⟩ := Prod.mk.inj (List.mem_singleton.mp h)
        rw [beq_self_eq_true]

theorem splitValues_nil (pairs : List (Text × Text)) : splitValues [] pairs = attributesOf pairs := by
  simp [splitValues, attributesOf]

end Document

namespace Markup

mutual

/-- The node that a piece is read as. Plain space shrinks where it is not `kept`, and of attributes of
one name the last value counts. -/
def node (kept : Bool) : Markup → Node
  | .element name attributes children =>
    .element name (attributesOf (Document.mergeAttributes (decoded attributes)))
      (nodeAll (decide (name ∈ Document.preformatted) || kept) children)
  | .comment s => .leaf .comment (if kept then s else Document.shrinkSpace s)
  | .text s => .leaf .text (if kept then s else Document.shrinkSpace s)

/-- The nodes that pieces are read as. -/
def nodeAll (kept : Bool) : List Markup → List Node
  | [] => []
  | m :: ms => node kept m :: nodeAll kept ms

end

mutual

/-- Well-formed pieces are read as the nodes that they stand for. -/
theorem node_eq_tree (kept : Bool) {m : Markup} (h : m.WellFormed) : m.node kept = m.tree kept := by
  match m with
  | .element name attributes children =>
    obtain ⟨htag, hchildren⟩ := h
    rw [node, tree, decoded_eq_self htag.attribute_value, Document.mergeAttributes_eq_self htag.nodup,
      nodeAll_eq_treeAll _ hchildren]
  | .comment s => rfl
  | .text s =>
    have hshown : Document.shrinkSpace s = s := by
      rw [Document.shrinkSpace, if_neg (by simp [h.visible])]
    rw [node, tree, hshown, ite_self]

theorem nodeAll_eq_treeAll (kept : Bool) {ms : List Markup} (h : WellFormedAll ms) :
    nodeAll kept ms = treeAll kept ms := by
  match ms with
  | [] => rfl
  | m :: ms => rw [nodeAll, treeAll, node_eq_tree kept h.1, nodeAll_eq_treeAll kept h.2.2]

end

end Markup

namespace Document

open Markup

namespace Builder

/-- Whether plain space is kept where the builder stands. -/
def keeps (b : Builder) : Bool := b.frames.any fun f => f.name ∈ preformatted

@[simp] theorem pending_add (b : Builder) (n : Node) : (b.add n).pending = b.pending := by
  unfold add; split <;> rfl

@[simp] theorem closedVoids_add (b : Builder) (n : Node) :
    (b.add n).closedVoids = b.closedVoids := by
  unfold add; split <;> rfl

@[simp] theorem keeps_add (b : Builder) (n : Node) : (b.add n).keeps = b.keeps := by
  unfold add keeps; split <;> simp_all

@[simp] theorem pending_flush (b : Builder) : b.flush.pending = none := by
  unfold flush
  split
  · assumption
  · simp [addLeaf]

@[simp] theorem closedVoids_flush (b : Builder) : b.flush.closedVoids = b.closedVoids := by
  unfold flush
  split
  · rfl
  · simp [addLeaf]

@[simp] theorem keeps_flush (b : Builder) : b.flush.keeps = b.keeps := by
  unfold flush
  split
  · rfl
  · simp only [addLeaf, keeps_add]; rfl

theorem flush_of_pending {b : Builder} (h : b.pending = none) : b.flush = b := by
  rw [flush, h]

/-- Nodes added to an element that was just opened become its children. -/
theorem foldl_add_push (b : Builder) (name : Text) (attributes : Attributes) (ns : List Node) :
    ns.foldl add (b.push name attributes) =
      { b with frames := ⟨name, attributes, ns.reverse⟩ :: b.frames } := by
  have hadd : ∀ children, ns.foldl add { b with frames := ⟨name, attributes, children⟩ :: b.frames } =
      { b with frames := ⟨name, attributes, ns.reverse ++ children⟩ :: b.frames } := by
    induction ns with
    | nil => exact fun _ => rfl
    | cons n ns ih =>
      intro children
      rw [List.foldl_cons, add]
      simp only
      rw [ih]
      simp
  simpa [push] using hadd []

/-- The innermost element is closed by its own name. -/
theorem close_self (b : Builder) (name : Text) (attributes : Attributes) (children : List Node) :
    close { b with frames := ⟨name, attributes, children⟩ :: b.frames } name =
      b.add (.element name attributes children.reverse) := by
  simp [close, popThrough, pop]

theorem foldl_add_top (ns : List Node) (b : Builder) (h : b.frames = []) :
    ns.foldl add b = { b with top := ns.reverse ++ b.top } := by
  induction ns generalizing b with
  | nil => rfl
  | cons n ns ih =>
    have hadd : b.add n = { b with top := n :: b.top } := by rw [add, h]
    rw [List.foldl_cons, hadd, ih { b with top := n :: b.top } h]
    simp

/-- The builder after the events of tokens. -/
def feed (b : Builder) (ts : List Token) : Builder := (ts.map Token.event).foldl (event []) b

/-- The builder after a piece: a text is still pending. -/
def after (b : Builder) : Markup → Builder
  | .text s => { b with pending := some s }
  | m => b.flush.add (m.node b.keeps)

theorem keeps_after (b : Builder) (m : Markup) : (b.after m).keeps = b.keeps := by
  cases m with
  | text s => rfl
  | element name attributes children => simp [after]
  | comment s => simp [after]

theorem closedVoids_after (b : Builder) (m : Markup) : (b.after m).closedVoids = b.closedVoids := by
  cases m with
  | text s => rfl
  | element name attributes children => simp [after]
  | comment s => simp [after]

/-- In the end a piece becomes its node. -/
theorem flush_after {b : Builder} {m : Markup} (hpending : m.isText = true → b.pending = none) :
    (b.after m).flush = b.flush.add (m.node b.keeps) := by
  cases m with
  | text s =>
    obtain ⟨frames, top, pending, closedVoids⟩ := b
    cases hpending rfl
    rfl
  | element name attributes children => exact flush_of_pending (by simp [after])
  | comment s => exact flush_of_pending (by simp [after])

variable {W : Token → Prop}

mutual

theorem feed_tokens (hW : ∀ name, W (.closing name) → name ∉ voidElements) (more : List Token)
    {m : Markup} (h : m.Each W) {b : Builder} (hvoids : b.closedVoids = [])
    (hpending : m.isText = true → b.pending = none) :
    b.feed (tokens more m) = (b.after m).feed more := by
  match m with
  | .element name attributes children =>
    obtain ⟨-, hclosing, hchildren⟩ := h
    generalize hparsed : attributesOf (mergeAttributes (decoded attributes)) = parsed
    have hopen : event [] b (.startTag name (decoded attributes)) = b.flush.push name parsed := by
      simp only [event, splitValues_nil, hparsed, if_neg (hW name hclosing)]
    have hkeeps : (b.flush.push name parsed).keeps = (decide (name ∈ preformatted) || b.keeps) := by
      rw [← keeps_flush b]
      rfl
    obtain ⟨b', hfeed, hflush, hvoids'⟩ := feed_tokensAll hW (.closing name :: more) hchildren
      (b := b.flush.push name parsed) (by simpa [push] using hvoids) (fun _ _ _ => pending_flush b)
    have hpush : (b.flush.push name parsed).flush = b.flush.push name parsed :=
      flush_of_pending (pending_flush b)
    rw [hpush, foldl_add_push, hkeeps] at hflush
    have hclose : event [] b' (.endTag name) = b.after (.element name attributes children) := by
      simp only [event, hvoids', List.not_mem_nil, if_false]
      rw [hflush, close_self, List.reverse_reverse, ← hparsed]
      rfl
    calc b.feed (tokens more (.element name attributes children))
        = (event [] b (.startTag name (decoded attributes))).feed
            (tokensAll (.closing name :: more) children) := rfl
      _ = b'.feed (.closing name :: more) := by rw [hopen, hfeed]
      _ = (event [] b' (.endTag name)).feed more := rfl
      _ = (b.after (.element name attributes children)).feed more := by rw [hclose]
  | .comment s =>
    have hleaf : b.flush.addLeaf .comment s = b.after (.comment s) := by
      rw [after, node, ← keeps_flush b]
      · rfl
      · simp
    exact congrArg (feed · more) hleaf
  | .text s =>
    obtain ⟨frames, top, pending, closedVoids⟩ := b
    cases hpending rfl
    rfl

theorem feed_tokensAll (hW : ∀ name, W (.closing name) → name ∉ voidElements) (more : List Token)
    {ms : List Markup} (h : EachAll W ms) {b : Builder} (hvoids : b.closedVoids = [])
    (hpending : ∀ m ∈ ms.head?, m.isText = true → b.pending = none) :
    ∃ b' : Builder, b.feed (tokensAll more ms) = b'.feed more ∧
      b'.flush = (nodeAll b.keeps ms).foldl add b.flush ∧ b'.closedVoids = [] := by
  match ms with
  | [] => exact ⟨b, rfl, rfl, hvoids⟩
  | m :: ms =>
    obtain ⟨hm, hspaced, hms⟩ := h
    have hnext : ∀ n ∈ ms.head?, n.isText = true → (b.after m).pending = none := by
      intro n hn htext
      match m with
      | .element _ _ _ | .comment _ => simp [after]
      | .text s => rw [hspaced rfl n hn] at htext; cases htext
    obtain ⟨b', hfeed, hflush, hvoids'⟩ :=
      feed_tokensAll hW more hms (by rw [closedVoids_after, hvoids]) hnext
    refine ⟨b', ?_, ?_, hvoids'⟩
    · rw [tokensAll, feed_tokens hW _ hm hvoids (hpending m rfl), hfeed]
    · rw [hflush, keeps_after, flush_after (hpending m rfl)]
      rfl

end

end Builder

/-- Nested markup is read as the nodes of its pieces. -/
theorem parse_nested {W : Token → Prop} (hlegible : ∀ t, W t → t.IsLegible)
    (hW : ∀ name, W (.closing name) → name ∉ voidElements) {ms : List Markup} (h : EachAll W ms) :
    parse [] (renderAll ms) = .ok (nodeAll false ms) := by
  obtain ⟨b, hfeed, hflush, -⟩ :=
    Builder.feed_tokensAll hW [] h (b := Builder.start) rfl (fun _ _ _ => rfl)
  rw [parse, ← renderAll_tokensAll, Event.read_tokens (h.spaced.imp fun t _ => hlegible t)]
  refine congrArg Except.ok ?_
  have hfinish : ((tokensAll [] ms).map Token.event).foldl (Builder.event []) Builder.start = b := hfeed
  rw [ofEvents, hfinish, Builder.finish, hflush, Builder.foldl_add_top _ _ rfl]
  simp [Builder.start, Builder.flush, Builder.keeps]

/-- Well-formed markup is read as the document that it stands for. -/
theorem parse_renderAll {ms : List Markup} (h : WellFormedAll ms) :
    parse [] (renderAll ms) = .ok (treeAll false ms) := by
  rw [parse_nested (fun _ => Token.WellFormed.isLegible) (fun _ h => h.2) (each_of_wellFormedAll h),
    nodeAll_eq_treeAll false h]

end Document

end Untranslated
