import Untranslated.Proofs.Markup.Locating
import Untranslated.Proofs.Markup.Tree

/-!
# The document of tag soup

Tokens in any order build a document, and its nodes are those of the tokens, in their order
(`parse_soup`): end tags only decide how the nodes are nested. `Builder.outline` lists the nodes
that a builder has read so far without saying what stands inside them. Opening an element and adding a
string append to it, and closing an element leaves it as it is.
-/

namespace Untranslated

/-- A node without what stands inside it. -/
def Node.bare : Node → Node
  | .element name attributes _ => .element name attributes []
  | .leaf kind s => .leaf kind s

theorem Node.flattenAll_append (ns ns' : List Node) :
    flattenAll (ns ++ ns') = flattenAll ns ++ flattenAll ns' := by
  induction ns with
  | nil => rfl
  | cons n ns ih => rw [List.cons_append, flattenAll_cons, flattenAll_cons, ih, List.append_assoc]

namespace Document.Builder

open Markup

/-- The nodes of an open element so far. -/
def frameOutline (f : Frame) : List Node :=
  .element f.name f.attributes [] :: (Node.flattenAll f.children.reverse).map Node.bare

/-- The nodes read so far, in document order. -/
def outline (b : Builder) : List Node :=
  (Node.flattenAll b.top.reverse).map Node.bare ++ b.frames.reverse.flatMap frameOutline

theorem outline_add (b : Builder) (n : Node) :
    (b.add n).outline = b.outline ++ n.flatten.map Node.bare := by
  obtain ⟨frames, top, pending, closedVoids⟩ := b
  cases frames with
  | nil => simp [add, outline, Node.flattenAll_append]
  | cons f fs => simp [add, outline, frameOutline, Node.flattenAll_append]

theorem outline_push (b : Builder) (name : Text) (attributes : Attributes) :
    (b.push name attributes).outline = b.outline ++ [.element name attributes []] := by
  simp [push, outline, frameOutline]

theorem outline_pop (b : Builder) : b.pop.outline = b.outline := by
  obtain ⟨frames, top, pending, closedVoids⟩ := b
  cases frames with
  | nil => rfl
  | cons f fs =>
    rw [pop, outline_add]
    simp [outline, frameOutline, Node.bare]

@[simp] theorem pending_pop (b : Builder) : b.pop.pending = b.pending := by
  unfold pop
  split <;> simp

@[simp] theorem closedVoids_pop (b : Builder) : b.pop.closedVoids = b.closedVoids := by
  unfold pop
  split <;> simp

theorem length_frames_pop (b : Builder) : b.pop.frames.length = b.frames.length - 1 := by
  obtain ⟨frames, top, pending, closedVoids⟩ := b
  match frames with
  | [] => rfl
  | [_] => rfl
  | _ :: _ :: _ => rfl

/-- Closing an element finishes a number of open elements. -/
theorem close_eq_iterate (b : Builder) (name : Text) : ∃ n, b.close name = pop^[n] b := by
  have hthrough : ∀ (fs : List Frame) (b : Builder), ∃ n, popThrough name fs b = pop^[n] b := by
    intro fs
    induction fs with
    | nil => exact fun b => ⟨0, rfl⟩
    | cons f fs ih =>
      intro b
      rw [popThrough]
      split
      · exact ⟨1, rfl⟩
      · obtain ⟨n, hn⟩ := ih b.pop
        exact ⟨n + 1, hn⟩
  unfold close
  split
  · exact hthrough b.frames b
  · exact ⟨0, rfl⟩

/-- What finishing one open element keeps, finishing several keeps. -/
theorem iterate_pop {α : Type} {f : Builder → α} (h : ∀ b, f b.pop = f b) (n : Nat) (b : Builder) :
    f (pop^[n] b) = f b := by
  induction n generalizing b with
  | zero => rfl
  | succ n ih => rw [Function.iterate_succ_apply, ih, h]

/-- In the end all open elements are finished, and the nodes read are those of the document. -/
theorem flattenAll_finish (b : Builder) :
    (Node.flattenAll b.finish).map Node.bare = b.flush.outline := by
  have hfold : ∀ (fs : List Frame) (b : Builder), fs.foldl (fun b _ => b.pop) b = pop^[fs.length] b := by
    intro fs
    induction fs with
    | nil => exact fun _ => rfl
    | cons f fs ih => exact fun b => ih b.pop
  have hframes : ∀ (n : Nat) (b : Builder), (pop^[n] b).frames.length = b.frames.length - n := by
    intro n
    induction n with
    | zero => exact fun _ => rfl
    | succ n ih =>
      intro b
      rw [Function.iterate_succ_apply, ih, length_frames_pop]
      omega
  have hnil : (pop^[b.flush.frames.length] b.flush).frames = [] :=
    List.eq_nil_of_length_eq_zero (by rw [hframes, Nat.sub_self])
  rw [finish, hfold, ← iterate_pop outline_pop b.flush.frames.length, outline, hnil]
  simp

end Document.Builder

/-! ## Tokens -/

namespace Markup.Token

theorem Denotes.of_bare {t : Token} {n : Node} (h : t.Denotes n.bare) : t.Denotes n := by
  cases n with
  | leaf kind s => exact h
  | element name attributes children =>
    generalize hbare : (Node.element name attributes children).bare = bare at h
    cases h with
    | opening =>
      obtain ⟨rfl, rfl, -⟩ := Node.element.inj hbare
      exact .opening
    | comment => cases hbare
    | text => cases hbare
    | space => cases hbare

theorem listed_of_forall₂ {ts : List Token} {nodes : List Node} {k : Nat}
    (h : List.Forall₂ Denotes (ts.filter fun t => !t.isClosing) nodes) :
    Listed k ts (numbered k nodes) := by
  induction ts generalizing k nodes with
  | nil =>
    cases h
    exact .nil
  | cons t ts ih =>
    cases hclosing : t.isClosing with
    | true =>
      rw [List.filter_cons_of_neg (by simp [hclosing])] at h
      obtain ⟨name, rfl⟩ : ∃ name, t = .closing name := by
        cases t with
        | closing name => exact ⟨name, rfl⟩
        | opening | comment | text => cases hclosing
      exact .closing (ih h)
    | false =>
      rw [List.filter_cons_of_pos (by simp [hclosing])] at h
      obtain ⟨n, rest, ht, hrest, rfl⟩ := List.forall₂_cons_left_iff.mp h
      exact .node ht (ih hrest)

end Markup.Token

namespace Document.Builder

open Markup

/-- What is pending makes a difference only where a text is added. -/
theorem outline_addLeaf (b : Builder) (kind : LeafKind) (s : Text) :
    (b.addLeaf kind s).outline =
      b.outline ++ [.leaf kind (if b.keeps then s else shrinkSpace s)] := by
  rw [addLeaf, outline_add, keeps]
  rfl

theorem denotes_kept (kept : Bool) (s : Text) :
    Token.Denotes (.text s) (.leaf .text (if kept then s else shrinkSpace s)) := by
  cases kept with
  | true => exact .text
  | false =>
    cases hspace : isPlainSpace s with
    | true => exact .space hspace
    | false =>
      have hkept : shrinkSpace s = s := by rw [shrinkSpace, if_neg (by simp [hspace])]
      rw [if_neg Bool.false_ne_true, hkept]
      exact .text

/-- The builder reads a token. Only a text may be pending behind it. -/
structure Reads (b b' : Builder) (t : Token) (nodes : List Node) : Prop where
  outline : b'.flush.outline = b.flush.outline ++ nodes
  denotes : List.Forall₂ Token.Denotes ([t].filter fun t => !t.isClosing) nodes
  pending : t.isText = false → b'.pending = none
  voids : (∀ v ∈ b.closedVoids, v ∈ voidElements) → ∀ v ∈ b'.closedVoids, v ∈ voidElements

theorem reads_opening (b : Builder) (name : Text) (attributes : List (Text × Text)) :
    Reads b (b.event [] (.startTag name (decoded attributes))) (.opening name attributes)
      [.element name (attributesOf (mergeAttributes (decoded attributes))) []] := by
  generalize hopened : b.flush.push name (splitValues [] (mergeAttributes (decoded attributes))) = opened
  have houtline : opened.outline =
      b.flush.outline ++ [.element name (attributesOf (mergeAttributes (decoded attributes))) []] := by
    rw [← hopened, outline_push, splitValues_nil]
  have hpending : opened.pending = none := by rw [← hopened]; exact pending_flush b
  have hvoids : opened.closedVoids = b.closedVoids := by rw [← hopened]; exact closedVoids_flush b
  have hdenotes : List.Forall₂ Token.Denotes
      ([.opening name attributes].filter fun t : Token => !t.isClosing)
      [.element name (attributesOf (mergeAttributes (decoded attributes))) []] := .cons .opening .nil
  simp only [event, hopened]
  split
  · rename_i hvoid
    have hnone : ({ opened.pop with closedVoids := name :: opened.closedVoids } : Builder).pending =
      none := by rw [pending_pop, hpending]
    refine ⟨?_, hdenotes, fun _ => hnone, fun h => ?_⟩
    · rw [flush_of_pending hnone, ← houtline]
      exact outline_pop opened
    · rw [hvoids]
      exact List.forall_mem_cons.mpr ⟨hvoid, h⟩
  · refine ⟨?_, hdenotes, fun _ => hpending, fun h => ?_⟩
    · rw [flush_of_pending hpending, houtline]
    · rwa [hvoids]

theorem reads_closing (b : Builder) {name : Text} (hvoids : ∀ v ∈ b.closedVoids, v ∈ voidElements)
    (h : name ∉ voidElements) : Reads b (b.event [] (.endTag name)) (.closing name) [] := by
  obtain ⟨n, hclose⟩ := b.flush.close_eq_iterate name
  have hevent : b.event [] (.endTag name) = pop^[n] b.flush := by
    rw [event, if_neg fun hmem => h (hvoids name hmem), hclose]
  have hpending : (pop^[n] b.flush).pending = none := by rw [iterate_pop pending_pop, pending_flush]
  rw [hevent]
  refine ⟨?_, .nil, fun _ => hpending, fun h => ?_⟩
  · rw [flush_of_pending hpending, iterate_pop outline_pop, List.append_nil]
  · rwa [iterate_pop closedVoids_pop, closedVoids_flush]

theorem reads_comment (b : Builder) (s : Text) :
    Reads b (b.event [] (.leaf .comment s)) (.comment s)
      [.leaf .comment (if b.flush.keeps then s else shrinkSpace s)] := by
  have hpending : (b.flush.addLeaf .comment s).pending = none := by simp [addLeaf]
  refine ⟨?_, .cons .comment .nil, fun _ => hpending, fun h => ?_⟩
  · rw [event, flush_of_pending hpending, outline_addLeaf]
  · simpa [event, addLeaf] using h

theorem reads_text {b : Builder} (hpending : b.pending = none) (s : Text) :
    Reads b (b.event [] (.text s)) (.text s) [.leaf .text (if b.keeps then s else shrinkSpace s)] := by
  have hevent : b.event [] (.text s) = { b with pending := some s } := by
    rw [event, hpending]
    rfl
  have hflush : ({ b with pending := some s } : Builder).flush = b.addLeaf .text s := by
    obtain ⟨frames, top, pending, closedVoids⟩ := b
    cases hpending
    rfl
  rw [hevent]
  refine ⟨?_, .cons (denotes_kept _ s) .nil, (fun h => by cases h), id⟩
  rw [hflush, outline_addLeaf, flush_of_pending hpending]

theorem reads_token {b : Builder} {W : Token → Prop}
    (hW : ∀ name, W (.closing name) → name ∉ voidElements) {t : Token} (ht : W t)
    (hvoids : ∀ v ∈ b.closedVoids, v ∈ voidElements)
    (hpending : t.isText = true → b.pending = none) :
    ∃ nodes, Reads b (b.event [] t.event) t nodes := by
  match t with
  | .opening name attributes => exact ⟨_, reads_opening b name attributes⟩
  | .closing name => exact ⟨_, reads_closing b hvoids (hW name ht)⟩
  | .comment s => exact ⟨_, reads_comment b s⟩
  | .text s => exact ⟨_, reads_text (hpending rfl) s⟩

/-- The builder reads all tokens. -/
theorem outline_feed {W : Token → Prop} (hW : ∀ name, W (.closing name) → name ∉ voidElements)
    {ts : List Token} (h : Token.Spaced W ts) {b : Builder}
    (hvoids : ∀ v ∈ b.closedVoids, v ∈ voidElements)
    (hpending : ∀ t ∈ ts.head?, t.isText = true → b.pending = none) :
    ∃ nodes, (b.feed ts).flush.outline = b.flush.outline ++ nodes ∧
      List.Forall₂ Token.Denotes (ts.filter fun t => !t.isClosing) nodes := by
  induction ts generalizing b with
  | nil => exact ⟨[], (List.append_nil _).symm, .nil⟩
  | cons t ts ih =>
    obtain ⟨ht, hspaced, hts⟩ := h
    obtain ⟨nodes, hreads⟩ := reads_token hW ht hvoids (hpending t rfl)
    obtain ⟨more, hmore, hdenotes⟩ := ih hts (hreads.voids hvoids) fun u hu htext =>
      hreads.pending (Bool.eq_false_iff.mpr fun hboth => by rw [hspaced hboth u hu] at htext; cases htext)
    refine ⟨nodes ++ more, ?_, ?_⟩
    · rw [← List.append_assoc, ← hreads.outline, ← hmore]
      rfl
    · rw [← List.singleton_append, List.filter_append]
      exact List.rel_append hreads.denotes hdenotes

end Document.Builder

namespace Document

open Markup

/-- The document of legible tokens is the one that they build. -/
theorem parse_tokens {ts : List Token} (h : Token.Spaced Token.IsLegible ts) :
    parse [] (Token.renderAll ts) = .ok (Builder.start.feed ts).finish := by
  rw [parse, Event.read_tokens h]
  rfl

/-- Tag soup is read, and the nodes of its document are those of its tokens. -/
theorem parse_soup {W : Token → Prop} (hlegible : ∀ t, W t → t.IsLegible)
    (hW : ∀ name, W (.closing name) → name ∉ voidElements) {ts : List Token} (h : Token.Spaced W ts) :
    ∃ d, parse [] (Token.renderAll ts) = .ok d ∧ Token.Listed 0 ts d.indexed := by
  obtain ⟨nodes, houtline, hdenotes⟩ :=
    Builder.outline_feed hW h (b := Builder.start) (by simp [Builder.start]) (fun _ _ _ => rfl)
  have hnodes : (Document.nodes (Builder.start.feed ts).finish).map Node.bare = nodes := by
    rw [nodes_eq, Builder.flattenAll_finish, houtline]
    rfl
  refine ⟨_, parse_tokens (h.imp fun t _ => hlegible t), Token.listed_of_forall₂ ?_⟩
  rw [← hnodes, List.forall₂_map_right_iff] at hdenotes
  exact hdenotes.imp fun _ _ => Token.Denotes.of_bare

/-- The nodes of the document of nested markup are those of its tokens. -/
theorem listed_nested {W : Token → Prop} (hlegible : ∀ t, W t → t.IsLegible)
    (hW : ∀ name, W (.closing name) → name ∉ voidElements) {ms : List Markup} (h : EachAll W ms) :
    Token.Listed 0 (tokensAll [] ms) (indexed (nodeAll false ms)) := by
  obtain ⟨d, hparse, hlisted⟩ := parse_soup hlegible hW h.spaced
  rw [renderAll_tokensAll, parse_nested hlegible hW h] at hparse
  rwa [Except.ok.inj hparse]

end Document

end Untranslated
