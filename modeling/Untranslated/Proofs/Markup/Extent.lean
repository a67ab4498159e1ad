import Untranslated.Proofs.Markup.Strings

/-!
# The extents of ignored elements

An element extends from its opening tag through its end tag. `Markup.extentsAll` lists the extents of the
ignored elements of a document. The nodes of an element are numbered in one run and are written in one
range, so what the walk leaves out when it skips an element stands inside the element's extent: no
candidate is written in the extent of an ignored element (`outside_extentsAll`).
-/

namespace Untranslated

/-- The ranges have no offset in common. -/
def Span.Apart (s t : Span) : Prop := s.stop ≤ t.start ∨ t.stop ≤ s.start

namespace Markup

mutual

/-- The ranges of the ignored elements in a piece that is written at the offset. -/
def extents (ignored : List Text) (offset : Nat) : Markup → List Span
  | .element name attributes children =>
    (if Text.lower name ∈ ignored then
      [⟨offset, offset + (render (.element name attributes children)).length⟩]
    else []) ++ extentsAll ignored (offset + (openTag name attributes).length) children
  | .comment _ => []
  | .text _ => []

/-- The ranges of the ignored elements in pieces that are written one after the other. -/
def extentsAll (ignored : List Text) (offset : Nat) : List Markup → List Span
  | [] => []
  | m :: ms => extents ignored offset m ++ extentsAll ignored (offset + (render m).length) ms

end

mutual

theorem extents_inside {ignored : List Text} {offset : Nat} {m : Markup} :
    ∀ e ∈ extents ignored offset m, e.Inside offset (offset + m.render.length) := by
  match m with
  | .element name attributes children =>
    have hlength : (render (.element name attributes children)).length =
        (openTag name attributes).length + (renderAll children).length + (closeTag name).length := by
      simp only [render, List.length_append]
    refine List.forall_mem_append.mpr ⟨fun e he => ?_, fun e he => ?_⟩
    · split at he
      · rw [List.mem_singleton.mp he]
        exact ⟨Nat.le_refl _, Nat.le_add_right _ _, Nat.le_refl _⟩
      · cases he
    · exact (extentsAll_inside e he).mono (by omega) (by omega)
  | .comment s => simp [extents]
  | .text s => simp [extents]

theorem extentsAll_inside {ignored : List Text} {offset : Nat} {ms : List Markup} :
    ∀ e ∈ extentsAll ignored offset ms, e.Inside offset (offset + (renderAll ms).length) := by
  match ms with
  | [] => simp [extentsAll]
  | m :: ms =>
    have hlength : (renderAll (m :: ms)).length = m.render.length + (renderAll ms).length := by
      simp only [renderAll, List.length_append]
    refine List.forall_mem_append.mpr ⟨fun e he => ?_, fun e he => ?_⟩
    · exact (extents_inside e he).mono (Nat.le_refl _) (by omega)
    · exact (extentsAll_inside e he).mono (by omega) (by omega)

end

/-! ## The walk -/

mutual

@[simp] theorem size_node (kept : Bool) (m : Markup) : (node kept m).size = m.size := by
  match m with
  | .element name attributes children => simp only [node, Node.size, size, sizeList_nodeAll]
  | .comment s => rfl
  | .text s => rfl

@[simp] theorem sizeList_nodeAll (kept : Bool) (ms : List Markup) :
    Node.sizeList (nodeAll kept ms) = sizeAll ms := by
  match ms with
  | [] => rfl
  | m :: ms => simp only [nodeAll, Node.sizeList, sizeAll, size_node kept m, sizeList_nodeAll kept ms]

end

variable {ignored wanted : List Text} {c : Candidate} {l : Located}

mutual

theorem outside_extents {kept : Bool} {owner : Option (Text × Attributes)} {offset place : Nat}
    {m : Markup} (hc : c ∈ Document.drain ignored wanted [⟨owner, place, node kept m⟩])
    (hl : (c.node, l) ∈ Token.places offset place (tokens [] m)) :
    ∀ e ∈ extents ignored offset m, l.span.Apart e := by
  match m with
  | .element name attributes children =>
    rw [node, Document.drain] at hc
    split at hc
    · rw [Document.drain] at hc
      cases hc
    · rename_i hkept
      rw [extents, if_neg hkept, List.nil_append]
      rw [tokens, Token.places_cons] at hl
      have hchildren : Token.places (offset + (openTag name attributes).length) (place + 1)
          (tokensAll [.closing name] children) =
          Token.places (offset + (openTag name attributes).length) (place + 1) (tokensAll [] children) := by
        rw [tokensAll_eq_append, Token.places_append]
        exact List.append_nil _
      rcases List.mem_append.mp hc with hc | hc
      · -- An attribute is written in the opening tag.
        have hnode := Document.node_of_mem_attributeCandidates hc
        intro e he
        have hinside := (extentsAll_inside e he).lo_le
        rcases List.mem_append.mp hl with hl | hl
        · obtain ⟨-, rfl⟩ := Prod.mk.inj (List.mem_singleton.mp hl)
          exact .inl hinside
        · have hle : place + 1 ≤ c.node := (Token.places_inside hl).1
          omega
      · rw [List.append_nil] at hc
        have hle := Document.le_node_of_mem_drain (fun v hv => (Document.mem_visits hv).1) hc
        rcases List.mem_append.mp hl with hl | hl
        · have hnode : c.node = place := (Prod.mk.inj (List.mem_singleton.mp hl)).1
          omega
        · exact outside_extentsAll hc (hchildren ▸ hl)
  | .comment s => simp [extents]
  | .text s => simp [extents]

/-- No candidate is written in the extent of an ignored element. -/
theorem outside_extentsAll {kept : Bool} {owner : Option (Text × Attributes)} {offset place : Nat}
    {ms : List Markup}
    (hc : c ∈ Document.drain ignored wanted (Document.visits owner place (nodeAll kept ms)))
    (hl : (c.node, l) ∈ Token.places offset place (tokensAll [] ms)) :
    ∀ e ∈ extentsAll ignored offset ms, l.span.Apart e := by
  match ms with
  | [] => simp [extentsAll]
  | m :: ms =>
    rw [nodeAll, Document.visits, ← List.singleton_append, Document.drain_append, size_node] at hc
    rw [tokensAll, places_tokens] at hl
    rcases List.mem_append.mp hc with hc | hc
    · obtain ⟨v, hv, -, hlt⟩ := Document.node_of_mem_drain hc
      rw [List.mem_singleton.mp hv, size_node] at hlt
      have hl : (c.node, l) ∈ Token.places offset place (tokens [] m) := by
        rcases List.mem_append.mp hl with hl | hl
        · exact hl
        · have hle := (Token.places_inside hl).1
          exact absurd hlt (Nat.not_lt.mpr hle)
      have hinside := (Token.places_inside hl).2.2.stop_le
      rw [render_tokens, Token.renderAll_nil, List.append_nil] at hinside
      refine List.forall_mem_append.mpr ⟨outside_extents hc hl, fun e he => .inl ?_⟩
      exact Nat.le_trans hinside (extentsAll_inside e he).lo_le
    · have hle := Document.le_node_of_mem_drain (fun v hv => (Document.mem_visits hv).1) hc
      have hl : (c.node, l) ∈ Token.places (offset + m.render.length) (place + m.size)
          (tokensAll [] ms) := by
        rcases List.mem_append.mp hl with hl | hl
        · have hlt := (Token.places_inside hl).2.1
          rw [count_tokens] at hlt
          exact absurd hlt (Nat.not_lt.mpr hle)
        · exact hl
      have hinside := (Token.places_inside hl).2.2.lo_le
      refine List.forall_mem_append.mpr ⟨fun e he => .inr ?_, outside_extentsAll hc hl⟩
      exact Nat.le_trans (extents_inside e he).stop_le hinside

end

end Markup

end Untranslated
