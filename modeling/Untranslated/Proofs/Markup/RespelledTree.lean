import Untranslated.Candidate
import Untranslated.Proofs.Markup.Respelled

/-!
# Documents of respelled markup

Builders that read respelled tokens stay in step (`Builder.Respelled.event`), so that respelled markup has
the same document, line breaks in its strings aside (`Document.parse_respelled`). Its candidates come from
the same places (`Document.candidates_respelled`).
-/

namespace Untranslated

open Markup

/-- The attributes have the same name, and line breaks in the value are respelled. -/
def AttributeRespelled (a a' : Text × AttributeValue) : Prop :=
  a'.1 = a.1 ∧ Text.Respelled a.2.text a'.2.text

/-- The nodes are the same, line breaks in strings aside. -/
inductive Node.Respelled : Node → Node → Prop
  | element {name : Text} {attributes attributes' : Attributes} {children children' : List Node}
      (hattributes : List.Forall₂ AttributeRespelled attributes attributes')
      (hchildren : List.Forall₂ Node.Respelled children children') :
      Node.Respelled (.element name attributes children) (.element name attributes' children')
  | leaf {kind : LeafKind} {s s' : Text} (h : Text.Respelled s s') :
      Node.Respelled (.leaf kind s) (.leaf kind s')

/-- The candidates come from the same place, and line breaks in the value are respelled. -/
structure Candidate.Respelled (c c' : Candidate) : Prop where
  kind : c'.kind = c.kind
  tag : c'.tag = c.tag
  attributeName : c'.attributeName = c.attributeName
  node : c'.node = c.node
  value : Text.Respelled c.value c'.value

namespace Node

mutual

theorem Respelled.size_eq {n n' : Node} (h : n.Respelled n') : n'.size = n.size := by
  match n with
  | .element name attributes children =>
    cases h with
    | element _ hchildren => rw [size, size, sizeList_respelled hchildren]
  | .leaf kind s =>
    cases h with
    | leaf => rfl

theorem sizeList_respelled {ns ns' : List Node} (h : List.Forall₂ Node.Respelled ns ns') :
    sizeList ns' = sizeList ns := by
  match ns with
  | [] =>
    cases h
    rfl
  | n :: ns =>
    cases h with
    | cons hn hns => rw [sizeList, sizeList, hn.size_eq, sizeList_respelled hns]

end

end Node

namespace Document

/-! ## Building -/

theorem shrinkSpace_respelled {s s' : Text} (h : Text.Respelled s s') :
    Text.Respelled (shrinkSpace s) (shrinkSpace s') := by
  have hplain : isPlainSpace s' = isPlainSpace s := h.all_eq (by decide)
  have hfeed : '\n' ∈ s' ↔ '\n' ∈ s := h.mem_iff (by decide)
  simp only [shrinkSpace, hplain, hfeed]
  split
  · exact .refl _
  · exact h

theorem any_respelled {pairs pairs' : List (Text × Text)} (h : List.Forall₂ PairRespelled pairs pairs')
    (k : Text) : (pairs'.any fun p => p.1 == k) = pairs.any fun p => p.1 == k := by
  induction h with
  | nil => rfl
  | cons hpair _ ih => rw [List.any_cons, List.any_cons, ih, hpair.1]

/-- Attributes of one name are merged alike. -/
theorem mergeAttributes_respelled {pairs pairs' : List (Text × Text)}
    (h : List.Forall₂ PairRespelled pairs pairs') :
    List.Forall₂ PairRespelled (mergeAttributes pairs) (mergeAttributes pairs') := by
  refine List.rel_foldl (fun done done' hdone a a' ha => ?_) .nil h
  obtain ⟨k, v⟩ := a
  obtain ⟨k', v'⟩ := a'
  obtain ⟨hname, hvalue⟩ := ha
  simp only at hname hvalue ⊢
  subst hname
  rw [any_respelled hdone]
  split
  · rw [List.forall₂_map_left_iff, List.forall₂_map_right_iff]
    refine hdone.imp fun p p' hp => ?_
    rw [hp.1]
    split
    · exact ⟨rfl, hvalue⟩
    · exact hp
  · exact List.rel_append hdone (.cons ⟨rfl, hvalue⟩ .nil)

/-- The attributes of respelled tags have respelled values. -/
theorem attributes_respelled {attributes attributes' : List (Text × Text)}
    (h : List.Forall₂ PairRespelled attributes attributes') :
    List.Forall₂ AttributeRespelled (splitValues [] (mergeAttributes (decoded attributes)))
      (splitValues [] (mergeAttributes (decoded attributes'))) := by
  have hdecoded : List.Forall₂ PairRespelled (decoded attributes) (decoded attributes') := by
    rw [decoded, decoded, List.forall₂_map_left_iff, List.forall₂_map_right_iff]
    exact h.imp fun a a' ha => ⟨ha.1, Reference.decode_respelled ha.2⟩
  rw [splitValues_nil, splitValues_nil, attributesOf, attributesOf, List.forall₂_map_left_iff,
    List.forall₂_map_right_iff]
  exact mergeAttributes_respelled hdecoded

/-- The open elements are the same, line breaks aside. -/
structure Frame.Respelled (f f' : Frame) : Prop where
  name : f'.name = f.name
  attributes : List.Forall₂ AttributeRespelled f.attributes f'.attributes
  children : List.Forall₂ Node.Respelled f.children f'.children

namespace Builder

/-- The builders have read the same, line breaks aside. -/
structure Respelled (b b' : Builder) : Prop where
  frames : List.Forall₂ Frame.Respelled b.frames b'.frames
  top : List.Forall₂ Node.Respelled b.top b'.top
  pending : Option.Rel Text.Respelled b.pending b'.pending
  voids : b'.closedVoids = b.closedVoids

theorem any_frames_respelled {fs fs' : List Frame} (h : List.Forall₂ Frame.Respelled fs fs')
    (p : Text → Bool) : (fs'.any fun f => p f.name) = fs.any fun f => p f.name := by
  induction h with
  | nil => rfl
  | cons hf _ ih => rw [List.any_cons, List.any_cons, ih, hf.name]

namespace Respelled

variable {b b' : Builder}

theorem start : Respelled start start := ⟨.nil, .nil, .none, rfl⟩

theorem add (h : b.Respelled b') {n n' : Node} (hn : n.Respelled n') : (b.add n).Respelled (b'.add n') := by
  obtain ⟨frames, top, pending, voids⟩ := b
  obtain ⟨frames', top', pending', voids'⟩ := b'
  obtain ⟨hframes, htop, hpending, hvoids⟩ := h
  cases hframes with
  | nil => exact ⟨.nil, .cons hn htop, hpending, hvoids⟩
  | cons hf hfs => exact ⟨.cons ⟨hf.name, hf.attributes, .cons hn hf.children⟩ hfs, htop, hpending, hvoids⟩

theorem addLeaf (h : b.Respelled b') (kind : LeafKind) {s s' : Text} (hs : Text.Respelled s s') :
    (b.addLeaf kind s).Respelled (b'.addLeaf kind s') := by
  unfold Builder.addLeaf
  rw [any_frames_respelled h.frames fun name => decide (name ∈ preformatted)]
  refine h.add (.leaf ?_)
  split
  · exact hs
  · exact shrinkSpace_respelled hs

theorem flush (h : b.Respelled b') : b.flush.Respelled b'.flush := by
  obtain ⟨frames, top, pending, voids⟩ := b
  obtain ⟨frames', top', pending', voids'⟩ := b'
  obtain ⟨hframes, htop, hpending, hvoids⟩ := h
  cases hpending with
  | none => exact ⟨hframes, htop, .none, hvoids⟩
  | some hs =>
    have hread : Respelled ⟨frames, top, none, voids⟩ ⟨frames', top', none, voids'⟩ :=
      ⟨hframes, htop, .none, hvoids⟩
    exact hread.addLeaf .text hs

theorem pop (h : b.Respelled b') : b.pop.Respelled b'.pop := by
  obtain ⟨frames, top, pending, voids⟩ := b
  obtain ⟨frames', top', pending', voids'⟩ := b'
  obtain ⟨hframes, htop, hpending, hvoids⟩ := h
  cases hframes with
  | nil => exact ⟨.nil, htop, hpending, hvoids⟩
  | @cons f f' fs fs' hf hfs =>
    have hrest : Respelled ⟨fs, top, pending, voids⟩ ⟨fs', top', pending', voids'⟩ :=
      ⟨hfs, htop, hpending, hvoids⟩
    have helement : Node.Respelled (.element f.name f.attributes f.children.reverse)
        (.element f'.name f'.attributes f'.children.reverse) := by
      rw [hf.name]
      exact .element hf.attributes (List.rel_reverse hf.children)
    exact hrest.add helement

theorem push (h : b.Respelled b') (name : Text) {attributes attributes' : Attributes}
    (ha : List.Forall₂ AttributeRespelled attributes attributes') :
    (b.push name attributes).Respelled (b'.push name attributes') :=
  ⟨.cons ⟨rfl, ha, .nil⟩ h.frames, h.top, h.pending, h.voids⟩

theorem popThrough (name : Text) {fs fs' : List Frame} (hfs : List.Forall₂ Frame.Respelled fs fs')
    (h : b.Respelled b') : (popThrough name fs b).Respelled (popThrough name fs' b') := by
  induction hfs generalizing b b' with
  | nil => exact h
  | cons hf _ ih =>
    rw [Builder.popThrough, Builder.popThrough, hf.name]
    split
    · exact h.pop
    · exact ih h.pop

theorem close (h : b.Respelled b') (name : Text) : (b.close name).Respelled (b'.close name) := by
  unfold Builder.close
  rw [any_frames_respelled h.frames fun name' => decide (name' = name)]
  split
  · exact popThrough name h.frames h
  · exact h

/-- Builders that read respelled tokens stay in step. -/
theorem event (h : b.Respelled b') {t t' : Token} (ht : t.Respelled t') :
    (b.event [] t.event).Respelled (b'.event [] t'.event) := by
  cases ht with
  | @opening name attributes attributes' hpairs =>
    have hpush := h.flush.push name (attributes_respelled hpairs)
    simp only [Token.event, Builder.event]
    split
    · exact ⟨hpush.pop.frames, hpush.pop.top, hpush.pop.pending, by rw [hpush.voids]⟩
    · exact hpush
  | @closing name =>
    simp only [Token.event, Builder.event, h.voids]
    split
    · exact ⟨h.frames, h.top, h.pending, rfl⟩
    · exact h.flush.close name
  | comment hs => exact h.flush.addLeaf .comment hs
  | text hs =>
    have hpending : Text.Respelled (b.pending.getD []) (b'.pending.getD []) := by
      have hpending := h.pending
      generalize b.pending = pending, b'.pending = pending' at hpending
      cases hpending with
      | none => exact .nil
      | some hpending => exact hpending
    exact ⟨h.frames, h.top, .some (hpending.append hs), h.voids⟩

theorem feed (h : b.Respelled b') {ts ts' : List Token} (hts : List.Forall₂ Token.Respelled ts ts') :
    (b.feed ts).Respelled (b'.feed ts') := by
  induction hts generalizing b b' with
  | nil => exact h
  | cons ht _ ih => exact ih (h.event ht)

/-- The documents that the builders end with are the same, line breaks aside. -/
theorem finish (h : b.Respelled b') : List.Forall₂ Node.Respelled b.finish b'.finish := by
  have hpops : ∀ {fs fs' : List Frame}, List.Forall₂ Frame.Respelled fs fs' → ∀ {b b' : Builder},
      b.Respelled b' →
      (fs.foldl (fun b _ => b.pop) b).Respelled (fs'.foldl (fun b _ => b.pop) b') := by
    intro fs fs' hfs
    induction hfs with
    | nil => exact id
    | cons _ _ ih => exact fun h => ih h.pop
  exact List.rel_reverse (hpops h.flush.frames h.flush).top

end Respelled

end Builder

/-- Respelled markup is read as respelled documents. -/
theorem parse_respelled {ts ts' : List Token} (h : Token.Spaced Token.IsTame ts)
    (hts : List.Forall₂ Token.Respelled ts ts') :
    ∃ d d', parse [] (Token.renderAll ts) = .ok d ∧ Token.Listed 0 ts d.indexed ∧
      parse [] (Token.renderAll ts') = .ok d' ∧ Token.Listed 0 ts' d'.indexed ∧
      List.Forall₂ Node.Respelled d d' := by
  have hread : ∀ {ts : List Token}, Token.Spaced Token.IsTame ts →
      parse [] (Token.renderAll ts) = .ok (Builder.start.feed ts).finish ∧
        Token.Listed 0 ts (indexed (Builder.start.feed ts).finish) := by
    intro ts h
    have hparse := parse_tokens (h.imp fun t _ ht => ht.isLegible)
    obtain ⟨d, hd, hlisted⟩ := parse_soup (fun _ => Token.IsTame.isLegible) (fun _ ht => ht.2) h
    obtain rfl := Except.ok.inj (hparse.symm.trans hd)
    exact ⟨hparse, hlisted⟩
  obtain ⟨hparse, hlisted⟩ := hread h
  obtain ⟨hparse', hlisted'⟩ := hread (h.respelled hts)
  exact ⟨_, _, hparse, hlisted, hparse', hlisted', (Builder.Respelled.start.feed hts).finish⟩

/-! ## Candidates -/

/-- The elements that own a string have the same name and attributes, line breaks aside. -/
def OwnerRespelled (o o' : Text × Attributes) : Prop :=
  o'.1 = o.1 ∧ List.Forall₂ AttributeRespelled o.2 o'.2

/-- The nodes to visit are the same, line breaks aside. -/
structure Visit.Respelled (v v' : Visit) : Prop where
  owner : Option.Rel OwnerRespelled v.owner v'.owner
  place : v'.place = v.place
  node : v.node.Respelled v'.node

theorem visits_respelled {owner owner' : Option (Text × Attributes)}
    (howner : Option.Rel OwnerRespelled owner owner') (place : Nat) {ns ns' : List Node}
    (h : List.Forall₂ Node.Respelled ns ns') :
    List.Forall₂ Visit.Respelled (visits owner place ns) (visits owner' place ns') := by
  induction h generalizing place with
  | nil => exact .nil
  | cons hn _ ih =>
    rw [visits, visits, hn.size_eq]
    exact .cons ⟨howner, rfl, hn⟩ (ih _)

theorem attributeCandidates_respelled (wanted : List Text) (place : Nat) (name : Text)
    {attributes attributes' : Attributes} (h : List.Forall₂ AttributeRespelled attributes attributes') :
    List.Forall₂ Candidate.Respelled (attributeCandidates wanted place name attributes)
      (attributeCandidates wanted place name attributes') := by
  unfold attributeCandidates
  rw [List.forall₂_map_left_iff, List.forall₂_map_right_iff]
  refine (List.rel_filter (fun a a' ha => ?_) h).imp fun a a' ha => ?_
  · simp only [ha.1]
  · exact ⟨rfl, rfl, congrArg some ha.1, rfl, ha.2⟩

theorem textCandidates_respelled {owner owner' : Option (Text × Attributes)}
    (howner : Option.Rel OwnerRespelled owner owner') (place : Nat) {s s' : Text}
    (h : Text.Respelled s s') :
    List.Forall₂ Candidate.Respelled (textCandidates owner place s) (textCandidates owner' place s') := by
  cases howner with
  | none => exact .nil
  | some howner => exact .cons ⟨rfl, howner.1, rfl, rfl, h⟩ .nil

theorem drain_respelled (ignored wanted : List Text) {stack stack' : List Visit}
    (h : List.Forall₂ Visit.Respelled stack stack') :
    List.Forall₂ Candidate.Respelled (drain ignored wanted stack) (drain ignored wanted stack') := by
  fun_induction drain ignored wanted stack generalizing stack' with
  | case1 =>
    cases h
    rw [drain]
    exact .nil
  | case2 owner place kind s rest ih =>
    obtain ⟨⟨owner', place', node'⟩, rest', ⟨howner, hplace, hnode⟩, hrest, rfl⟩ :=
      List.forall₂_cons_left_iff.mp h
    cases hnode with
    | leaf hs =>
      obtain rfl : place' = place := hplace
      rw [drain]
      refine List.rel_append ?_ (ih hrest)
      split
      · exact textCandidates_respelled howner place' hs
      · exact .nil
  | case3 owner place name attributes children rest hignored ih =>
    obtain ⟨⟨owner', place', node'⟩, rest', ⟨howner, hplace, hnode⟩, hrest, rfl⟩ :=
      List.forall₂_cons_left_iff.mp h
    cases hnode with
    | element hattributes hchildren =>
      rw [drain, if_pos hignored]
      exact ih hrest
  | case4 owner place name attributes children rest hignored ih =>
    obtain ⟨⟨owner', place', node'⟩, rest', ⟨howner, hplace, hnode⟩, hrest, rfl⟩ :=
      List.forall₂_cons_left_iff.mp h
    cases hnode with
    | @element _ _ attributes' _ _ hattributes hchildren =>
      obtain rfl : place' = place := hplace
      rw [drain, if_neg hignored]
      have howner : OwnerRespelled (name, attributes) (name, attributes') := ⟨rfl, hattributes⟩
      have hvisits := visits_respelled (.some howner) (place' + 1) hchildren
      exact List.rel_append (attributeCandidates_respelled wanted place' name hattributes)
        (ih (List.rel_append hvisits hrest))

/-- Respelled documents have the same candidates. -/
theorem candidates_respelled {d d' : Document} (h : List.Forall₂ Node.Respelled d d')
    (ignored wanted : List Text) :
    List.Forall₂ Candidate.Respelled (d.candidates ignored wanted) (d'.candidates ignored wanted) :=
  drain_respelled _ _ (visits_respelled .none 0 h)

end Document

end Untranslated
