import Mathlib.Data.List.Nodup
import Untranslated.Proofs.Markup.Soup

/-!
# The strings of compact markup

The walk over the document of compact markup collects exactly the strings that `Markup.writtenAll`
lists (`candidates_treeAll`), and each of them stands at one of the places at which its tokens are
written (`placed_writtenAll`).
-/

namespace Untranslated

namespace Markup

/-! ## The walk -/

mutual

@[simp] theorem size_tree (kept : Bool) (m : Markup) : (tree kept m).size = m.size := by
  match m with
  | .element name attributes children =>
    simp only [tree, Node.size, size, sizeList_treeAll]
  | .comment s => rfl
  | .text s => rfl

@[simp] theorem sizeList_treeAll (kept : Bool) (ms : List Markup) :
    Node.sizeList (treeAll kept ms) = sizeAll ms := by
  match ms with
  | [] => rfl
  | m :: ms => simp only [treeAll, Node.sizeList, sizeAll, size_tree kept m, sizeList_treeAll kept ms]

end

theorem candidates_writtenAttributes (wanted : List Text) (name : Text) (all : List (Text × Text))
    (place offset : Nat) (attributes : List (Text × Text)) :
    (writtenAttributes wanted name all place offset attributes).map Written.candidate =
      ((attributesOf attributes).filter fun (k, _) => Text.lower k ∈ wanted).map fun (k, v) =>
        ⟨.attribute, v.text, renderOpenTag name (attributesOf all), name, some k, place⟩ := by
  induction attributes generalizing offset with
  | nil => rfl
  | cons a attributes ih =>
    obtain ⟨k, v⟩ := a
    have hcons : attributesOf ((k, v) :: attributes) = (k, .single v) :: attributesOf attributes := rfl
    rw [writtenAttributes, List.map_append, ih, hcons, List.filter_cons]
    by_cases hk : Text.lower k ∈ wanted
    · simp [hk, AttributeValue.text]
    · simp [hk]

mutual

theorem drain_tree (ignored wanted : List Text) (kept : Bool) (owner : Option (Text × Attributes))
    (offset place : Nat) (rest : List Document.Visit) (m : Markup) :
    Document.drain ignored wanted (⟨owner, place, tree kept m⟩ :: rest) =
      (written ignored wanted owner offset place m).map Written.candidate ++
        Document.drain ignored wanted rest := by
  match m with
  | .element name attributes children =>
    rw [tree, Document.drain, written]
    split
    · rfl
    · rw [drain_treeAll ignored wanted _ _ (offset + (openTag name attributes).length) (place + 1) rest
        children, List.map_append, candidates_writtenAttributes, List.append_assoc]
      rfl
  | .comment s => simp [tree, written, Document.drain]
  | .text s =>
    rw [tree, Document.drain, written]
    simp [Function.comp_def]

theorem drain_treeAll (ignored wanted : List Text) (kept : Bool) (owner : Option (Text × Attributes))
    (offset place : Nat) (rest : List Document.Visit) (ms : List Markup) :
    Document.drain ignored wanted (Document.visits owner place (treeAll kept ms) ++ rest) =
      (writtenAll ignored wanted owner offset place ms).map Written.candidate ++
        Document.drain ignored wanted rest := by
  match ms with
  | [] => rfl
  | m :: ms =>
    rw [treeAll, Document.visits, List.cons_append, writtenAll, size_tree,
      drain_tree ignored wanted kept owner offset place _ m,
      drain_treeAll ignored wanted kept owner (offset + (render m).length) (place + m.size) rest ms,
      List.map_append, List.append_assoc]

end

/-- The candidates of the document are the strings that were written. -/
theorem candidates_treeAll (ignored wanted : List Text) (ms : List Markup) :
    Document.candidates (treeAll false ms) ignored wanted =
      (writtenAll (ignored.map Text.lower) (wanted.map Text.lower) none 0 0 ms).map
        Written.candidate := by
  have h := drain_treeAll (ignored.map Text.lower) (wanted.map Text.lower) false none 0 0 [] ms
  rwa [List.append_nil, Document.drain, List.append_nil] at h

/-! ## The places -/

mutual

theorem count_tokens (m : Markup) : Token.count (tokens [] m) = m.size := by
  match m with
  | .element name attributes children =>
    have hclosing : Token.count [.closing name] = 0 := rfl
    rw [tokens, tokensAll_eq_append, Token.count_cons, Token.count_append, count_tokensAll, hclosing]
    rfl
  | .comment s => rfl
  | .text s => rfl

theorem count_tokensAll (ms : List Markup) : Token.count (tokensAll [] ms) = sizeAll ms := by
  match ms with
  | [] => rfl
  | m :: ms =>
    rw [tokensAll, tokens_eq_append, Token.count_append, count_tokens m, count_tokensAll ms, sizeAll]

end

/-- Behind the places of a piece come those of the tokens behind it. -/
theorem places_tokens (more : List Token) (offset k : Nat) (m : Markup) :
    Token.places offset k (tokens more m) = Token.places offset k (tokens [] m) ++
      Token.places (offset + m.render.length) (k + m.size) more := by
  rw [tokens_eq_append, Token.places_append, count_tokens, render_tokens, Token.renderAll_nil,
    List.append_nil]

/-- A string stands in the text at one of the places. -/
inductive Written.Placed (text : Text) (places : List (Nat × Located)) : Written → Prop
  | text {c : Candidate} {s : Span} (hkind : c.kind = .text)
      (hvalue : Text.slice text s.start s.stop = c.value) (hstop : s.stop ≤ text.length)
      (hplain : ∀ x ∈ c.value, x ≠ '&') (hplace : (c.node, .text s) ∈ places) :
      Written.Placed text places ⟨c, s, none⟩
  | value {c : Candidate} {k name : Text} {attributes : List (Text × Text)} {offset : Nat}
      {s : Span} {rest : Text} (hkind : c.kind = .attribute) (hname : c.attributeName = some k)
      (htag : IsTag name attributes) (hvalue : (k, c.value) ∈ attributes)
      (htext : text.drop offset = openTag name attributes ++ rest)
      (hspan : ⟨k, s⟩ ∈ OpenTag.attributesFrom (offset + 1 + name.length) attributes)
      (hplace : (c.node, .tag (OpenTag.writtenAt offset name attributes)) ∈ places) :
      Written.Placed text places ⟨c, s, some (openTag name attributes)⟩

theorem Written.Placed.mono {text : Text} {places places' : List (Nat × Located)} {w : Written}
    (h : w.Placed text places) (hsub : places ⊆ places') : w.Placed text places' := by
  cases h with
  | text hkind hvalue hstop hplain hplace => exact .text hkind hvalue hstop hplain (hsub hplace)
  | value hkind hname htag hvalue htext hspan hplace =>
    exact .value hkind hname htag hvalue htext hspan (hsub hplace)

theorem mem_writtenAttributes {wanted : List Text} {name : Text} {all : List (Text × Text)}
    {place offset : Nat} {attributes : List (Text × Text)} {w : Written}
    (h : w ∈ writtenAttributes wanted name all place offset attributes) :
    ∃ k v s, w = ⟨⟨.attribute, v, renderOpenTag name (attributesOf all), name, some k, place⟩, s,
        some (openTag name all)⟩ ∧
      (k, v) ∈ attributes ∧ ⟨k, s⟩ ∈ OpenTag.attributesFrom offset attributes := by
  induction attributes generalizing offset with
  | nil => cases h
  | cons a attributes ih =>
    obtain ⟨k, v⟩ := a
    rw [writtenAttributes] at h
    rcases List.mem_append.mp h with h | h
    · split at h
      · rw [List.mem_singleton.mp h]
        exact ⟨k, v, _, rfl, List.mem_cons_self, List.mem_cons_self⟩
      · cases h
    · obtain ⟨k', v', s, rfl, hmem, hspan⟩ := ih h
      exact ⟨k', v', s, rfl, List.mem_cons_of_mem _ hmem, List.mem_cons_of_mem _ hspan⟩

mutual

theorem placed_written {text : Text} (ignored wanted : List Text)
    (owner : Option (Text × Attributes)) (more : List Token) {offset place : Nat} {rest : Text}
    {m : Markup} (hm : m.WellFormed) (htext : text.drop offset = m.render ++ rest) :
    ∀ w ∈ written ignored wanted owner offset place m,
      w.Placed text (Token.places offset place (tokens more m)) := by
  match m with
  | .element name attributes children =>
    obtain ⟨htag, hchildren⟩ := hm
    have hopen : text.drop offset =
        openTag name attributes ++ (renderAll children ++ (closeTag name ++ rest)) := by
      rw [htext, render]
      simp only [List.append_assoc]
    rw [written]
    split
    · simp
    · refine List.forall_mem_append.mpr ⟨fun w hw => ?_, fun w hw => ?_⟩
      · obtain ⟨k, v, s, rfl, hmem, hspan⟩ := mem_writtenAttributes hw
        exact .value rfl rfl htag hmem hopen hspan List.mem_cons_self
      · refine (placed_writtenAll ignored wanted _ (.closing name :: more) hchildren
          (Text.drop_of_drop hopen) w hw).mono ?_
        exact fun p hp => List.mem_cons_of_mem _ hp
  | .comment s => simp [written]
  | .text s =>
    intro w hw
    rw [written] at hw
    obtain ⟨c, hc, rfl⟩ := List.mem_map.mp hw
    obtain ⟨hkind, hvalue, -, hnode⟩ := Document.mem_textCandidates hc
    refine .text hkind ((Text.slice_of_drop htext).trans hvalue.symm) ?_ ?_ ?_
    · have hlength := congrArg List.length htext
      have hpos : 0 < s.length := by
        refine List.length_pos_iff.mpr fun hnil => ?_
        rw [hnil] at hm
        cases hm.visible
      simp only [render, List.length_drop, List.length_append] at hlength
      simp only
      omega
    · rw [hvalue]
      exact fun x hx => (hm.plain x hx).2
    · rw [hnode]
      exact List.mem_cons_self

/-- Every string that is written stands at one of the places of the tokens. -/
theorem placed_writtenAll {text : Text} (ignored wanted : List Text)
    (owner : Option (Text × Attributes)) (more : List Token) {offset place : Nat} {rest : Text}
    {ms : List Markup} (hms : WellFormedAll ms) (htext : text.drop offset = renderAll ms ++ rest) :
    ∀ w ∈ writtenAll ignored wanted owner offset place ms,
      w.Placed text (Token.places offset place (tokensAll more ms)) := by
  match ms with
  | [] => simp [writtenAll]
  | m :: ms =>
    obtain ⟨hm, -, hrest⟩ := hms
    have hfirst : text.drop offset = m.render ++ (renderAll ms ++ rest) := by
      rw [htext, renderAll, List.append_assoc]
    refine List.forall_mem_append.mpr ⟨?_, fun w hw => ?_⟩
    · exact placed_written ignored wanted owner (tokensAll more ms) hm hfirst
    · exact (placed_writtenAll ignored wanted owner more hrest (Text.drop_of_drop hfirst) w hw).mono
        (by rw [tokensAll, places_tokens]; exact List.subset_append_right _ _)

end

namespace Written.Placed

variable {text : Text} {places : List (Nat × Located)} {w : Written}

/-- What stands in the range of a string is its value. -/
theorem slice (h : w.Placed text places) :
    Text.slice text w.span.start w.span.stop = w.candidate.value := by
  cases h with
  | text _ hvalue _ _ _ => exact hvalue
  | value _ _ htag hvalue htext hspan _ =>
    have hslice := OpenTag.slice_attributesFrom (OpenTag.drop_openTag htext) hspan
    exact (Prod.mk.inj (List.inj_on_of_nodup_map htag.nodup hslice hvalue rfl)).2

theorem stop_le (h : w.Placed text places) : w.span.stop ≤ text.length := by
  cases h with
  | text _ _ hstop _ _ => exact hstop
  | value _ _ _ _ htext hspan _ =>
    exact (OpenTag.attributesFrom_written (OpenTag.drop_openTag htext)).2 _ hspan

theorem plain (h : w.Placed text places) : ∀ x ∈ w.candidate.value, x ≠ '&' := by
  cases h with
  | text _ _ _ hplain _ => exact hplain
  | value _ _ htag hvalue _ _ _ => exact fun x hx => (htag.attribute_value _ hvalue x hx).2

end Written.Placed

end Markup

namespace OpenTag

open Markup

theorem map_name_attributesFrom (offset : Nat) (attributes : List (Text × Text)) :
    (attributesFrom offset attributes).map WrittenAttribute.name = attributes.map Prod.fst := by
  induction attributes generalizing offset with
  | nil => rfl
  | cons a attributes ih => simp only [attributesFrom, List.map_cons, ih]

/-- The attributes of a written opening tag are told apart by their names as they are. -/
theorem attribute?_eq {name : Text} {attributes : List (Text × Text)} {offset : Nat}
    (h : ∀ a ∈ attributes, IsAttributeName a.1) {k : Text} (hk : k ∈ attributes.map Prod.fst) :
    (writtenAt offset name attributes).attribute? k =
      (attributesFrom (offset + 1 + name.length) attributes).reverse.find? fun a => a.name == k := by
  have hlower : ∀ k ∈ attributes.map Prod.fst, Text.lower k = k := by
    intro k hk
    obtain ⟨a, ha, rfl⟩ := List.mem_map.mp hk
    exact lower_eq_self (h a ha).2
  rw [attribute?, ← List.head?_filter, ← List.head?_filter]
  refine congrArg List.head? (List.filter_congr fun a ha => ?_)
  have hname : a.name ∈ attributes.map Prod.fst := by
    rw [← map_name_attributesFrom (offset + 1 + name.length)]
    exact List.mem_map_of_mem (List.mem_reverse.mp ha)
  rw [hlower _ hname, hlower k hk]

/-- An attribute of an opening tag is found by its name. -/
theorem attribute?_writtenAt {name : Text} {attributes : List (Text × Text)} {offset : Nat}
    (h : IsTag name attributes) {a : WrittenAttribute}
    (ha : a ∈ attributesFrom (offset + 1 + name.length) attributes) :
    (writtenAt offset name attributes).attribute? a.name = some a := by
  have hnames := map_name_attributesFrom (offset + 1 + name.length) attributes
  have hnodup : ((attributesFrom (offset + 1 + name.length) attributes).map
      WrittenAttribute.name).Nodup := hnames ▸ h.nodup
  rw [attribute?_eq h.attribute_name (hnames ▸ List.mem_map_of_mem ha)]
  cases hfind : (attributesFrom (offset + 1 + name.length) attributes).reverse.find? fun b =>
      b.name == a.name with
  | none =>
    have := List.find?_eq_none.mp hfind a (List.mem_reverse.mpr ha)
    simp at this
  | some b =>
    have hb := List.mem_reverse.mp (List.mem_of_find?_eq_some hfind)
    rw [List.inj_on_of_nodup_map hnodup hb ha (by simpa using List.find?_some hfind)]

/-- Of the attributes of one name the last one is found. -/
theorem attribute?_last {text : Text} {name : Text} {attributes : List (Text × Text)} {offset : Nat}
    {rest k v : Text} (h : ∀ a ∈ attributes, IsAttributeName a.1)
    (htext : text.drop offset = openTag name attributes ++ rest)
    (hlast : attributes.reverse.find? (fun p => p.1 == k) = some (k, v)) :
    ∃ a ∈ attributesFrom (offset + 1 + name.length) attributes,
      (writtenAt offset name attributes).attribute? k = some a ∧
        Text.slice text a.value.start a.value.stop = v := by
  have hk : k ∈ attributes.map Prod.fst :=
    List.mem_map_of_mem (f := Prod.fst) (List.mem_reverse.mp (List.mem_of_find?_eq_some hlast))
  obtain ⟨hwritten, -⟩ := attributesFrom_written (drop_openTag htext)
  rw [attribute?_eq h hk]
  rw [← hwritten, ← List.map_reverse, List.find?_map] at hlast
  obtain ⟨a, ha, heq⟩ := Option.map_eq_some_iff.mp hlast
  exact ⟨a, List.mem_reverse.mp (List.mem_of_find?_eq_some ha), ha, (Prod.mk.inj heq).2⟩

end OpenTag

namespace Resolver

open Markup

/-- The resolver takes a string that is not empty where it is written. -/
theorem rawRange_placed {src : Source} {d : Document} {places : List (Nat × Located)} {w : Written}
    (h : w.Placed src.text places) (hvalue : w.candidate.value ≠ [])
    (hplaces : ∀ i l missing, (i, l) ∈ places →
      ∃ st, advance src i missing d.indexed (State.start src d) = (.ok l, st)) :
    (rawRange src w.candidate (State.start src d)).1 = .ok (w.span, w.scope) := by
  have hslice := h.slice
  have hseek : ∀ l, (w.candidate.node, l) ∈ places →
      ∃ st, seek src w.candidate (State.start src d) = (.ok l, st) := fun l hl =>
    hplaces w.candidate.node l (missing w.candidate) hl
  cases h with
  | @text c s hkind _ _ _ hplace =>
    obtain ⟨st, hst⟩ := hseek _ hplace
    rw [rawRange, hst]
    simp only [rangeIn, hkind]
  | @value c k name attributes offset s rest hkind hname htag _ htext hspan hplace =>
    obtain ⟨st, hst⟩ := hseek _ hplace
    have hfound := OpenTag.attribute?_writtenAt htag hspan
    have hne : s.start ≠ s.stop := by
      intro heq
      simp only [Text.slice, heq, Nat.sub_self, List.take_zero] at hslice
      exact hvalue hslice.symm
    have hscope : Text.slice src.text offset (offset + (openTag name attributes).length) =
        openTag name attributes := Text.slice_of_drop htext
    rw [rawRange, hst]
    simp only [rangeIn_attribute st hkind hname hfound hne]
    simp only [OpenTag.writtenAt, hscope]

end Resolver

end Untranslated
