import Untranslated.Proofs.Markup.Gap
import Untranslated.Proofs.Locate.Independence

/-!
# Locating the nodes of compact markup

`Token.places` lists the nodes of a sequence of tokens with the ranges at which they are written. The
resolver finds exactly these (`advance_places`). The invariant, `At`, is that the cursor stands behind
the node located last, with only a gap before the tokens still to come.
-/

namespace Untranslated

namespace Markup

theorem length_pair (k v : Text) : (pair k v).length = k.length + v.length + 4 := by
  simp only [pair, List.length_append, List.length_cons, List.length_nil]
  omega

theorem length_renderAttributes_cons (k v : Text) (rest : List (Text × Text)) :
    (renderAttributes ((k, v) :: rest)).length =
      (pair k v).length + (renderAttributes rest).length := by
  simp [renderAttributes]

end Markup

namespace OpenTag

open Markup

/-- The attributes of a tag with the ranges of their values, written from the offset on. -/
def attributesFrom : Nat → List (Text × Text) → List WrittenAttribute
  | _, [] => []
  | offset, (k, v) :: rest =>
    ⟨k, ⟨offset + k.length + 3, offset + k.length + 3 + v.length⟩⟩ ::
      attributesFrom (offset + (pair k v).length) rest

theorem valuePlace_quoted {v : Text} (h : ∀ c ∈ v, c ≠ '"') (rest : Text) :
    valuePlace ('=' :: '"' :: v ++ '"' :: rest) = (2, 2 + v.length, 3 + v.length) := by
  have hfind : Text.find? ['"'] (v ++ '"' :: rest) = some v.length :=
    Text.find?_singleton_append h rest
  have hsign : ('=' :: '"' :: v ++ '"' :: rest).takeWhile Text.isSpace = [] := by
    rw [List.cons_append, List.takeWhile_cons_of_neg (by decide)]
  have hquote : ('"' :: (v ++ '"' :: rest)).takeWhile Text.isSpace = [] := by
    rw [List.takeWhile_cons_of_neg (by decide)]
  rw [valuePlace, hsign]
  simp only [List.length_nil, List.drop_zero, List.cons_append, hquote, hfind]

theorem scanFrom_end (pos : Nat) (rest : Text) : scanFrom pos ('>' :: rest) = ([], pos + 1) := by
  have hgap : gapLength ('>' :: rest) = 0 := by
    rw [gapLength, if_neg (by decide), if_neg (by simp)]
  rw [scanFrom]
  split
  · rename_i heq
    rw [hgap] at heq
    cases heq
  · rename_i c more heq
    rw [hgap] at heq
    cases heq
    rw [if_pos rfl, hgap]

/-- An attribute is read where it is written, and reading goes on behind it. -/
theorem scanFrom_pair {k v : Text} (hk : IsAttributeName k) (hv : ∀ c ∈ v, c ≠ '"') (pos : Nat)
    (tail : Text) :
    scanFrom pos (pair k v ++ tail) =
      (⟨k, ⟨pos + k.length + 3, pos + k.length + 3 + v.length⟩⟩ ::
          (scanFrom (pos + (pair k v).length) tail).1,
        (scanFrom (pos + (pair k v).length) tail).2) := by
  have hwhole : pair k v ++ tail = ' ' :: (k ++ ('=' :: '"' :: v ++ '"' :: tail)) := by simp [pair]
  have htake : (k ++ ('=' :: '"' :: v ++ '"' :: tail)).takeWhile isNameChar = k := by
    have hletters : ∀ c ∈ k, isNameChar c = true := fun c hc =>
      of_nameLetters (p := isNameChar) (by decide) (hk.2 c hc)
    rw [List.takeWhile_append_of_pos hletters, List.cons_append,
      List.takeWhile_cons_of_neg (by decide), List.append_nil]
  have hdrop : (k ++ ('=' :: '"' :: v ++ '"' :: tail)).drop (k.length + (3 + v.length)) = tail := by
    have hlength : ('=' :: '"' :: v ++ ['"']).length = 3 + v.length := by simp; omega
    rw [← hlength, ← List.length_append, ← List.append_assoc, ← List.singleton_append (l := tail),
      ← List.append_assoc, ← List.append_assoc, List.drop_left]
  have hnext : pos + 1 + k.length + (3 + v.length) = pos + (pair k v).length := by
    rw [length_pair]
    omega
  obtain ⟨c, more, rfl, -, hall⟩ := IsAttributeName.cons hk
  have hc := hall c List.mem_cons_self
  have hspace : Text.isSpace c = false := isSpace_of_nameLetter hc
  have hslash : c ≠ '/' := ne_of_nameLetter hc (by decide)
  have hbracket : c ≠ '>' := ne_of_nameLetter hc (by decide)
  have hgap : gapLength (' ' :: (c :: more ++ ('=' :: '"' :: v ++ '"' :: tail))) = 1 := by
    rw [gapLength, if_pos (by decide), List.cons_append, gapLength, if_neg (by simp [hspace]),
      if_neg (by simp [hslash])]
  rw [hwhole, scanFrom]
  split
  · rename_i heq
    rw [hgap] at heq
    cases heq
  · rename_i d after heq
    rw [hgap, List.drop_one, List.tail_cons] at heq
    have hnot : ¬ (d = '>') ∧ ¬ (d = '/' ∧ after.head? = some '>') := by
      obtain ⟨rfl, -⟩ := List.cons.inj heq
      exact ⟨hbracket, fun h => hslash h.1⟩
    rw [if_neg hnot.1, if_neg hnot.2, ← heq]
    simp only [htake]
    rw [if_neg (by simp), List.drop_left, valuePlace_quoted hv, hgap]
    simp only [hdrop, hnext]
    congr 3
    congr 1 <;> omega

/-- The attributes of an opening tag are found where they are written. -/
theorem scanFrom_render {attributes : List (Text × Text)}
    (hname : ∀ a ∈ attributes, IsAttributeName a.1)
    (hvalue : ∀ a ∈ attributes, ∀ c ∈ a.2, c ≠ '"') (pos : Nat) (rest : Text) :
    scanFrom pos (renderAttributes attributes ++ '>' :: rest) =
      (attributesFrom pos attributes, pos + (renderAttributes attributes).length + 1) := by
  induction attributes generalizing pos with
  | nil => exact scanFrom_end pos rest
  | cons a attributes ih =>
    obtain ⟨k, v⟩ := a
    obtain ⟨hk, hnames⟩ := List.forall_mem_cons.mp hname
    obtain ⟨hv, hvalues⟩ := List.forall_mem_cons.mp hvalue
    have hcons : renderAttributes ((k, v) :: attributes) ++ '>' :: rest =
        pair k v ++ (renderAttributes attributes ++ '>' :: rest) := by simp [renderAttributes]
    rw [hcons, scanFrom_pair hk hv, ih hnames hvalues, attributesFrom, length_renderAttributes_cons,
      ← Nat.add_assoc]

/-- The opening tag of an element, written from the offset on. -/
def writtenAt (offset : Nat) (name : Text) (attributes : List (Text × Text)) : OpenTag :=
  ⟨offset, offset + (openTag name attributes).length,
    attributesFrom (offset + 1 + name.length) attributes⟩

theorem length_openTag (name : Text) (attributes : List (Text × Text)) :
    (openTag name attributes).length = 1 + name.length + (renderAttributes attributes).length + 1 := by
  simp only [openTag, List.length_append, List.length_cons, List.length_nil]
  omega

/-- Behind the name of an opening tag stand its attributes. -/
theorem drop_openTag {name : Text} {attributes : List (Text × Text)} {text : Text} {o : Nat}
    {rest : Text} (htext : text.drop o = openTag name attributes ++ rest) :
    text.drop (o + 1 + name.length) = renderAttributes attributes ++ '>' :: rest := by
  have hlength : ('<' :: name).length = 1 + name.length := by simp [Nat.add_comm]
  rw [Nat.add_assoc, ← hlength]
  exact Text.drop_of_drop (htext.trans (openTag_append name attributes rest))

/-- An opening tag is scanned as it is written. -/
theorem scan_openTag {name : Text} {attributes : List (Text × Text)} (h : IsOpening name attributes)
    {text : Text} {o : Nat} {rest : Text} (htext : text.drop o = openTag name attributes ++ rest) :
    scan text o (o + 1 + name.length) = writtenAt o name attributes := by
  have hdrop := drop_openTag htext
  have hlt : o + 1 + name.length < text.length := by
    have := congrArg List.length hdrop
    simp only [List.length_drop, List.length_append, List.length_cons] at this
    omega
  rw [scan, if_pos hlt, hdrop, scanFrom_render h.attribute_name h.no_quote]
  simp only [writtenAt, length_openTag]
  congr 1
  omega

/-- The values of an opening tag are written in the ranges recorded for them. -/
theorem attributesFrom_written {text : Text} {attributes : List (Text × Text)} {pos : Nat} {rest : Text}
    (htext : text.drop pos = renderAttributes attributes ++ rest) :
    (attributesFrom pos attributes).map
        (fun a => (a.name, Text.slice text a.value.start a.value.stop)) = attributes ∧
      ∀ a ∈ attributesFrom pos attributes, a.value.stop ≤ text.length := by
  induction attributes generalizing pos with
  | nil => simp [attributesFrom]
  | cons kv attributes ih =>
    obtain ⟨k, v⟩ := kv
    have hwhole : text.drop pos = pair k v ++ (renderAttributes attributes ++ rest) := by
      rw [htext]
      simp [renderAttributes]
    have hvalue : text.drop (pos + k.length + 3) =
        v ++ ('"' :: (renderAttributes attributes ++ rest)) := by
      have hlength : (' ' :: k ++ ['=', '"']).length = k.length + 3 := by simp
      rw [Nat.add_assoc, ← hlength]
      exact Text.drop_of_drop (hwhole.trans (by simp [pair]))
    obtain ⟨hmap, hstops⟩ := ih (Text.drop_of_drop hwhole)
    rw [attributesFrom]
    refine ⟨?_, List.forall_mem_cons.mpr ⟨?_, hstops⟩⟩
    · rw [List.map_cons, hmap, Text.slice_of_drop hvalue]
    · have := congrArg List.length hvalue
      simp only [List.length_drop, List.length_append, List.length_cons] at this
      simp only
      omega

theorem slice_attributesFrom {text : Text} {attributes : List (Text × Text)} {pos : Nat} {rest : Text}
    (htext : text.drop pos = renderAttributes attributes ++ rest) {a : WrittenAttribute}
    (ha : a ∈ attributesFrom pos attributes) :
    (a.name, Text.slice text a.value.start a.value.stop) ∈ attributes := by
  have hmem := List.mem_map_of_mem
    (f := fun a : WrittenAttribute => (a.name, Text.slice text a.value.start a.value.stop)) ha
  rwa [(attributesFrom_written htext).1] at hmem

end OpenTag

namespace Resolver

open Markup

variable {src : Source}

/-! ## Where the cursor stands -/

/-- The cursor stands behind the node located last: a gap is left before the tokens still to come. -/
structure At (src : Source) (st : State) (gap ts : List Token) : Prop where
  synced : Synced src st
  cursor_le : st.cursor ≤ src.text.length
  rest : src.text.drop st.cursor = Token.renderAll gap ++ Token.renderAll ts
  gap : Token.Gap gap
  sound : Token.Spaced Token.WellFormed ts

theorem startsTag_openTag {name : Text} {attributes : List (Text × Text)} (h : IsName name)
    (rest : Text) : startsTag name (openTag name attributes ++ rest) = true := by
  refine startsTag_iff.mpr ⟨name, _, openTag_append name attributes rest, ?_, ?_⟩
  · refine List.forall₂_same.mpr fun c hc => ?_
    exact of_nameLetters (p := fun c => Text.sameLetter c c) (by decide) (.inl (h.2 c hc))
  · cases attributes with
    | nil => simp [renderAttributes]
    | cons a attributes =>
      intro c hc
      obtain rfl : ' ' = c := by simpa [renderAttributes, pair] using hc
      decide

/-- Behind a lag, the next opening tag of an element is its own one: what looks like it in the lag is
hidden. -/
theorem tagPlace_lag {st : State} (hsync : Synced src st) {P : Char → Prop} {Q : Text → Prop} {lag : Text}
    (h : Lag P Q lag) {name after : Text} {attributes : List (Text × Text)} (hname : IsName name)
    (hrest : src.text.drop st.cursor = lag ++ (openTag name attributes ++ after)) :
    tagPlace src name st = some (st.cursor + lag.length) := by
  obtain ⟨found, hfound, hbounds⟩ := tagStarts_lag hname h st.cursor (openTag name attributes ++ after)
  have hspans : Hidden.spans src.text st.cursor =
      Hidden.spansFrom st.cursor (lag ++ (openTag name attributes ++ after)) := by
    rw [Hidden.spans, hrest]
  have hhidden : ∀ o ∈ found, st.hides src o = true := by
    intro o ho
    obtain ⟨hge, hlt⟩ := hbounds o ho
    have hmem : o ∈ tagStarts name st.cursor 0 (src.text.drop st.cursor) := by
      rw [hrest, hfound]
      exact List.mem_append_left _ ho
    have hstarts := (startsTag_of_mem_tagStarts src rfl o hmem).2
    obtain ⟨j, rfl⟩ := Nat.exists_eq_add_of_le hge
    rw [← List.drop_drop, hrest] at hstarts
    obtain ⟨s, hs, hstart, hstop⟩ :=
      Hidden.hidden_of_startsTag h hname st.cursor _ (by omega) hstarts
    rw [hsync.hides hge, hspans, List.any_eq_true]
    exact ⟨s, hs, by simp only [Span.contains, Bool.and_eq_true, decide_eq_true_eq]; omega⟩
  have hvisible : st.hides src (st.cursor + lag.length) = false := by
    obtain ⟨c, more, rfl, -, hall⟩ := hname.isAttributeName.cons
    have hmark : c ≠ '!' := ne_of_nameLetter (hall c List.mem_cons_self) (by decide)
    have hquestion : c ≠ '?' := ne_of_nameLetter (hall c List.mem_cons_self) (by decide)
    rw [hsync.hides (Nat.le_add_right _ _), hspans, List.any_eq_false]
    intro s hs
    have := Hidden.not_hidden_behind_lag h st.cursor
      (by rw [openTag_append]; exact Hidden.length?_of_next hmark hquestion _) s hs
    simp only [Span.contains, Bool.and_eq_true, decide_eq_true_eq]
    omega
  obtain ⟨others, hothers⟩ : ∃ others, tagStarts name (st.cursor + lag.length) 0
      (openTag name attributes ++ after) = (st.cursor + lag.length) :: others := by
    have hstarts : startsTag name (openTag name attributes ++ after) = true :=
      startsTag_openTag hname after
    rw [openTag_append, List.cons_append] at hstarts ⊢
    exact ⟨_, by rw [tagStarts, if_pos hstarts]⟩
  rw [tagPlace, hrest, hfound, hothers, List.find?_append,
    List.find?_eq_none.mpr (by simpa using hhidden), Option.none_or, List.find?_cons_of_pos]
  simp [hvisible]

/-- A written opening tag has no references that could not be read. -/
theorem agrees_openTag {name : Text} {attributes : List (Text × Text)} (h : IsOpening name attributes)
    {o : Nat} {rest : Text} (htext : src.text.drop o = openTag name attributes ++ rest)
    (parsed : Attributes) :
    ∃ same, agrees src name parsed (OpenTag.writtenAt o name attributes) = .ok same := by
  have hoverlong : ((OpenTag.writtenAt o name attributes).attributes.findSome? fun a =>
      Reference.overlong? (writtenValue src a)) = none := by
    refine List.findSome?_eq_none_iff.mpr fun a ha => ?_
    exact h.readable _ (OpenTag.slice_attributesFrom (OpenTag.drop_openTag htext) ha)
  unfold agrees
  rw [hoverlong]
  split
  · exact ⟨_, rfl⟩
  · exact ⟨_, rfl⟩

/-- Behind a lag, an element is located at its own opening tag. -/
theorem locate_opening {st : State} (hsync : Synced src st) {P : Char → Prop} {Q : Text → Prop}
    {lag : Text} (h : Lag P Q lag) {name after : Text} {attributes : List (Text × Text)}
    (htag : IsOpening name attributes)
    (hrest : src.text.drop st.cursor = lag ++ (openTag name attributes ++ after)) (strict : Bool)
    (parsed : Attributes) (children : List Node) :
    ∃ st', Looked src st st' ∧ locate src strict st (.element name parsed children) =
      (.ok (some (.tag (OpenTag.writtenAt (st.cursor + lag.length) name attributes))),
        st'.moveTo (.ok (some (.tag (OpenTag.writtenAt (st.cursor + lag.length) name attributes))))) := by
  have hopen : src.text.drop (st.cursor + lag.length) = openTag name attributes ++ after :=
    Text.drop_of_drop hrest
  obtain ⟨same, hsame⟩ := agrees_openTag htag hopen parsed
  obtain ⟨st', hl, -, he⟩ := locateTag_eq src name parsed strict st
  rw [tagPlace_lag hsync h htag.is_name hrest, tagResult, OpenTag.scan_openTag htag hopen, hsame] at he
  exact ⟨st', hl, he⟩

/-! ## One token -/

theorem At.moveTo {st st' : State} {gap ts : List Token} {t : Token} (h : At src st gap (t :: ts))
    (hl : Looked src st st') {l : Located}
    (hstop : l.span.stop = st.cursor + (Token.renderAll gap).length + t.render.length) :
    At src (st'.moveTo (.ok (some l))) [] ts := by
  have hrest : src.text.drop l.span.stop = Token.renderAll ts := by
    rw [hstop, Nat.add_assoc, ← List.length_append]
    refine Text.drop_of_drop (h.rest.trans ?_)
    rw [Token.renderAll_cons, List.append_assoc]
  have hlength := congrArg List.length h.rest
  simp only [List.length_drop, List.length_append, Token.renderAll_cons] at hlength
  refine ⟨(h.synced.looked hl).moveTo fun l' hl' => ?_, ?_, hrest, .nil, h.sound.2.2⟩
  · obtain rfl : l = l' := Option.some.inj (Except.ok.inj hl')
    rw [hl.cursor, hstop]
    omega
  · have := h.cursor_le
    simp only [State.moveTo, hstop]
    omega

/-- An element is located at its own opening tag. -/
theorem At.opening {st : State} {gap ts : List Token} {name : Text}
    {attributes : List (Text × Text)} (h : At src st gap (.opening name attributes :: ts))
    (strict : Bool) (parsed : Attributes) (children : List Node) :
    ∃ st', locate src strict st (.element name parsed children) =
        (.ok (some (.tag
          (OpenTag.writtenAt (st.cursor + (Token.renderAll gap).length) name attributes))), st') ∧
      At src st' [] ts ∧ st'.cursor =
        st.cursor + (Token.renderAll gap).length + (openTag name attributes).length := by
  have hlag : Lag (fun _ => True) (fun _ => True) (Token.renderAll gap) := h.gap.lag
  obtain ⟨st', hl, he⟩ :=
    locate_opening h.synced hlag h.sound.1.isOpening h.rest strict parsed children
  exact ⟨_, he, h.moveTo hl rfl, rfl⟩

/-- A text is looked for first where it is written. -/
theorem At.textStart {st : State} {gap ts : List Token} {s : Text}
    (h : At src st gap (.text s :: ts)) :
    Resolver.textStart src s st.cursor = st.cursor + (Token.renderAll gap).length := by
  have htext : IsText s := h.sound.1
  have hrest := h.rest
  rw [Token.renderAll_cons, Token.render] at hrest
  obtain ⟨c, more, rfl⟩ : ∃ c more, s = c :: more := by
    cases s with
    | nil => cases htext.visible
    | cons c more => exact ⟨c, more, rfl⟩
  have hc : c ≠ '<' := (htext.plain c List.mem_cons_self).1
  have hgap : Hidden.gapLength (src.text.drop st.cursor) = (Token.renderAll gap).length := by
    rw [hrest]
    exact Hidden.gapLength_gap h.gap (by simpa using hc)
  rw [Resolver.textStart, hgap, hrest]
  split
  · rename_i hstarts
    -- The gap is empty, since otherwise a bracket would stand at the cursor.
    cases h.gap with
    | nil => rfl
    | closing => simp [Token.render, closeTag, Text.startsWith, hc] at hstarts
    | comment => simp [Token.render, commentTag, Text.startsWith, hc] at hstarts
  · rfl

/-- A text is located where it is written. -/
theorem At.text {st : State} {gap ts : List Token} {s : Text} (h : At src st gap (.text s :: ts))
    (strict : Bool) :
    ∃ st', locate src strict st (.leaf .text s) =
        (.ok (some (.text ⟨st.cursor + (Token.renderAll gap).length,
          st.cursor + (Token.renderAll gap).length + s.length⟩)), st') ∧
      At src st' [] ts ∧
      st'.cursor = st.cursor + (Token.renderAll gap).length + s.length := by
  have hrest : src.text.drop (st.cursor + (Token.renderAll gap).length) =
      s ++ Token.renderAll ts := Text.drop_of_drop h.rest
  have hstart := h.textStart
  have hstarts : Text.startsWith s (src.text.drop (st.cursor + (Token.renderAll gap).length)) = true :=
    Text.startsWith_iff.mpr (hrest ▸ List.prefix_append _ _)
  obtain ⟨st', hl, he⟩ := locateText_eq src s strict st
  simp only [textResult, hstart, hstarts, if_true] at he
  exact ⟨_, he, h.moveTo hl rfl, rfl⟩

/-- A token that nothing is located at widens the gap. -/
theorem At.widen {st : State} {gap ts : List Token} {t : Token} (h : At src st gap (t :: ts))
    (ht : Token.Gap [t]) : At src st (gap ++ [t]) ts where
  synced := h.synced
  cursor_le := h.cursor_le
  rest := by simpa [Token.renderAll] using h.rest
  gap := h.gap.append ht
  sound := h.sound.2.2

theorem At.congr {st st' : State} {gap ts : List Token} (h : At src st gap ts)
    (hcursor : st'.cursor = st.cursor) (hhidden : st'.hidden = st.hidden) : At src st' gap ts where
  synced := by
    obtain ⟨p, hp, he⟩ := h.synced
    exact ⟨p, hcursor ▸ hp, hhidden.trans he⟩
  cursor_le := hcursor ▸ h.cursor_le
  rest := by rw [hcursor, h.rest]
  gap := h.gap
  sound := h.sound

end Resolver

/-! ## All tokens -/

namespace Markup

/-- The nodes of tokens that are written from the offset on, with their numbers, the first of which is
`k`, and their places. Comments have none. -/
def Token.places : Nat → Nat → List Token → List (Nat × Located)
  | _, _, [] => []
  | offset, k, .opening name attributes :: ts =>
    (k, .tag (OpenTag.writtenAt offset name attributes)) ::
      places (offset + (openTag name attributes).length) (k + 1) ts
  | offset, k, .closing name :: ts => places (offset + (closeTag name).length) k ts
  | offset, k, .comment s :: ts => places (offset + (commentTag s).length) (k + 1) ts
  | offset, k, .text s :: ts =>
    (k, .text ⟨offset, offset + s.length⟩) :: places (offset + s.length) (k + 1) ts

namespace Token

/-- Whether a token is an end tag. -/
def isClosing : Token → Bool
  | .closing _ => true
  | _ => false

/-- How many nodes tokens stand for. -/
def count (ts : List Token) : Nat := ts.countP fun t => !t.isClosing

/-- The place of a token that is written at the offset. End tags and comments have none. -/
def place? (offset : Nat) : Token → Option Located
  | .opening name attributes => some (.tag (OpenTag.writtenAt offset name attributes))
  | .text s => some (.text ⟨offset, offset + s.length⟩)
  | _ => none

theorem places_cons (offset k : Nat) (t : Token) (ts : List Token) :
    places offset k (t :: ts) = ((t.place? offset).map fun l => (k, l)).toList ++
      places (offset + t.render.length) (k + count [t]) ts := by
  cases t <;> rfl

theorem count_append (ts us : List Token) : count (ts ++ us) = count ts + count us :=
  List.countP_append

theorem count_cons (t : Token) (ts : List Token) : count (t :: ts) = count [t] + count ts :=
  count_append [t] ts

/-- A token with a place is written there, and it stands for a node. -/
theorem span_of_place? {offset : Nat} {t : Token} {l : Located} (h : t.place? offset = some l) :
    l.span = ⟨offset, offset + t.render.length⟩ ∧ count [t] = 1 := by
  cases t with
  | opening name attributes =>
    obtain rfl := Option.some.inj h
    exact ⟨rfl, rfl⟩
  | closing name => cases h
  | comment s => cases h
  | text s =>
    obtain rfl := Option.some.inj h
    exact ⟨rfl, rfl⟩

/-- The numbers and the ranges of the places of tokens. -/
theorem places_inside {offset k i : Nat} {ts : List Token} {l : Located}
    (h : (i, l) ∈ places offset k ts) :
    k ≤ i ∧ i < k + count ts ∧ l.span.Inside offset (offset + (renderAll ts).length) := by
  induction ts generalizing offset k with
  | nil => cases h
  | cons t ts ih =>
    rw [places_cons] at h
    rw [count_cons, renderAll_cons, List.length_append]
    rcases List.mem_append.mp h with h | h
    · obtain ⟨l', hplace, heq⟩ := Option.map_eq_some_iff.mp (Option.mem_toList.mp h)
      obtain ⟨rfl, rfl⟩ := Prod.mk.inj heq
      obtain ⟨hspan, hcount⟩ := span_of_place? hplace
      refine ⟨Nat.le_refl _, by omega, ?_⟩
      rw [hspan]
      exact ⟨Nat.le_refl _, Nat.le_add_right _ _, by simp only; omega⟩
    · obtain ⟨hle, hlt, hinside⟩ := ih h
      exact ⟨by omega, by omega, hinside.mono (by omega) (by omega)⟩

theorem places_append (offset k : Nat) (ts us : List Token) :
    places offset k (ts ++ us) =
      places offset k ts ++ places (offset + (renderAll ts).length) (k + count ts) us := by
  induction ts generalizing offset k with
  | nil => rfl
  | cons t ts ih =>
    rw [List.cons_append, places_cons, places_cons, ih, count_cons t ts, renderAll_cons,
      List.length_append, List.append_assoc, Nat.add_assoc, Nat.add_assoc]

end Token

theorem Token.length_renderAll_snoc (ts : List Token) (t : Token) :
    (Token.renderAll (ts ++ [t])).length = (Token.renderAll ts).length + t.render.length := by
  simp [Token.renderAll]

/-- The token is read as the node. Texts of nothing but space may shrink. -/
inductive Token.Denotes : Token → Node → Prop
  | opening {name : Text} {attributes : List (Text × Text)} {children : List Node} :
      Token.Denotes (.opening name attributes)
        (.element name (attributesOf (Document.mergeAttributes (decoded attributes))) children)
  | comment {s kept : Text} : Token.Denotes (.comment s) (.leaf .comment kept)
  | text {s : Text} : Token.Denotes (.text s) (.leaf .text s)
  | space {s : Text} (h : Document.isPlainSpace s = true) :
      Token.Denotes (.text s) (.leaf .text (Document.shrinkSpace s))

/-- Nodes with numbers from `k` on. -/
def numbered (k : Nat) (nodes : List Node) : List (Nat × Node) :=
  (nodes.zipIdx k).map fun (n, i) => (i, n)

/-- The nodes that tokens stand for, numbered from `k` on. -/
inductive Token.Listed : Nat → List Token → List (Nat × Node) → Prop
  | nil {k : Nat} : Token.Listed k [] []
  | closing {k : Nat} {name : Text} {ts : List Token} {nodes : List (Nat × Node)}
      (h : Token.Listed k ts nodes) : Token.Listed k (.closing name :: ts) nodes
  | node {k : Nat} {t : Token} {n : Node} {ts : List Token} {nodes : List (Nat × Node)}
      (ht : t.Denotes n) (h : Token.Listed (k + 1) ts nodes) :
      Token.Listed k (t :: ts) ((k, n) :: nodes)

end Markup

namespace Resolver

open Markup

variable {src : Source}

/-- A node that was located is the target, or it is passed. -/
theorem advance_located {target k : Nat} {missing : Nat → LocateError} {node : Node}
    {rest : List (Nat × Node)} {st st₁ : State} {l l₁ : Located} {later : List (Nat × Located)}
    (hlocate : locate src (k == target) { st with remaining := rest } node = (.ok (some l₁), st₁))
    (hmem : (target, l) ∈ (k, l₁) :: later) (hlater : (target, l) ∈ later → k < target ∧
      ∃ st', advance src target missing rest { st₁ with last := some (k, some l₁) } = (.ok l, st')) :
    ∃ st', advance src target missing ((k, node) :: rest) st = (.ok l, st') := by
  rw [advance_cons, hlocate]
  rcases List.mem_cons.mp hmem with heq | hmem
  · obtain ⟨rfl, rfl⟩ := Prod.mk.inj heq
    rw [beq_self_eq_true]
    exact ⟨_, rfl⟩
  · obtain ⟨hlt, hrest⟩ := hlater hmem
    rw [beq_eq_false_iff_ne.mpr (Nat.ne_of_lt hlt)]
    exact hrest

/-- Each node is located where it is written. -/
theorem advance_places {target k : Nat} {missing : Nat → LocateError} {nodes : List (Nat × Node)}
    {st : State} {gap ts : List Token} {l : Located} (h : At src st gap ts)
    (hlisted : Token.Listed k ts nodes)
    (hmem : (target, l) ∈ Token.places (st.cursor + (Token.renderAll gap).length) k ts) :
    ∃ st', advance src target missing nodes st = (.ok l, st') := by
  induction hlisted generalizing st gap with
  | nil => cases hmem
  | @closing k name ts nodes _ ih =>
    refine ih (h.widen (.closing h.sound.1.1 .nil)) ?_
    rw [Token.length_renderAll_snoc, ← Nat.add_assoc]
    exact hmem
  | @node k t n ts nodes ht _ ih =>
    have hst : At src { st with remaining := nodes } gap (t :: ts) := h.congr rfl rfl
    cases ht with
    | @opening name attributes children =>
      obtain ⟨st₁, hlocate, hnext, hcursor⟩ := hst.opening (k == target)
        (attributesOf (Document.mergeAttributes (decoded attributes))) children
      refine advance_located hlocate hmem fun hmem => ⟨(Token.places_inside hmem).1, ?_⟩
      refine ih (hnext.congr rfl rfl) ?_
      rwa [hcursor]
    | @comment s kept =>
      -- Nothing is located for a comment, and the cursor stays.
      have hmem : (target, l) ∈ Token.places
          (st.cursor + (Token.renderAll gap).length + (commentTag s).length) (k + 1) ts := hmem
      have hlt : k < target := (Token.places_inside hmem).1
      rw [advance_cons, beq_eq_false_iff_ne.mpr (Nat.ne_of_lt hlt)]
      refine ih ((h.widen (.comment h.sound.1 .nil)).congr rfl rfl) ?_
      rw [Token.length_renderAll_snoc, ← Nat.add_assoc]
      exact hmem
    | @text s =>
      obtain ⟨st₁, hlocate, hnext, hcursor⟩ := hst.text (k == target)
      refine advance_located hlocate hmem fun hmem => ⟨(Token.places_inside hmem).1, ?_⟩
      refine ih (hnext.congr rfl rfl) ?_
      rwa [hcursor]
    | @space s hspace =>
      rw [h.sound.1.visible] at hspace
      cases hspace

end Resolver

end Untranslated
