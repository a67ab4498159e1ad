import Untranslated.Proofs.Locate.ValuePattern
import Untranslated.Proofs.Markup.Locating

/-!
# Locating nodes behind a lag

Texts of nothing but space may shrink when the document is built. The resolver does not find them again
as they are written, so it stays behind, and what it has left behind is a lag (`Resolver.Behind`).

* An opening tag brings the resolver back to where it should be (`Behind.opening`).
* A text that shows something is found, either where it is written or earlier, in the lag
  (`Behind.found`). Earlier means: in an end tag, or in a text that was left behind.
* A text that shows nothing may be found or passed over (`Behind.blank`).

Whatever can be said of the place of one text (`Leaves`) holds for the places of all (`advance_found`).
-/

namespace Untranslated

namespace Document

theorem isInvisible_of_isPlainSpace {s : Text} (h : isPlainSpace s = true) :
    ∀ c ∈ s, Text.isInvisible c = true := by
  intro c hc
  have hspace := List.all_eq_true.mp h c hc
  simp only [Bool.or_eq_true, beq_iff_eq] at hspace
  rcases hspace with (((rfl | rfl) | rfl) | rfl) | rfl <;> decide

theorem isBlank_shrinkSpace {s : Text} (h : isPlainSpace s = true) :
    Text.isBlank (shrinkSpace s) = true := by
  rw [shrinkSpace, if_pos h]
  split <;> decide

end Document

/-! ## Tokens -/

namespace Markup.Token

/-- Tokens that may stand in any order: texts hold neither angle brackets nor references, and end tags are
not those of void elements. -/
def IsTame : Token → Prop
  | .opening name attributes => IsOpening name attributes
  | .closing name => IsName name ∧ name ∉ Document.voidElements
  | .comment s => IsComment s
  | .text s => s ≠ [] ∧ Text.Plain s

/-- Texts hold neither brackets nor references. The names of end tags and the texts are as `Q` and `T`
say. -/
def IsSoup (Q T : Text → Prop) : Token → Prop
  | .opening name attributes => IsOpening name attributes
  | .closing name => IsName name ∧ Q name
  | .comment s => IsComment s
  | .text s => s ≠ [] ∧ Text.Plain s ∧ T s

theorem IsTame.isSoup {Q T : Text → Prop} {t : Token} (h : t.IsTame)
    (hQ : ∀ name, t = .closing name → Q name) (hT : ∀ s, t = .text s → T s) : t.IsSoup Q T := by
  match t with
  | .opening _ _ => exact h
  | .closing name => exact ⟨h.1, hQ name rfl⟩
  | .comment _ => exact h
  | .text s => exact ⟨h.1, h.2, hT s rfl⟩

theorem IsTame.isLegible {t : Token} (h : t.IsTame) : t.IsLegible := by
  match t with
  | .opening _ _ => exact h
  | .closing _ => exact h.1
  | .comment _ => exact h
  | .text _ => exact ⟨h.1, fun c hc => ⟨(h.2 c hc).1, (h.2 c hc).2.2⟩⟩

instance : DecidablePred IsTame
  | .opening name attributes => decidableIsOpening name attributes
  | .closing name => inferInstanceAs (Decidable (IsName name ∧ name ∉ Document.voidElements))
  | .comment s => decidableIsComment s
  | .text s => decidable_of_iff
      (s ≠ [] ∧ (s.all fun c => c != '<' && c != '>' && c != '&') = true) (by
    simp only [IsTame, Text.Plain, List.all_eq_true, Bool.and_eq_true, bne_iff_ne, and_assoc])

/-- A token that stands for a node is counted. -/
theorem Denotes.count_eq {t : Token} {n : Node} (h : t.Denotes n) : count [t] = 1 := by
  cases h <;> rfl

theorem mem_places_cons {offset k i : Nat} {t : Token} {n : Node} {ts : List Token} {l : Located}
    (ht : t.Denotes n) (h : (i, l) ∈ places offset k (t :: ts)) :
    (i = k ∧ t.place? offset = some l) ∨
      (k < i ∧ (i, l) ∈ places (offset + t.render.length) (k + 1) ts) := by
  rw [places_cons, ht.count_eq] at h
  rcases List.mem_append.mp h with h | h
  · obtain ⟨l', hl', heq⟩ := Option.map_eq_some_iff.mp (Option.mem_toList.mp h)
    obtain ⟨rfl, rfl⟩ := Prod.mk.inj heq
    exact .inl ⟨rfl, hl'⟩
  · exact .inr ⟨(places_inside h).1, h⟩

/-- A node is that of a token, and the token's place is among the places. -/
theorem place_of_listed {text : Text} {offset k i : Nat} {ts : List Token} {nodes : List (Nat × Node)}
    {n : Node} (h : Listed k ts nodes) (htext : text.drop offset = renderAll ts) (hn : (i, n) ∈ nodes) :
    ∃ t ∈ ts, ∃ o rest, t.Denotes n ∧ text.drop o = t.render ++ rest ∧
      ∀ l, t.place? o = some l → (i, l) ∈ places offset k ts := by
  induction h generalizing offset with
  | nil => cases hn
  | closing _ ih =>
    obtain ⟨t, ht, found⟩ := ih (Text.drop_of_drop (htext.trans (renderAll_cons _ _))) hn
    exact ⟨t, List.mem_cons_of_mem _ ht, found⟩
  | @node k t n' ts nodes ht _ ih =>
    rcases List.mem_cons.mp hn with heq | hn
    · obtain ⟨rfl, rfl⟩ := Prod.mk.inj heq
      refine ⟨t, List.mem_cons_self, offset, renderAll ts, ht, htext, fun l hl => ?_⟩
      rw [places_cons, hl]
      exact List.mem_cons_self
    · obtain ⟨u, hu, o, rest, hdenotes, hdrop, hplace⟩ :=
        ih (Text.drop_of_drop (htext.trans (renderAll_cons _ _))) hn
      refine ⟨u, List.mem_cons_of_mem _ hu, o, rest, hdenotes, hdrop, fun l hl => ?_⟩
      rw [places_cons, ht.count_eq]
      exact List.mem_append_right _ (hplace l hl)

end Markup.Token

namespace Resolver

open Markup

variable {src : Source} {P : Char → Prop} {Q T : Text → Prop} {st st' : State} {lag s : Text}
  {t : Token} {ts : List Token}

/-- The first visible place is the best one if it says what is wanted. -/
theorem bestPlace_of_first {wanted : Text} {fallback : Option Span} {places : List Span} {r : Span}
    (hfirst : (places.filter fun p => !st.hides src p.start).head? = some r)
    (hagrees : saysWanted wanted (Text.slice src.text r.start r.stop) = .ok true) :
    (bestPlace src wanted fallback places st).1 = .ok (some r) := by
  induction places generalizing st with
  | nil => cases hfirst
  | cons p places ih =>
    simp only [bestPlace, isHidden_eq]
    cases hhides : st.hides src p.start with
    | true =>
      rw [List.filter_cons_of_neg (by simp [hhides])] at hfirst
      exact ih (by simpa using hfirst)
    | false =>
      rw [List.filter_cons_of_pos (by simp [hhides]), List.head?_cons] at hfirst
      obtain rfl := Option.some.inj hfirst
      simp only [hagrees]

/-- A piece without references says what has the same words. -/
theorem saysWanted_of_words {value piece : Text} (h : ∀ c ∈ piece, c ≠ '&')
    (hwords : Text.words piece = Text.words value) :
    saysWanted (Text.squash value) piece = .ok true := by
  rw [saysWanted, Reference.overlong?_eq_none h, Reference.decode_eq_self h, Text.squash, hwords]
  simp [Text.squash]

/-! ## Where the cursor stands -/

/-- The cursor stands behind: a lag is left before the tokens still to come. -/
structure Behind (P : Char → Prop) (Q T : Text → Prop) (src : Source) (st : State) (lag : Text)
    (ts : List Token) : Prop where
  synced : Synced src st
  cursor_le : st.cursor ≤ src.text.length
  rest : src.text.drop st.cursor = lag ++ Token.renderAll ts
  isLag : Lag P Q lag
  /-- Before a text, the lag ends with a tag or a comment. -/
  ends : ∀ u ∈ ts.head?, u.isText = true → lag = [] ∨ lag.getLast? = some '>'
  soup : Token.Spaced (Token.IsSoup Q T) ts

namespace Behind

theorem length_eq (h : Behind P Q T src st lag ts) :
    st.cursor + lag.length + (Token.renderAll ts).length = src.text.length := by
  have hlength := congrArg List.length h.rest
  have := h.cursor_le
  simp only [List.length_drop, List.length_append] at hlength
  omega

theorem congr (h : Behind P Q T src st lag ts) (hcursor : st'.cursor = st.cursor)
    (hhidden : st'.hidden = st.hidden) : Behind P Q T src st' lag ts where
  synced := by
    obtain ⟨p, hp, he⟩ := h.synced
    exact ⟨p, hcursor ▸ hp, hhidden.trans he⟩
  cursor_le := hcursor ▸ h.cursor_le
  rest := by rw [hcursor, h.rest]
  isLag := h.isLag
  ends := h.ends
  soup := h.soup

theorem looked (h : Behind P Q T src st lag ts) (hl : Looked src st st') :
    Behind P Q T src st' lag ts where
  synced := h.synced.looked hl
  cursor_le := hl.cursor ▸ h.cursor_le
  rest := by rw [hl.cursor, h.rest]
  isLag := h.isLag
  ends := h.ends
  soup := h.soup

/-- The cursor moves to the end of the place that was found, and the rest of the lag stays behind. -/
theorem moveTo (h : Behind P Q T src st lag (t :: ts)) (hl : Looked src st st') {l : Located}
    {passed lag' : Text} (hleft : lag ++ t.render = passed ++ lag')
    (hstop : l.span.stop = st.cursor + passed.length) (hlag : Lag P Q lag')
    (hends : lag' = [] ∨ t.isText = true) :
    Behind P Q T src (st'.moveTo (.ok (some l))) lag' ts where
  synced := by
    refine (h.synced.looked hl).moveTo fun l' hl' => ?_
    obtain rfl : l = l' := Option.some.inj (Except.ok.inj hl')
    rw [hl.cursor, hstop]
    exact Nat.le_add_right _ _
  cursor_le := by
    have hlength := h.length_eq
    have := congrArg List.length hleft
    simp only [Token.renderAll_cons, List.length_append] at hlength this
    simp only [State.moveTo, hstop]
    omega
  rest := by
    simp only [State.moveTo, hstop]
    refine Text.drop_of_drop (h.rest.trans ?_)
    rw [Token.renderAll_cons, ← List.append_assoc, hleft, List.append_assoc]
  isLag := hlag
  ends := fun u hu htext => by
    refine hends.imp_right fun hboth => ?_
    rw [h.soup.2.1 hboth u hu] at htext
    cases htext
  soup := h.soup.2.2

/-- A token at which nothing is located is left behind. -/
theorem widen (h : Behind P Q T src st lag (t :: ts)) (hlag : Lag P Q t.render)
    (hends : t.isText = true ∨ t.render.getLast? = some '>') :
    Behind P Q T src st (lag ++ t.render) ts where
  synced := h.synced
  cursor_le := h.cursor_le
  rest := by rw [h.rest, Token.renderAll_cons, List.append_assoc]
  isLag := h.isLag.append hlag
  ends := fun u hu htext => by
    rcases hends with hboth | hlast
    · rw [h.soup.2.1 hboth u hu] at htext
      cases htext
    · exact .inr (by rw [List.getLast?_append, hlast]; rfl)
  soup := h.soup.2.2

theorem closing {name : Text} (h : Behind P Q T src st lag (.closing name :: ts)) :
    Behind P Q T src st (lag ++ closeTag name) ts := by
  have hlag : Lag P Q (closeTag name ++ []) := .closing h.soup.1.1 h.soup.1.2 .nil
  rw [List.append_nil] at hlag
  exact h.widen hlag (.inr (List.getLast?_concat (l := '<' :: '/' :: name)))

theorem comment (h : Behind P Q T src st lag (.comment s :: ts)) :
    Behind P Q T src st (lag ++ commentTag s) ts := by
  have hlag : Lag P Q (commentTag s ++ []) := .comment h.soup.1 .nil
  rw [List.append_nil] at hlag
  refine h.widen hlag (.inr ?_)
  rw [Token.render, commentTag, List.getLast?_append]
  rfl

/-- An element is located at its own opening tag, and nothing is left behind. -/
theorem opening {name : Text} {attributes : List (Text × Text)}
    (h : Behind P Q T src st lag (.opening name attributes :: ts)) (strict : Bool) (parsed : Attributes)
    (children : List Node) :
    ∃ st', locate src strict st (.element name parsed children) =
        (.ok (some (.tag (OpenTag.writtenAt (st.cursor + lag.length) name attributes))), st') ∧
      Behind P Q T src st' [] ts := by
  obtain ⟨st', hl, he⟩ := locate_opening h.synced h.isLag h.soup.1 h.rest strict parsed children
  refine ⟨_, he, h.moveTo hl (List.append_nil _).symm ?_ .nil (.inl rfl)⟩
  simp only [Located.span, OpenTag.writtenAt, List.length_append, Token.render]
  omega

/-! ## Texts -/

/-- Behind what is read for a text stands a bracket, or nothing. -/
theorem prefix_text (h : Behind P Q T src st lag (.text s :: ts)) {i : Nat} (hi : i ≤ lag.length)
    {v : Text} (hv : '<' ∉ v) (hpre : v <+: src.text.drop (st.cursor + i)) : v <+: lag.drop i ++ s := by
  rw [← List.drop_drop, h.rest, List.drop_append_of_le_length hi, Token.renderAll_cons, Token.render,
    ← List.append_assoc] at hpre
  have hhead := Event.head?_renderAll (h.soup.2.1 rfl)
  cases hafter : Token.renderAll ts with
  | nil => rwa [hafter, List.append_nil] at hpre
  | cons c rest =>
    rw [hafter] at hpre hhead
    obtain rfl : c = '<' := hhead c rfl
    exact Text.prefix_of_not_mem hpre hv

theorem drop_text (h : Behind P Q T src st lag (.text s :: ts)) :
    src.text.drop (st.cursor + lag.length) = s ++ Token.renderAll ts :=
  Text.drop_of_drop (h.rest.trans (by rw [Token.renderAll_cons, Token.render]))

/-- Behind a text that was found in the lag or where it is written, the rest stays behind. -/
theorem leave (h : Behind P Q T src st lag (.text s :: ts)) (hl : Looked src st st') {i : Nat}
    {v : Text} (hi : i ≤ lag.length) (hlag : Lag P Q (lag.drop i ++ s)) (hv : '<' ∉ v)
    (hpre : v <+: src.text.drop (st.cursor + i)) :
    ∃ lag', Behind P Q T src
      (st'.moveTo (.ok (some (.text ⟨st.cursor + i, st.cursor + i + v.length⟩)))) lag' ts := by
  obtain ⟨lag', hlag'⟩ := h.prefix_text hi hv hpre
  rw [← hlag'] at hlag
  have hleft : lag ++ s = (lag.take i ++ v) ++ lag' := by
    rw [List.append_assoc, hlag', ← List.append_assoc, List.take_append_drop]
  refine ⟨lag', h.moveTo hl hleft ?_ (hlag.drop_plain ?_).2 (.inr rfl)⟩
  · simp only [Located.span, List.length_append, List.length_take_of_le hi]
    omega
  · exact fun c hc hlt => hv (hlt ▸ hc)

/-- A text is looked for first behind a part of the lag, and a lag is left there. -/
theorem textStart (h : Behind P Q T src st lag (.text s :: ts)) (v : Text) :
    ∃ i, Resolver.textStart src v st.cursor = st.cursor + i ∧ i ≤ lag.length ∧ Lag P Q (lag.drop i) := by
  have hhead : ∀ c ∈ (Token.renderAll (.text s :: ts)).head?, c ≠ '<' := by
    intro c hc
    obtain ⟨d, more, rfl⟩ := List.exists_cons_of_ne_nil h.soup.1.1
    obtain rfl : d = c := Option.some.inj hc
    exact (h.soup.1.2.1 d List.mem_cons_self).1
  unfold Resolver.textStart
  split
  · exact ⟨0, rfl, Nat.zero_le _, h.isLag⟩
  · have hgap := Hidden.gapLength_lag h.isLag hhead
    rw [← h.rest] at hgap
    exact ⟨_, rfl, hgap⟩

/-- A text that shows nothing is found or passed over. -/
theorem blank (h : Behind P Q T src st lag (.text s :: ts)) (hs : ∀ c ∈ s, P c) {v : Text}
    (hv : Text.isBlank v = true) (strict : Bool) :
    ∃ place st' lag', locate src strict st (.leaf .text v) = (.ok place, st') ∧
      Behind P Q T src st' lag' ts := by
  have hplain : ∀ c ∈ s, (c ≠ '<' ∧ c ≠ '&') ∧ P c := fun c hc =>
    ⟨⟨(h.soup.1.2.1 c hc).1, (h.soup.1.2.1 c hc).2.2⟩, hs c hc⟩
  obtain ⟨asked, hl, he⟩ := locateText_eq src v strict st
  obtain ⟨i, hstart, hi, hlag⟩ := h.textStart v
  simp only [textResult, hstart] at he
  split at he
  · rename_i hstarts
    have hlt : '<' ∉ v := fun hmem => absurd (List.all_eq_true.mp hv _ hmem) (by decide)
    obtain ⟨lag', hnext⟩ := h.leave hl hi (hlag.append (.of_plain hplain)) hlt
      (Text.startsWith_iff.mp hstarts)
    exact ⟨_, _, lag', he, hnext⟩
  · exact ⟨none, asked, lag ++ s, he, (h.widen (.of_plain hplain) (.inl rfl)).looked hl⟩

theorem isSpace_of_mem_closeTag {name : Text} (h : IsName name) :
    ∀ c ∈ closeTag name, Text.isSpace c = false := by
  intro c hc
  have hmem : c ∈ '<' :: '/' :: name ++ ['>'] := hc
  rcases List.mem_append.mp hmem with hmem | hmem
  · rcases List.mem_cons.mp hmem with rfl | hmem
    · decide
    · rcases List.mem_cons.mp hmem with rfl | hmem
      · decide
      · exact isSpace_of_nameLetter (.inl (h.2 c hmem))
  · rw [List.mem_singleton.mp hmem]
    decide

theorem no_reference_of_within {v : Text}
    (h : (∀ c ∈ v, c ≠ '&' ∧ P c) ∨ ∃ name, IsName name ∧ Q name ∧ v <:+: closeTag name) :
    ∀ c ∈ v, c ≠ '&' := by
  intro c hc
  rcases h with hplain | ⟨name, hname, -, hpart⟩
  · exact (hplain c hc).1
  · have hmem : c ∈ '<' :: '/' :: name ++ ['>'] := hpart.subset hc
    rcases List.mem_append.mp hmem with hmem | hmem
    · rcases List.mem_cons.mp hmem with rfl | hmem
      · decide
      · rcases List.mem_cons.mp hmem with rfl | hmem
        · decide
        · exact ne_of_nameLetter (.inl (hname.2 c hmem)) (by decide)
    · rw [List.mem_singleton.mp hmem]
      decide

/-- The words of a text stand in the lag, `i` characters behind the cursor. -/
structure Early (P : Char → Prop) (Q : Text → Prop) (src : Source) (cursor : Nat) (lag s : Text)
    (i : Nat) (v : Text) : Prop where
  lt : i < lag.length
  words : Text.words v = Text.words s
  bracketless : Text.Bracketless v
  stands : v <+: src.text.drop (cursor + i)
  /-- They are plain characters, or a part of an end tag. -/
  within : (∀ c ∈ v, c ≠ '&' ∧ P c) ∨ ∃ name, IsName name ∧ Q name ∧ v <:+: closeTag name
  left : (∀ c, P c) → Lag P Q (lag.drop i)

/-- The range is where the text is written, or an early one. -/
def Meets (P : Char → Prop) (Q : Text → Prop) (src : Source) (cursor : Nat) (lag s : Text)
    (r : Span) : Prop :=
  r = ⟨cursor + lag.length, cursor + lag.length + s.length⟩ ∨
    ∃ i v, r = ⟨cursor + i, cursor + i + v.length⟩ ∧ Early P Q src cursor lag s i v

/-- The text is matched where it is written. -/
theorem matchLength?_text (h : Behind P Q T src st lag (.text s :: ts)) :
    (ValuePattern.ofValue s).matchLength? ((src.text.drop st.cursor).drop lag.length) =
      some s.length := by
  rw [h.rest, List.drop_left, Token.renderAll_cons, Token.render, ValuePattern.matchLength?,
    ValuePattern.match?_self fun c hc => (h.soup.1.2.1 c hc).2.2]
  · simp
  · intro c hc
    rw [Event.head?_renderAll (h.soup.2.1 rfl) c hc]
    decide

/-- Nothing hides a text where it is written. -/
theorem not_hides (h : Behind P Q T src st lag (.text s :: ts)) :
    st.hides src (st.cursor + lag.length) = false := by
  obtain ⟨c, more, rfl⟩ := List.exists_cons_of_ne_nil h.soup.1.1
  have hvisible := Hidden.not_hidden_behind_lag h.isLag st.cursor
    (Hidden.length?_of_ne (h.soup.1.2.1 c List.mem_cons_self).1 (more ++ Token.renderAll ts))
  rw [h.synced.hides (Nat.le_add_right _ _), Hidden.spans, h.rest, List.any_eq_false]
  intro p hp
  have := hvisible p hp
  simp only [Span.contains, Bool.and_eq_true, decide_eq_true_eq]
  omega

/-- What stands at a place of a text may be read for the text. -/
theorem reads_of_mem_findAll (h : Behind P Q T src st lag (.text s :: ts)) {r : Span}
    (hr : r ∈ (ValuePattern.ofValue s).findAll st.cursor 0 (src.text.drop st.cursor)) :
    ∃ j v, r = ⟨st.cursor + j, st.cursor + j + v.length⟩ ∧ Text.Bracketless v ∧
      (ValuePattern.ofValue s).Reads v ∧ v <+: src.text.drop (st.cursor + j) ∧
      (j = lag.length → v.length = s.length) := by
  obtain ⟨j, n, hn, rfl⟩ := ValuePattern.mem_findAll hr
  obtain ⟨hlength, hreads⟩ := ValuePattern.matchLength?_reads hn
  refine ⟨j, _, ?_, ValuePattern.reads_bracketless h.soup.1.2.1 hreads, hreads, ?_, fun hj => ?_⟩
  · rw [List.length_take_of_le hlength]
  · rw [List.drop_drop]
    exact List.take_prefix _ _
  · rw [hj] at hn
    rw [List.length_take_of_le hlength]
    exact Option.some.inj (hn.symm.trans h.matchLength?_text)

/-- Of the places of a text, one begins where the text is written: none reaches over the bracket before
it. -/
theorem mem_findAll_start (h : Behind P Q T src st lag (.text s :: ts))
    (hlast : lag.getLast? = some '>') :
    ∃ r ∈ (ValuePattern.ofValue s).findAll st.cursor 0 (src.text.drop st.cursor),
      r.start = st.cursor + lag.length := by
  have hle : lag.length ≤ (src.text.drop st.cursor).length := by
    rw [h.rest, List.length_append]
    exact Nat.le_add_right _ _
  obtain ⟨r, hr, hstart, hcover⟩ :
      ∃ r ∈ (ValuePattern.ofValue s).findAll st.cursor 0 (src.text.drop st.cursor),
        r.start ≤ st.cursor + lag.length ∧
          (r.start = st.cursor + lag.length ∨ st.cursor + lag.length < r.stop) :=
    ValuePattern.findAll_cover (Nat.zero_le _) hle (by rw [h.matchLength?_text]; rfl)
  refine ⟨r, hr, ?_⟩
  obtain ⟨j, v, rfl, hbracketless, -, hpre, -⟩ := h.reads_of_mem_findAll hr
  obtain ⟨w, rfl⟩ := List.getLast?_eq_some_iff.mp hlast
  simp only [List.length_append, List.length_singleton] at hstart hcover ⊢
  by_contra hne
  have hj : j ≤ w.length := by omega
  rw [← List.drop_drop, h.rest, List.append_assoc, List.drop_append_of_le_length hj,
    List.singleton_append] at hpre
  have hlength :=
    (Text.prefix_of_not_mem hpre fun hmem => (hbracketless _ hmem).2 rfl).length_le
  rw [List.length_drop] at hlength
  omega

/-- A visible place that begins no later than the text meets the text, and says it. -/
theorem meets_of_mem_findAll (h : Behind P Q T src st lag (.text s :: ts))
    (hlast : lag.getLast? = some '>') {r : Span}
    (hr : r ∈ (ValuePattern.ofValue s).findAll st.cursor 0 (src.text.drop st.cursor))
    (hle : r.start ≤ st.cursor + lag.length) (hvisible : st.hides src r.start = false) :
    Meets P Q src st.cursor lag s r ∧
      saysWanted (Text.squash s) (Text.slice src.text r.start r.stop) = .ok true := by
  obtain ⟨j, v, rfl, hbracketless, hreads, hpre, hlength⟩ := h.reads_of_mem_findAll hr
  have hplain : Text.Plain s := h.soup.1.2.1
  by_cases hj : j = lag.length
  · subst hj
    refine ⟨.inl (by rw [hlength rfl]), ?_⟩
    simp only
    rw [hlength rfl, Text.slice_of_drop h.drop_text]
    exact saysWanted_of_words (fun c hc => (hplain c hc).2.2) rfl
  · have hlt : j < lag.length := by
      simp only at hle
      omega
    have hspans : ∀ p ∈ Hidden.spansFrom st.cursor (lag ++ Token.renderAll (.text s :: ts)),
        ¬(p.start ≤ st.cursor + j ∧ st.cursor + j < p.stop) := by
      rw [h.synced.hides (Nat.le_add_right _ _), Hidden.spans, h.rest, List.any_eq_false] at hvisible
      intro p hp hin
      exact hvisible p hp (by simp only [Span.contains, Bool.and_eq_true, decide_eq_true_eq]; omega)
    have hwithin := h.isLag.stretch hlast st.cursor hlt hspans hbracketless
      (by rw [← h.rest, List.drop_drop]; exact hpre)
    have hwords : Text.words v = Text.words s := by
      refine (ValuePattern.words_of_reads hreads fun hmem => ?_).1
      exact no_reference_of_within hwithin _ hmem rfl
    refine ⟨.inr ⟨j, v, rfl, hlt, hwords, hbracketless, hpre, hwithin, fun hP => ?_⟩, ?_⟩
    · exact h.isLag.drop_visible hP st.cursor _ (Nat.le_of_lt hlt) hspans
    · obtain ⟨after, hafter⟩ := hpre
      simp only
      rw [Text.slice_of_drop hafter.symm]
      exact saysWanted_of_words (no_reference_of_within hwithin) hwords

/-- Behind a lag that ends with a tag or a comment, the search for a text meets it. -/
theorem search (h : Behind P Q T src st lag (.text s :: ts)) (hlast : lag.getLast? = some '>') :
    ∃ r, (Resolver.search src s st.cursor src.text.length st).1 = .ok (some r) ∧
      Meets P Q src st.cursor lag s r := by
  rw [Resolver.search, searchFrom_eq_bestPlace, List.take_length]
  generalize hplaces :
    (ValuePattern.ofValue s).findAll st.cursor 0 (src.text.drop st.cursor) = places
  have hmeets : ∀ r ∈ places, r.start ≤ st.cursor + lag.length → st.hides src r.start = false →
      Meets P Q src st.cursor lag s r ∧
        saysWanted (Text.squash s) (Text.slice src.text r.start r.stop) = .ok true := by
    rw [← hplaces]
    exact fun r hr => h.meets_of_mem_findAll hlast hr
  have hsorted : places.Pairwise fun r r' => r.start ≤ r'.start := by
    rw [← hplaces]
    exact ValuePattern.pairwise_findAll _ _ _ _
  -- A place begins where the text is written, and it is visible there.
  obtain ⟨r, hr, hstart⟩ : ∃ r ∈ places, r.start = st.cursor + lag.length := by
    rw [← hplaces]
    exact h.mem_findAll_start hlast
  have hvisible : st.hides src r.start = false := hstart ▸ h.not_hides
  have hmem : r ∈ places.filter fun p => !st.hides src p.start :=
    List.mem_filter.mpr ⟨hr, by simp [hvisible]⟩
  obtain ⟨first, hfirst⟩ : ∃ first, (places.filter fun p => !st.hides src p.start).head? = some first :=
    Option.isSome_iff_exists.mp (by rw [List.isSome_head?]; exact List.ne_nil_of_mem hmem)
  obtain ⟨others, hothers⟩ := List.head?_eq_some_iff.mp hfirst
  have hle : first.start ≤ st.cursor + lag.length := by
    have hfiltered := hsorted.sublist (List.filter_sublist (p := fun p => !st.hides src p.start))
    rw [hothers] at hfiltered hmem
    rcases List.mem_cons.mp hmem with rfl | hmem
    · exact Nat.le_of_eq hstart
    · exact hstart ▸ (List.pairwise_cons.mp hfiltered).1 r hmem
  have hshown : first ∈ places.filter fun p => !st.hides src p.start := by
    rw [hothers]
    exact List.mem_cons_self
  obtain ⟨hin, hnot⟩ := List.mem_filter.mp hshown
  obtain ⟨hmeet, hagrees⟩ := hmeets first hin hle (by simpa using hnot)
  exact ⟨first, bestPlace_of_first hfirst hagrees, hmeet⟩

/-- A text that shows something is found, where it is written or earlier. -/
theorem found (h : Behind P Q T src st lag (.text s :: ts)) (hs : Text.isBlank s = false)
    (strict : Bool) :
    ∃ r asked, Meets P Q src st.cursor lag s r ∧ Looked src st asked ∧
      locate src strict st (.leaf .text s) =
        (.ok (some (.text r)), asked.moveTo (.ok (some (.text r)))) := by
  have hplain : Text.Plain s := h.soup.1.2.1
  have hdrop := h.drop_text
  obtain ⟨asked, hl, he⟩ := locateText_eq src s strict st
  obtain ⟨i, hstart, hi, hlag⟩ := h.textStart s
  simp only [textResult, hstart, hs] at he
  by_cases hstarts : Text.startsWith s (src.text.drop (st.cursor + i)) = true
  · rw [if_pos hstarts] at he
    refine ⟨_, asked, ?_, hl, he⟩
    rcases Nat.eq_or_lt_of_le hi with rfl | hlt
    · exact .inl rfl
    · have hlast := (h.ends _ rfl rfl).resolve_left fun hnil => by rw [hnil] at hlt; cases hlt
      have hpre := Text.startsWith_iff.mp hstarts
      have hbracketless : Text.Bracketless s := fun c hc => ⟨(hplain c hc).1, (hplain c hc).2.1⟩
      refine .inr ⟨i, s, rfl, hlt, rfl, hbracketless, hpre, .inl ?_, fun _ => hlag⟩
      have hdropped : (lag.drop i).getLast? = some '>' := by
        rw [List.getLast?_drop, if_neg (by omega), hlast]
      rw [← List.drop_drop, h.rest, List.drop_append_of_le_length hi] at hpre
      exact hlag.prefix_plain hdropped hbracketless hpre
  · rw [if_neg hstarts] at he
    have hlast : lag.getLast? = some '>' := by
      refine (h.ends _ rfl rfl).resolve_left fun hnil => hstarts ?_
      rw [hnil] at hi hdrop
      rw [Nat.le_zero.mp hi]
      exact Text.startsWith_iff.mpr (hdrop ▸ List.prefix_append _ _)
    obtain ⟨r, hr, hmeets⟩ := h.search hlast
    rw [hr] at he
    exact ⟨r, asked, hmeets, hl, he⟩

/-- If plain characters may be any, a text that was found leaves a lag behind, and no reference stands
in its range. -/
theorem leave_any (h : Behind P Q T src st lag (.text s :: ts)) (hP : ∀ c, P c)
    (hl : Looked src st st') {r : Span} (hr : Meets P Q src st.cursor lag s r) :
    (r.stop ≤ src.text.length ∧ ∀ c ∈ Text.slice src.text r.start r.stop, c ≠ '&') ∧
      ∃ lag', Behind P Q T src (st'.moveTo (.ok (some (.text r)))) lag' ts := by
  have hplain : Text.Plain s := h.soup.1.2.1
  have hlag : Lag P Q s := .of_plain fun c hc => ⟨⟨(hplain c hc).1, (hplain c hc).2.2⟩, hP c⟩
  -- The characters of the range, how far behind the cursor they stand, and the lag left from there on.
  obtain ⟨i, v, rfl, hi, hv, hamp, hpre, hleft⟩ : ∃ i v, r = ⟨st.cursor + i, st.cursor + i + v.length⟩ ∧
      i ≤ lag.length ∧ '<' ∉ v ∧ (∀ c ∈ v, c ≠ '&') ∧ v <+: src.text.drop (st.cursor + i) ∧
      Lag P Q (lag.drop i) := by
    rcases hr with rfl | ⟨i, v, rfl, hearly⟩
    · refine ⟨lag.length, s, rfl, Nat.le_refl _, fun hmem => (hplain _ hmem).1 rfl,
        fun c hc => (hplain c hc).2.2, ?_, ?_⟩
      · exact ⟨_, (h.drop_text).symm⟩
      · rw [List.drop_length]
        exact .nil
    · exact ⟨i, v, rfl, Nat.le_of_lt hearly.lt, fun hmem => (hearly.bracketless _ hmem).1 rfl,
        no_reference_of_within hearly.within, hearly.stands, hearly.left hP⟩
  refine ⟨⟨?_, ?_⟩, h.leave hl hi (hleft.append hlag) hv hpre⟩
  · have hlength := hpre.length_le
    have hwhole := h.length_eq
    rw [List.length_drop] at hlength
    simp only
    omega
  · obtain ⟨after, hafter⟩ := hpre
    simp only
    rw [Text.slice_of_drop hafter.symm]
    exact hamp

/-- A text that shows something is not met in a lag of which nothing shows, unless an end tag says it. -/
theorem not_early {cursor i : Nat} {v : Text} (hs : Text.isBlank s = false)
    (hsaid : ∀ name, Q name → ¬ Text.squash s <:+: closeTag name)
    (h : Early (fun c => Text.isInvisible c = true) Q src cursor lag s i v) : False := by
  -- Some character of the text shows, and the words of the text have it.
  obtain ⟨c, hc, hshown⟩ := List.all_eq_false.mp hs
  have hspace : Text.isSpace c = false := by
    refine Bool.eq_false_iff.mpr fun hspace => hshown ?_
    rw [Text.isInvisible, hspace]
    rfl
  have hin : c ∈ v := by
    have hmem : c ∈ (Text.words v).flatten := by
      rw [h.words, Text.flatten_words]
      exact List.mem_filter.mpr ⟨hc, by simp [hspace]⟩
    rw [Text.flatten_words] at hmem
    exact List.mem_of_mem_filter hmem
  rcases h.within with hplain | ⟨name, hname, hQ, hpart⟩
  · exact hshown (hplain c hin).2
  · have hwords : Text.words v = [v] :=
      Text.words_eq_singleton (List.ne_nil_of_mem hin) fun d hd =>
        isSpace_of_mem_closeTag hname d (hpart.subset hd)
    refine hsaid name hQ ?_
    rw [Text.squash, ← h.words, hwords]
    exact hpart

/-- If nothing shows in lags and no end tag says a text, the text is found where it is written. -/
theorem leave_exact (h : Behind (fun c => Text.isInvisible c = true) Q T src st lag (.text s :: ts))
    (hs : Text.isBlank s = false) (hsaid : ∀ name, Q name → ¬ Text.squash s <:+: closeTag name)
    (hl : Looked src st st') {r : Span}
    (hr : Meets (fun c => Text.isInvisible c = true) Q src st.cursor lag s r) :
    r = ⟨st.cursor + lag.length, st.cursor + lag.length + s.length⟩ ∧
      ∃ lag', Behind (fun c => Text.isInvisible c = true) Q T src
        (st'.moveTo (.ok (some (.text r)))) lag' ts := by
  rcases hr with rfl | ⟨i, v, -, hearly⟩
  · refine ⟨rfl, [], h.moveTo hl (List.append_nil _).symm ?_ .nil (.inl rfl)⟩
    rw [Located.span, List.length_append, ← Nat.add_assoc, Token.render]
  · exact (not_early hs hsaid hearly).elim

end Behind

/-! ## All tokens -/

/-- A node is located: an element at its tag, a text at a range that stands to the range at which the text
is written as `R` says. -/
inductive Found (R : Span → Span → Prop) : Located → Located → Prop
  | tag {t : OpenTag} : Found R (.tag t) (.tag t)
  | text {s r : Span} (h : R s r) : Found R (.text s) (.text r)

/-- Something shows at a place. Opening tags always count. -/
def Shows (src : Source) : Located → Prop
  | .tag _ => True
  | .text s => Text.isBlank (Text.slice src.text s.start s.stop) = false

/-- What can be said of the place of one text, and that a lag is left behind it. -/
def Leaves (P : Char → Prop) (Q T : Text → Prop) (src : Source) (R : Span → Span → Prop) : Prop :=
  ∀ ⦃st st' : State⦄ ⦃lag s : Text⦄ ⦃ts : List Token⦄ ⦃r : Span⦄,
    Behind P Q T src st lag (.text s :: ts) → Text.isBlank s = false →
    Behind.Meets P Q src st.cursor lag s r → Looked src st st' →
    R ⟨st.cursor + lag.length, st.cursor + lag.length + s.length⟩ r ∧
      ∃ lag', Behind P Q T src (st'.moveTo (.ok (some (.text r)))) lag' ts

variable {R : Span → Span → Prop}

/-- One node is passed. -/
theorem Behind.pass (hP : ∀ c, Text.isInvisible c = true → P c) (hleaves : Leaves P Q T src R)
    (h : Behind P Q T src st lag (t :: ts)) {n : Node} (ht : t.Denotes n) (strict : Bool) :
    ∃ place st' lag', locate src strict st n = (.ok place, st') ∧ Behind P Q T src st' lag' ts ∧
      ∀ l, t.place? (st.cursor + lag.length) = some l → Shows src l →
        ∃ l', place = some l' ∧ Found R l l' := by
  have hblank : ∀ {s v : Text}, (∀ c ∈ s, Text.isInvisible c = true) → Text.isBlank v = true →
      Behind P Q T src st lag (.text s :: ts) →
      ∃ place st' lag', locate src strict st (.leaf .text v) = (.ok place, st') ∧
        Behind P Q T src st' lag' ts ∧
        ∀ l, (Token.text s).place? (st.cursor + lag.length) = some l → Shows src l →
          ∃ l', place = some l' ∧ Found R l l' := by
    intro s v hs hv h
    obtain ⟨place, st', lag', hlocate, hnext⟩ := h.blank (fun c hc => hP c (hs c hc)) hv strict
    refine ⟨place, st', lag', hlocate, hnext, fun l hl hshows => ?_⟩
    obtain rfl := Option.some.inj hl
    rw [Shows, Text.slice_of_drop h.drop_text, Text.isBlank, List.all_eq_true.mpr hs] at hshows
    cases hshows
  cases ht with
  | @opening name attributes children =>
    obtain ⟨st', hlocate, hnext⟩ := h.opening strict _ children
    refine ⟨_, st', [], hlocate, hnext, fun l hl _ => ⟨_, rfl, ?_⟩⟩
    obtain rfl := Option.some.inj hl
    exact .tag
  | comment => exact ⟨none, st, _, rfl, h.comment, fun l hl => by cases hl⟩
  | @text s =>
    by_cases hs : Text.isBlank s = true
    · exact hblank (List.all_eq_true.mp hs) hs h
    · obtain ⟨r, asked, hmeets, hl, hlocate⟩ := h.found (Bool.eq_false_iff.mpr hs) strict
      obtain ⟨hR, lag', hnext⟩ := hleaves h (Bool.eq_false_iff.mpr hs) hmeets hl
      refine ⟨_, _, lag', hlocate, hnext, fun l hl _ => ⟨_, rfl, ?_⟩⟩
      obtain rfl := Option.some.inj hl
      exact .text hR
  | @space s hs =>
    exact hblank (Document.isInvisible_of_isPlainSpace hs) (Document.isBlank_shrinkSpace hs) h

/-- Every node that shows something is located. -/
theorem advance_found (hP : ∀ c, Text.isInvisible c = true → P c) (hleaves : Leaves P Q T src R)
    {target k : Nat} {missing : Nat → LocateError} {nodes : List (Nat × Node)} {l : Located}
    (h : Behind P Q T src st lag ts) (hlisted : Token.Listed k ts nodes)
    (hmem : (target, l) ∈ Token.places (st.cursor + lag.length) k ts) (hshows : Shows src l) :
    ∃ l' st', advance src target missing nodes st = (.ok l', st') ∧ Found R l l' := by
  induction hlisted generalizing st lag with
  | nil => cases hmem
  | @closing k name ts nodes _ ih =>
    refine ih h.closing ?_
    rw [List.length_append, ← Nat.add_assoc]
    exact hmem
  | @node k t n ts nodes ht _ ih =>
    have hst : Behind P Q T src { st with remaining := nodes } lag (t :: ts) := h.congr rfl rfl
    obtain ⟨place, st₁, lag₁, hlocate, hnext, hfound⟩ := hst.pass hP hleaves ht (k == target)
    rw [advance_cons, hlocate]
    rcases Token.mem_places_cons ht hmem with ⟨rfl, hl⟩ | ⟨hlt, hmem⟩
    · obtain ⟨l', rfl, hl'⟩ := hfound l hl hshows
      rw [beq_self_eq_true]
      exact ⟨l', _, rfl, hl'⟩
    · have hoffset : st₁.cursor + lag₁.length = st.cursor + lag.length + t.render.length := by
        have hbefore := h.length_eq
        have hafter := hnext.length_eq
        rw [Token.renderAll_cons, List.length_append] at hbefore
        omega
      have hlater : ∃ l' st', advance src target missing nodes { st₁ with last := some (k, place) } =
          (.ok l', st') ∧ Found R l l' := by
        refine ih (hnext.congr rfl rfl) ?_
        rwa [← hoffset] at hmem
      rw [beq_eq_false_iff_ne.mpr (Nat.ne_of_lt hlt)]
      cases place with
      | none => exact hlater
      | some _ => exact hlater

end Resolver

end Untranslated
