import Untranslated.Proofs.Markup.Soup
import Untranslated.Proofs.Reference.Respelled
import Untranslated.Proofs.Scan.Ignored

/-!
# Respelled markup

Markup whose line breaks are respelled has the same tokens, with line breaks respelled in its values, comments
and texts (`Token.exists_respelled`). They are as tame as they were (`Token.Respelled.isTame`), end tags say
the texts that they said (`Token.Respelled.saidIn`), and the places of the tokens are moved
(`Token.places_moved`).
-/

namespace Untranslated

open Text (moved)

namespace Text.Respelled

variable {s s' : Text}

/-- The words of a text do not hang on its line breaks. -/
theorem words_eq (h : Respelled s s') : words s' = words s := by
  induction h with
  | nil => rfl
  | @cons c s s' h ih =>
    refine words_cons_congr ih ?_
    rcases h.head? with heq | ⟨heq, heq'⟩
    · rw [heq]
    · rw [heq, heq']
      rfl
  | feed _ ih =>
    rw [words_cons_of_isSpace (by decide), words_cons_of_isSpace (by decide),
      words_cons_of_isSpace (by decide), ih]

theorem squash_eq (h : Respelled s s') : squash s' = squash s := by rw [squash, squash, h.words_eq]

/-- What holds no line break is a part of a respelled text just if it was a part of the text. -/
theorem infix_iff {pat : Text} (hpat : Breakless pat) (h : Respelled s s') : pat <:+: s' ↔ pat <:+: s := by
  rw [← isSome_find?, ← isSome_find?, h.find?_eq hpat, Option.isSome_map]

end Text.Respelled

namespace Markup

/-- The attributes have the same name, and the value is respelled. -/
def PairRespelled (a a' : Text × Text) : Prop := a'.1 = a.1 ∧ Text.Respelled a.2 a'.2

/-- The tokens are the same, line breaks in values, comments and texts aside. -/
inductive Token.Respelled : Token → Token → Prop
  | opening {name : Text} {attributes attributes' : List (Text × Text)}
      (h : List.Forall₂ PairRespelled attributes attributes') :
      Token.Respelled (.opening name attributes) (.opening name attributes')
  | closing {name : Text} : Token.Respelled (.closing name) (.closing name)
  | comment {s s' : Text} (h : Text.Respelled s s') : Token.Respelled (.comment s) (.comment s')
  | text {s s' : Text} (h : Text.Respelled s s') : Token.Respelled (.text s) (.text s')

/-! ## Writing -/

theorem respelled_pair (k : Text) {v v' : Text} (h : Text.Respelled v v') :
    Text.Respelled (pair k v) (pair k v') := by
  have hkept := (Text.Respelled.refl (' ' :: k ++ ['=', '"'])).append (h.append (.refl ['"']))
  simpa [pair] using hkept

theorem respelled_renderAttributes {attributes attributes' : List (Text × Text)}
    (h : List.Forall₂ PairRespelled attributes attributes') :
    Text.Respelled (renderAttributes attributes) (renderAttributes attributes') := by
  induction h with
  | nil => exact .nil
  | @cons a a' _ _ hpair _ ih =>
    obtain ⟨k, v⟩ := a
    obtain ⟨k', v'⟩ := a'
    obtain ⟨rfl, hvalue⟩ := hpair
    exact (respelled_pair k' hvalue).append ih

theorem Token.Respelled.render {t t' : Token} (h : t.Respelled t') :
    Text.Respelled t.render t'.render := by
  cases h with
  | @opening name _ _ h =>
    exact ((Text.Respelled.refl ('<' :: name)).append (respelled_renderAttributes h)).append (.refl ['>'])
  | closing => exact .refl _
  | comment h => exact ((Text.Respelled.refl ['<', '!', '-', '-']).append h).append (.refl ['-', '-', '>'])
  | text h => exact h

theorem not_mem_of_nameLetters {s : Text} (h : ∀ c ∈ s, isNameLetter c = true ∨ c = '-') : '\n' ∉ s :=
  fun hmem => ne_of_nameLetter (h _ hmem) (by decide) rfl

/-- Attributes are respelled one by one. -/
theorem exists_attributes {attributes : List (Text × Text)} (hnames : ∀ a ∈ attributes, IsAttributeName a.1)
    {u : Text} (h : Text.Respelled (renderAttributes attributes) u) :
    ∃ attributes', u = renderAttributes attributes' ∧ List.Forall₂ PairRespelled attributes attributes' := by
  induction attributes generalizing u with
  | nil =>
    cases h
    exact ⟨[], rfl, .nil⟩
  | cons a attributes ih =>
    obtain ⟨k, v⟩ := a
    obtain ⟨hk, hnames⟩ := List.forall_mem_cons.mp hnames
    have hcons : renderAttributes ((k, v) :: attributes) =
        (' ' :: k ++ ['=', '"']) ++ (v ++ (['"'] ++ renderAttributes attributes)) := by
      simp [renderAttributes, pair]
    rw [hcons] at h
    have hlead : '\n' ∉ ' ' :: k ++ ['=', '"'] := by
      have := not_mem_of_nameLetters hk.2
      simp [this]
    obtain ⟨value, rfl, hvalue⟩ := h.of_append_left hlead
    obtain ⟨v', quote, rfl, hv, hquote⟩ := hvalue.of_append
    obtain ⟨rest, rfl, hrest⟩ := hquote.of_append_left (by decide)
    obtain ⟨attributes', rfl, hattributes⟩ := ih hnames hrest
    exact ⟨(k, v') :: attributes', by simp [renderAttributes, pair], .cons ⟨rfl, hv⟩ hattributes⟩

namespace Token

theorem exists_render {t : Token} (ht : t.IsTame) {u : Text} (h : Text.Respelled t.render u) :
    ∃ t', u = t'.render ∧ t.Respelled t' := by
  match t with
  | .opening name attributes =>
    have hcons : openTag name attributes = ('<' :: name) ++ (renderAttributes attributes ++ ['>']) := by
      simp [openTag]
    rw [render, hcons] at h
    have hlead : '\n' ∉ '<' :: name := by
      have := not_mem_of_nameLetters fun c hc => .inl (ht.is_name.2 c hc)
      simp [this]
    obtain ⟨rest, rfl, hrest⟩ := h.of_append_left hlead
    obtain ⟨inner, bracket, rfl, hinner, hbracket⟩ := hrest.of_append
    obtain ⟨attributes', rfl, hattributes⟩ := exists_attributes ht.attribute_name hinner
    rw [hbracket.eq_self (by decide)]
    exact ⟨.opening name attributes', by simp [render, openTag], .opening hattributes⟩
  | .closing name =>
    have hname := not_mem_of_nameLetters fun c hc => .inl (ht.1.2 c hc)
    exact ⟨.closing name, h.eq_self (by simp [render, closeTag, hname]), .closing⟩
  | .comment s =>
    have hcons : commentTag s = ['<', '!', '-', '-'] ++ (s ++ ['-', '-', '>']) := by simp [commentTag]
    rw [render, hcons] at h
    obtain ⟨rest, rfl, hrest⟩ := h.of_append_left (by decide)
    obtain ⟨s', close, rfl, hs, hclose⟩ := hrest.of_append
    rw [hclose.eq_self (by decide)]
    exact ⟨.comment s', by simp [render, commentTag], .comment hs⟩
  | .text s => exact ⟨.text u, rfl, .text h⟩

/-- Respelled markup has the same tokens. -/
theorem exists_respelled {ts : List Token} (hts : ∀ t ∈ ts, t.IsTame) {u : Text}
    (h : Text.Respelled (renderAll ts) u) :
    ∃ ts', u = renderAll ts' ∧ List.Forall₂ Token.Respelled ts ts' := by
  induction ts generalizing u with
  | nil =>
    cases h
    exact ⟨[], rfl, .nil⟩
  | cons t ts ih =>
    obtain ⟨ht, hts⟩ := List.forall_mem_cons.mp hts
    rw [renderAll_cons] at h
    obtain ⟨v, w, rfl, hv, hw⟩ := h.of_append
    obtain ⟨t', rfl, htoken⟩ := exists_render ht hv
    obtain ⟨ts', rfl, htokens⟩ := ih hts hw
    exact ⟨t' :: ts', (renderAll_cons t' ts').symm, .cons htoken htokens⟩

theorem exists_of_forall₂ {α β : Type} {R : α → β → Prop} {l : List α} {l' : List β}
    (h : List.Forall₂ R l l') {b : β} (hb : b ∈ l') : ∃ a ∈ l, R a b := by
  induction h with
  | nil => cases hb
  | cons hab _ ih =>
    rcases List.mem_cons.mp hb with rfl | hb
    · exact ⟨_, List.mem_cons_self, hab⟩
    · obtain ⟨a, ha, hrel⟩ := ih hb
      exact ⟨a, List.mem_cons_of_mem _ ha, hrel⟩

namespace Respelled

variable {t t' u u' : Token}

theorem isText_eq (h : t.Respelled t') : t'.isText = t.isText := by cases h <;> rfl

theorem isTame (h : t.Respelled t') (ht : t.IsTame) : t'.IsTame := by
  cases h with
  | @opening name attributes attributes' h =>
    have hpairs : ∀ a' ∈ attributes', ∃ a ∈ attributes, PairRespelled a a' :=
      fun _ => exists_of_forall₂ h
    refine ⟨ht.is_name, ht.not_verbatim, fun a' ha' => ?_, fun a' ha' c hc => ?_, fun a' ha' => ?_⟩
    · obtain ⟨a, ha, hname, -⟩ := hpairs a' ha'
      exact hname ▸ ht.attribute_name a ha
    · obtain ⟨a, ha, -, hvalue⟩ := hpairs a' ha'
      rintro rfl
      exact ht.no_quote a ha _ ((hvalue.mem_iff (by decide)).mp hc) rfl
    · obtain ⟨a, ha, -, hvalue⟩ := hpairs a' ha'
      rw [Reference.overlong?_respelled hvalue]
      exact ht.readable a ha
  | closing => exact ht
  | @comment s s' h =>
    refine ⟨fun hdashes => ht.no_dashes ?_, by rw [h.getLast?_eq]; exact ht.last⟩
    exact (h.infix_iff (by decide)).mp hdashes
  | @text s s' h =>
    refine ⟨fun hnil => ht.1 (h.eq_nil_iff.mp hnil), fun c hc => ?_⟩
    by_cases hreturn : c = '\r'
    · subst hreturn
      decide
    · exact ht.2 c ((h.mem_iff hreturn).mp hc)

/-- An end tag says a respelled text just if it said the text. -/
theorem saidIn (ht : t.Respelled t') (hu : u.Respelled u') (h : t'.SaidIn u') : t.SaidIn u := by
  cases ht with
  | text ht =>
    cases hu with
    | closing =>
      obtain ⟨hshown, hpart⟩ := h
      exact ⟨ht.isBlank_eq ▸ hshown, ht.squash_eq ▸ hpart⟩
    | opening => exact h
    | comment => exact h
    | text => exact h
  | opening => exact h
  | closing => exact h
  | comment => exact h

end Respelled

/-- Where no end tag says a text, none says a respelled text. -/
theorem clear_respelled {ts ts' : List Token} (hts : List.Forall₂ Token.Respelled ts ts')
    (h : ∀ t ∈ ts, ∀ u ∈ ts, ¬ t.SaidIn u) : ∀ t ∈ ts', ∀ u ∈ ts', ¬ t.SaidIn u := by
  intro t' ht' u' hu' hsaid
  obtain ⟨t, ht, htoken⟩ := exists_of_forall₂ hts ht'
  obtain ⟨u, hu, hother⟩ := exists_of_forall₂ hts hu'
  exact h t ht u hu (htoken.saidIn hother hsaid)

/-- Respelled tokens are spaced as they were. -/
theorem Spaced.respelled {ts ts' : List Token} (h : Spaced IsTame ts)
    (hts : List.Forall₂ Token.Respelled ts ts') : Spaced IsTame ts' := by
  induction hts with
  | nil => trivial
  | @cons t t' ts ts' ht hts ih =>
    obtain ⟨htame, hnext, hspaced⟩ := h
    refine ⟨ht.isTame htame, fun htext u hu => ?_, ih hspaced⟩
    rw [ht.isText_eq] at htext
    cases hts with
    | nil => cases hu
    | cons hv _ =>
      cases hu
      rw [hv.isText_eq]
      exact hnext htext _ rfl

end Token

end Markup

/-! ## Places -/

/-- Where an opening tag comes to lie when the text is respelled. -/
def OpenTag.moved (text text' : Text) (t : OpenTag) : OpenTag :=
  ⟨Text.moved text text' t.start, Text.moved text text' t.stop,
    t.attributes.map fun a => ⟨a.name, a.value.moved text text'⟩⟩

/-- Where a node comes to lie when the text is respelled. -/
def Located.moved (text text' : Text) : Located → Located
  | .tag t => .tag (t.moved text text')
  | .text s => .text (s.moved text text')

namespace OpenTag

open Markup

variable {text text' : Text} {attributes attributes' : List (Text × Text)}

theorem attribute?_moved (t : OpenTag) (name : Text) :
    (t.moved text text').attribute? name =
      (t.attribute? name).map fun a => ⟨a.name, a.value.moved text text'⟩ := by
  simp only [attribute?, moved]
  rw [← List.map_reverse, List.find?_map]
  rfl

/-- The values of respelled attributes stand where they are moved. -/
theorem attributesFrom_moved (h : Text.Respelled text text')
    (hpairs : List.Forall₂ PairRespelled attributes attributes') {pos : Nat} {rest rest' : Text}
    (htext : text.drop pos = renderAttributes attributes ++ rest)
    (htext' : text'.drop (Text.moved text text' pos) = renderAttributes attributes' ++ rest') :
    attributesFrom (Text.moved text text' pos) attributes' =
      (attributesFrom pos attributes).map fun a => ⟨a.name, a.value.moved text text'⟩ := by
  induction hpairs generalizing pos with
  | nil => rfl
  | @cons a a' attributes attributes' hpair hpairs ih =>
    obtain ⟨k, v⟩ := a
    obtain ⟨k', v'⟩ := a'
    obtain ⟨hname, hvalue⟩ := hpair
    simp only at hname hvalue
    subst hname
    have hlength : (' ' :: k' ++ ['=', '"']).length = k'.length + 3 := by simp
    have hlead : text.drop pos =
        (' ' :: k' ++ ['=', '"']) ++ (v ++ ('"' :: (renderAttributes attributes ++ rest))) := by
      simpa [renderAttributes, pair] using htext
    have hlead' : text'.drop (Text.moved text text' pos) =
        (' ' :: k' ++ ['=', '"']) ++ (v' ++ ('"' :: (renderAttributes attributes' ++ rest'))) := by
      simpa [renderAttributes, pair] using htext'
    have hstart := h.moved_append (.refl _) hlead hlead'
    have hstop := h.moved_append hvalue (Text.drop_of_drop hlead) (hstart ▸ Text.drop_of_drop hlead')
    have hwhole : text.drop pos = pair k' v ++ (renderAttributes attributes ++ rest) := by
      simpa [renderAttributes] using htext
    have hwhole' : text'.drop (Text.moved text text' pos) =
        pair k' v' ++ (renderAttributes attributes' ++ rest') := by
      simpa [renderAttributes] using htext'
    have hnext := h.moved_append (respelled_pair k' hvalue) hwhole hwhole'
    rw [hlength, ← Nat.add_assoc, ← Nat.add_assoc] at hstart
    rw [hlength, ← Nat.add_assoc, hstart] at hstop
    rw [attributesFrom, attributesFrom, List.map_cons,
      ← ih (Text.drop_of_drop hwhole) (hnext ▸ Text.drop_of_drop hwhole'), hnext]
    simp only [Span.moved, hstart, hstop]

/-- A respelled opening tag stands where it is moved. -/
theorem writtenAt_moved (h : Text.Respelled text text')
    (hpairs : List.Forall₂ PairRespelled attributes attributes') {o : Nat} {name rest rest' : Text}
    (htext : text.drop o = openTag name attributes ++ rest)
    (htext' : text'.drop (Text.moved text text' o) = openTag name attributes' ++ rest') :
    writtenAt (Text.moved text text' o) name attributes' =
      (writtenAt o name attributes).moved text text' := by
  have hlength : ('<' :: name).length = 1 + name.length := by simp [Nat.add_comm]
  have hname := h.moved_append (.refl _) (htext.trans (openTag_append name attributes rest))
    (htext'.trans (openTag_append name attributes' rest'))
  rw [hlength, ← Nat.add_assoc, ← Nat.add_assoc] at hname
  have hattributes := attributesFrom_moved h hpairs (drop_openTag htext) (by
    rw [hname]
    exact drop_openTag htext')
  rw [hname] at hattributes
  have htag : Token.Respelled (.opening name attributes) (.opening name attributes') := .opening hpairs
  have hstop : Text.moved text text' (o + (openTag name attributes).length) =
      Text.moved text text' o + (openTag name attributes').length := h.moved_append htag.render htext htext'
  simp only [writtenAt, moved, hattributes]
  rw [← hstop]

end OpenTag

namespace Markup.Token

variable {text text' : Text} {ts ts' : List Token}

theorem Respelled.count_eq {t t' : Token} (h : t.Respelled t') : count [t'] = count [t] := by
  cases h <;> rfl

/-- The places of respelled tokens are moved. -/
theorem places_moved (h : Text.Respelled text text') (hts : List.Forall₂ Token.Respelled ts ts')
    {offset : Nat} (k : Nat) (htext : text.drop offset = renderAll ts)
    (htext' : text'.drop (moved text text' offset) = renderAll ts') :
    places (moved text text' offset) k ts' =
      (places offset k ts).map fun p => (p.1, p.2.moved text text') := by
  induction hts generalizing offset k with
  | nil => rfl
  | @cons t t' ts ts' ht hts ih =>
    rw [renderAll_cons] at htext htext'
    have hnext := h.moved_append ht.render htext htext'
    have hplaces := ih (k + count [t]) (Text.drop_of_drop htext) (hnext ▸ Text.drop_of_drop htext')
    rw [hnext] at hplaces
    have hplace : t'.place? (moved text text' offset) =
        (t.place? offset).map (Located.moved text text') := by
      cases ht with
      | opening hpairs =>
        rw [place?, place?, OpenTag.writtenAt_moved h hpairs htext htext']
        rfl
      | closing => rfl
      | comment => rfl
      | text hs =>
        have hstop := h.moved_append hs htext htext'
        rw [place?, place?, Option.map_some, Located.moved, Span.moved, hstop]
    rw [places_cons, places_cons, List.map_append, ht.count_eq, hplaces, hplace]
    cases t.place? offset <;> rfl

/-- A node has one place. -/
theorem places_unique {offset k i : Nat} {l l' : Located} (hl : (i, l) ∈ places offset k ts)
    (hl' : (i, l') ∈ places offset k ts) : l = l' := by
  induction ts generalizing offset k with
  | nil => cases hl
  | cons t ts ih =>
    have hfirst : ∀ {l : Located}, (i, l) ∈ places offset k (t :: ts) →
        i = k ∧ count [t] = 1 ∧ t.place? offset = some l ∨
          k + count [t] ≤ i ∧ (i, l) ∈ places (offset + t.render.length) (k + count [t]) ts := by
      intro l hl
      rw [places_cons] at hl
      rcases List.mem_append.mp hl with hl | hl
      · obtain ⟨l₁, hplace, heq⟩ := Option.map_eq_some_iff.mp (Option.mem_toList.mp hl)
        obtain ⟨rfl, rfl⟩ := Prod.mk.inj heq
        exact .inl ⟨rfl, (span_of_place? hplace).2, hplace⟩
      · exact .inr ⟨(places_inside hl).1, hl⟩
    rcases hfirst hl with ⟨hi, hcount, hplace⟩ | ⟨hle, hl⟩
    · rcases hfirst hl' with ⟨-, -, hplace'⟩ | ⟨hle', -⟩
      · exact Option.some.inj (hplace.symm.trans hplace')
      · omega
    · rcases hfirst hl' with ⟨hi', hcount', -⟩ | ⟨-, hl'⟩
      · omega
      · exact ih hl hl'

end Markup.Token

end Untranslated
