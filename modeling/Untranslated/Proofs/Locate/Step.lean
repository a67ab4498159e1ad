import Mathlib.Data.List.Forall2
import Untranslated.Locate.Resolver
import Untranslated.Proofs.Locate.Evidence
import Untranslated.Proofs.Locate.Hidden
import Untranslated.Proofs.Locate.OpenTag

/-!
# Locating one node

What one step of the resolver can do. Looking for a node changes the cursor, the hidden ranges and the
log, and nothing else. Either it finds a place that fits the node, at or behind the cursor and inside
the source, and the cursor moves to the end of that place; or the cursor stays where it is
(`locate_state`, `locate_found`). Questions about hidden offsets only ever refresh the hidden ranges,
and a second refresh at the same cursor does nothing (`State.refresh_refresh`), so all questions asked
at one cursor are answered by the same ranges (`State.hides`).
-/

namespace Untranslated

/-- The range of the source that a place covers: the whole opening tag, or the text. -/
def Located.span : Located → Span
  | .tag t => ⟨t.start, t.stop⟩
  | .text s => s

namespace Resolver

variable {src : Source}

/-! ## Refreshing the hidden ranges -/

namespace State

@[simp] theorem refresh_cursor (st : State) : (st.refresh src).cursor = st.cursor := by
  unfold refresh; split <;> rfl

@[simp] theorem refresh_remaining (st : State) : (st.refresh src).remaining = st.remaining := by
  unfold refresh; split <;> rfl

@[simp] theorem refresh_last (st : State) : (st.refresh src).last = st.last := by
  unfold refresh; split <;> rfl

/-- Some range straddles the cursor exactly when the ranges are read anew. -/
theorem straddles_iff {st : State} :
    (st.hidden.any fun s => s.start < st.cursor && st.cursor < s.stop) = true ↔
      ∃ r ∈ st.hidden, r.Straddles st.cursor := by
  simp [Span.Straddles]

theorem refresh_of_straddles {st : State} (h : ∃ r ∈ st.hidden, r.Straddles st.cursor) :
    st.refresh src = { st with hidden := Hidden.spans src.text st.cursor } := by
  unfold refresh
  rw [if_pos (straddles_iff.mpr h)]

theorem refresh_of_not_straddles {st : State} (h : ∀ r ∈ st.hidden, ¬ r.Straddles st.cursor) :
    st.refresh src = st := by
  unfold refresh
  rw [if_neg]
  intro hs
  obtain ⟨r, hr, hst⟩ := straddles_iff.mp hs
  exact h r hr hst

theorem not_straddles_refresh (src : Source) (st : State) :
    ∀ r ∈ (st.refresh src).hidden, ¬ r.Straddles st.cursor := by
  by_cases h : ∃ r ∈ st.hidden, r.Straddles st.cursor
  · rw [refresh_of_straddles h]
    intro r hr hst
    have := Hidden.le_start_of_mem_spans hr
    have := hst.1
    omega
  · have h' : ∀ r ∈ st.hidden, ¬ r.Straddles st.cursor := fun r hr hst => h ⟨r, hr, hst⟩
    rwa [refresh_of_not_straddles h']

@[simp] theorem refresh_refresh (st : State) : (st.refresh src).refresh src = st.refresh src :=
  refresh_of_not_straddles (by simpa using not_straddles_refresh src st)

/-- Whether an offset counts as hidden at the cursor of the state. -/
def hides (src : Source) (st : State) (offset : Nat) : Bool :=
  (st.refresh src).hidden.any fun s => s.contains offset

@[simp] theorem hides_refresh (st : State) (o : Nat) :
    (st.refresh src).hides src o = st.hides src o := by
  unfold hides; rw [refresh_refresh]

/-- Only the cursor and the ranges themselves matter for a refresh. -/
theorem refresh_hidden_congr {st st' : State} (hcursor : st'.cursor = st.cursor)
    (hhidden : st'.hidden = st.hidden) : (st'.refresh src).hidden = (st.refresh src).hidden := by
  unfold refresh
  rw [hcursor, hhidden]
  split
  · rfl
  · exact hhidden

theorem hides_congr {st st' : State} (hcursor : st'.cursor = st.cursor)
    (hhidden : st'.hidden = st.hidden) (o : Nat) : st'.hides src o = st.hides src o := by
  unfold hides
  rw [refresh_hidden_congr hcursor hhidden]

@[simp] theorem hides_withRemaining (st : State) (rest : List (Nat × Node)) (o : Nat) :
    State.hides src { st with remaining := rest } o = st.hides src o := by
  apply hides_congr <;> rfl

@[simp] theorem hides_withLast (st : State) (last : Option (Nat × Option Located)) (o : Nat) :
    State.hides src { st with last := last } o = st.hides src o := by
  apply hides_congr <;> rfl

end State

theorem isHidden_eq (o : Nat) (st : State) :
    isHidden src o st = (st.hides src o, st.refresh src) := rfl

/-! ## Choosing among places -/

theorem firstVisible_eq (os : List Nat) (st : State) :
    firstVisible src os st =
      (os.find? fun o => !st.hides src o, if os.isEmpty then st else st.refresh src) := by
  induction os generalizing st with
  | nil => rfl
  | cons o os ih =>
    simp only [firstVisible, isHidden_eq, List.find?_cons]
    cases st.hides src o with
    | false => rfl
    | true => simp [ih]

theorem bestPlace_state (wanted : Text) (fallback : Option Span) (places : List Span) (st : State) :
    (bestPlace src wanted fallback places st).2 = if places.isEmpty then st else st.refresh src := by
  induction places generalizing fallback st with
  | nil => rfl
  | cons s places ih =>
    simp only [bestPlace, isHidden_eq, List.isEmpty_cons, Bool.false_eq_true, if_false]
    cases st.hides src s.start with
    | true => simp [ih]
    | false =>
      simp only
      split
      · rfl
      · rfl
      · simp [ih]

/-- The best place is one of the places, or the fallback. -/
theorem bestPlace_mem {wanted : Text} {fallback : Option Span} {places : List Span} {st : State}
    {s : Span} (h : (bestPlace src wanted fallback places st).1 = .ok (some s)) :
    s ∈ places ∨ fallback = some s := by
  induction places generalizing fallback st with
  | nil => exact .inr (Except.ok.inj h)
  | cons p places ih =>
    simp only [bestPlace, isHidden_eq] at h
    split at h
    · exact (ih h).imp_left (List.mem_cons_of_mem _)
    · split at h
      · cases h
      · cases h; exact .inl List.mem_cons_self
      · rcases ih h with h | h
        · exact .inl (List.mem_cons_of_mem _ h)
        · cases fallback with
          | none => cases h; exact .inl List.mem_cons_self
          | some f => exact .inr h

/-- Which place is the best depends on the state only through the offsets that it hides. -/
theorem bestPlace_congr {wanted : Text} {fallback : Option Span} {places : List Span} {st st' : State}
    (h : ∀ s ∈ places, st'.hides src s.start = st.hides src s.start) :
    (bestPlace src wanted fallback places st').1 = (bestPlace src wanted fallback places st).1 := by
  induction places generalizing fallback st st' with
  | nil => rfl
  | cons p places ih =>
    have hrest : ∀ s ∈ places,
        (st'.refresh src).hides src s.start = (st.refresh src).hides src s.start := by
      intro s hs
      simpa using h s (List.mem_cons_of_mem _ hs)
    simp only [bestPlace, isHidden_eq, h p List.mem_cons_self]
    cases st.hides src p.start with
    | true => exact ih hrest
    | false =>
      simp only
      split
      · rfl
      · rfl
      · exact ih hrest

end Resolver

theorem ValuePattern.matchLength?_le {p : ValuePattern} {s : Text} {n : Nat}
    (h : p.matchLength? s = some n) : n ≤ s.length := by
  obtain ⟨rest, -, rfl⟩ := Option.map_eq_some_iff.mp h
  exact Nat.sub_le _ _

theorem ValuePattern.findAll_inside {p : ValuePattern} {offset skip : Nat} {s : Text} :
    ∀ r ∈ p.findAll offset skip s, r.Inside offset (offset + s.length) := by
  fun_induction ValuePattern.findAll p offset skip s with
  | case1 offset n hn =>
    intro r hr
    have := matchLength?_le hn
    rw [List.mem_singleton.mp hr]
    exact ⟨Nat.le_refl _, by simp, by simpa only [Nat.add_le_add_iff_left] using this⟩
  | case2 => simp
  | case3 offset c rest skip ih =>
    exact fun r hr => (ih r hr).mono (by omega) (by simp; omega)
  | case4 offset c rest n hn ih =>
    intro r hr
    have := matchLength?_le hn
    rcases List.mem_cons.mp hr with rfl | hr
    · exact ⟨Nat.le_refl _, by simp, by simpa using this⟩
    · exact (ih r hr).mono (by omega) (by simp; omega)
  | case5 offset c rest hn ih =>
    exact fun r hr => (ih r hr).mono (by omega) (by simp; omega)

namespace Resolver

variable {src : Source}

/-- A value that is found lies in the part of the source in which it was looked for. -/
theorem search_inside {value : Text} {start stop : Nat} {st : State} {s : Span}
    (hle : start ≤ stop) (hstop : stop ≤ src.text.length)
    (h : (search src value start stop st).1 = .ok (some s)) : s.Inside start stop := by
  unfold search at h
  rw [searchFrom_eq_bestPlace] at h
  rcases bestPlace_mem h with h | h
  · have := ValuePattern.findAll_inside s h
    simp only [List.length_drop, List.length_take] at this
    exact this.mono (Nat.le_refl _) (by omega)
  · cases h

theorem search_state (src : Source) (value : Text) (start stop : Nat) (st : State) :
    (search src value start stop st).2 = st ∨
      (search src value start stop st).2 = st.refresh src := by
  unfold search
  rw [searchFrom_eq_bestPlace, bestPlace_state]
  split
  · exact .inl rfl
  · exact .inr rfl

theorem search_congr (value : Text) {start stop : Nat} {st st' : State} (hle : start ≤ stop)
    (h : ∀ o, start ≤ o → o ≤ stop → st'.hides src o = st.hides src o) :
    (search src value start stop st').1 = (search src value start stop st).1 := by
  unfold search
  rw [searchFrom_eq_bestPlace, searchFrom_eq_bestPlace]
  refine bestPlace_congr fun s hs => ?_
  have hin := ValuePattern.findAll_inside s hs
  simp only [List.length_drop, List.length_take] at hin
  have := hin.lo_le
  have := hin.start_le_stop
  have := hin.stop_le
  exact h s.start (by omega) (by omega)

/-! ## Tags and texts -/

/-- A tag begins with `<` and its name, letter case aside. -/
theorem startsTag_iff {name s : Text} :
    startsTag name s = true ↔ ∃ head rest, s = '<' :: (head ++ rest) ∧
      List.Forall₂ (fun a b => Text.sameLetter a b = true) name head ∧
      ∀ c ∈ rest.head?, (Text.isSpace c || c == '/' || c == '>') = true := by
  constructor
  · intro h
    unfold startsTag at h
    split at h
    · rename_i rest
      simp only [Bool.and_eq_true, beq_iff_eq] at h
      obtain ⟨⟨hlen, hsame⟩, hnext⟩ := h
      refine ⟨rest.take name.length, rest.drop name.length, by rw [List.take_append_drop], ?_, ?_⟩
      · refine List.forall₂_iff_zip.mpr ⟨hlen.symm, fun {a b} hab => ?_⟩
        exact List.all_eq_true.mp hsame (a, b) hab
      · intro c hc
        split at hnext
        · rename_i hnil; simp [hnil] at hc
        · rename_i d more hcons
          rw [hcons, List.head?_cons, Option.mem_some_iff] at hc
          rw [← hc]; exact hnext
    · cases h
  · rintro ⟨head, rest, rfl, hsame, hnext⟩
    obtain ⟨hlen, hzip⟩ := List.forall₂_iff_zip.mp hsame
    have htake : (head ++ rest).take name.length = head := by simp [hlen]
    have hdrop : (head ++ rest).drop name.length = rest := by simp [hlen]
    simp only [startsTag, htake, hdrop, Bool.and_eq_true, List.all_eq_true, beq_iff_eq]
    refine ⟨⟨hlen.symm, fun ab hab => hzip hab⟩, ?_⟩
    cases rest with
    | nil => rfl
    | cons c more => exact hnext c rfl

theorem length_of_startsTag {name s : Text} (h : startsTag name s = true) :
    1 + name.length ≤ s.length := by
  obtain ⟨head, rest, rfl, hsame, -⟩ := startsTag_iff.mp h
  simp only [hsame.length_eq, List.length_cons, List.length_append]
  omega

theorem startsTag_of_mem_tagStarts (src : Source) {name : Text} {offset skip : Nat} {s : Text}
    (hs : src.text.drop offset = s) :
    ∀ o ∈ tagStarts name offset skip s, offset ≤ o ∧ startsTag name (src.text.drop o) = true := by
  fun_induction tagStarts name offset skip s with
  | case1 => simp
  | case2 offset c rest skip ih =>
    intro o ho
    have := ih (by rw [← List.drop_drop, hs]; rfl) o ho
    exact ⟨by omega, this.2⟩
  | case3 offset c rest hstarts ih =>
    intro o ho
    rcases List.mem_cons.mp ho with rfl | ho
    · exact ⟨Nat.le_refl _, by rw [hs]; exact hstarts⟩
    · have := ih (by rw [← List.drop_drop, hs]; rfl) o ho
      exact ⟨by omega, this.2⟩
  | case4 offset c rest _ ih =>
    intro o ho
    have := ih (by rw [← List.drop_drop, hs]; rfl) o ho
    exact ⟨by omega, this.2⟩

/-- A place where a node of the document can stand: an element at an opening tag of its name, a text
anywhere inside the source. -/
inductive Fits (src : Source) : Node → Located → Prop
  | tag {name : Text} {attributes : Attributes} {children : List Node} {o : Nat}
      (h : startsTag name (src.text.drop o) = true) :
      Fits src (.element name attributes children)
        (.tag (OpenTag.scan src.text o (o + 1 + name.length)))
  | text {value : Text} {s : Span} (h : s.Inside 0 src.text.length) :
      Fits src (.leaf .text value) (.text s)

theorem Fits.inside {node : Node} {l : Located} (h : Fits src node l) :
    l.span.Inside 0 src.text.length := by
  cases h with
  | text h => exact h
  | @tag name _ _ o h =>
    have hlen := length_of_startsTag h
    rw [List.length_drop] at hlen
    have hname : o + 1 + name.length ≤ src.text.length := by omega
    have hb := OpenTag.scan_bounds o hname
    exact ⟨by simp, by simp only [Located.span, OpenTag.scan_start]; omega, hb.2⟩

/-- The values of the attributes of a located tag lie inside the tag. -/
theorem Fits.value_inside {node : Node} {t : OpenTag} (h : Fits src node (.tag t))
    {a : WrittenAttribute} (ha : a ∈ t.attributes) : a.value.Inside t.start t.stop := by
  cases h with
  | tag h =>
    rw [OpenTag.scan_start]
    exact (OpenTag.value_inside_scan ha).mono (by omega) (Nat.le_refl _)

/-! ## One step -/

/-- The state after looking around: at most the log has grown and the hidden ranges were refreshed. -/
structure Looked (src : Source) (st st' : State) : Prop where
  cursor : st'.cursor = st.cursor
  remaining : st'.remaining = st.remaining
  last : st'.last = st.last
  hidden : st'.hidden = st.hidden ∨ st'.hidden = (st.refresh src).hidden

namespace Looked

theorem refl (st : State) : Looked src st st := ⟨rfl, rfl, rfl, .inl rfl⟩

theorem refresh (st : State) : Looked src st (st.refresh src) := ⟨by simp, by simp, by simp, .inr rfl⟩

/-- After looking around, a refresh comes to the same as before. -/
theorem hidden_refresh {st st' : State} (h : Looked src st st') :
    (st'.refresh src).hidden = (st.refresh src).hidden := by
  rcases h.hidden with hidden | hidden
  · exact State.refresh_hidden_congr h.cursor hidden
  · rw [State.refresh_hidden_congr (h.cursor.trans (State.refresh_cursor st).symm) hidden,
      State.refresh_refresh]

theorem note {st st' : State} (h : Looked src st st') (message : Text) :
    Looked src st (st'.note message) := ⟨h.cursor, h.remaining, h.last, h.hidden⟩

theorem trans {st st' st'' : State} (h : Looked src st st') (h' : Looked src st' st'') :
    Looked src st st'' where
  cursor := h'.cursor.trans h.cursor
  remaining := h'.remaining.trans h.remaining
  last := h'.last.trans h.last
  hidden := by
    have hrefresh : (st'.refresh src).hidden = (st.refresh src).hidden := h.hidden_refresh
    rcases h'.hidden with h₁ | h₁
    · rw [h₁]; exact h.hidden
    · rw [h₁, hrefresh]; exact .inr rfl

/-- Looking around does not change which offsets are hidden. -/
theorem hides {st st' : State} (h : Looked src st st') (o : Nat) :
    st'.hides src o = st.hides src o := by
  unfold State.hides
  rw [h.hidden_refresh]

theorem of_or {st st' : State} (h : st' = st ∨ st' = st.refresh src) : Looked src st st' := by
  rcases h with rfl | rfl
  · exact refl _
  · exact refresh _

end Looked

/-- The state whose cursor stands behind the place that was found, if one was. -/
def State.moveTo (st : State) : Except LocateError (Option Located) → State
  | .ok (some l) => { st with cursor := l.span.stop }
  | _ => st

/-- The offset of the next opening tag of the given name. -/
def tagPlace (src : Source) (name : Text) (st : State) : Option Nat :=
  (tagStarts name st.cursor 0 (src.text.drop st.cursor)).find? fun o => !st.hides src o

/-- What comes of looking for an element, given where its next opening tag begins. -/
def tagResult (src : Source) (name : Text) (attributes : Attributes) (strict : Bool) (cursor : Nat) :
    Option Nat → Except LocateError (Option Located)
  | none => if strict then .error (.notFound (['<'] ++ name ++ ['>']) cursor) else .ok none
  | some o =>
    match agrees src name attributes (OpenTag.scan src.text o (o + 1 + name.length)) with
    | .error reference => .error (.overlong reference)
    | .ok _ => .ok (some (.tag (OpenTag.scan src.text o (o + 1 + name.length))))

theorem locateTag_eq (src : Source) (name : Text) (attributes : Attributes) (strict : Bool)
    (st : State) :
    ∃ st', Looked src st st' ∧
      -- A place was found by asking whether it is hidden.
      (tagPlace src name st ≠ none → st'.hidden = (st.refresh src).hidden) ∧
      locateTag src name attributes strict st =
        (tagResult src name attributes strict st.cursor (tagPlace src name st),
          st'.moveTo (tagResult src name attributes strict st.cursor (tagPlace src name st))) := by
  simp only [locateTag, firstVisible_eq]
  rw [← tagPlace]
  generalize hst : (if (tagStarts name st.cursor 0 (src.text.drop st.cursor)).isEmpty then st
    else st.refresh src) = asked
  have hasked : Looked src st asked := by
    rw [← hst]; split
    · exact Looked.refl st
    · exact Looked.refresh st
  have hrefreshed : tagPlace src name st ≠ none → asked.hidden = (st.refresh src).hidden := by
    intro hplace
    rw [← hst, if_neg]
    intro hnil
    exact hplace (by simp [tagPlace, List.isEmpty_iff.mp hnil])
  generalize tagPlace src name st = place at hrefreshed
  cases place with
  | none =>
    cases strict with
    | true => exact ⟨asked, hasked, hrefreshed, by simp [tagResult, State.moveTo, hasked.cursor]⟩
    | false => exact ⟨_, hasked.note _, hrefreshed, rfl⟩
  | some o =>
    simp only [tagResult]
    cases agrees src name attributes (OpenTag.scan src.text o (o + 1 + name.length)) with
    | error reference => exact ⟨asked, hasked, hrefreshed, rfl⟩
    | ok same =>
      cases same with
      | true => exact ⟨asked, hasked, hrefreshed, rfl⟩
      | false => exact ⟨_, hasked.note _, hrefreshed, rfl⟩

/-- The offset at which a text is looked for first: the cursor, or behind the gap that stands there. -/
def textStart (src : Source) (value : Text) (cursor : Nat) : Nat :=
  if Text.startsWith value (src.text.drop cursor) then cursor
  else cursor + Hidden.gapLength (src.text.drop cursor)

/-- What comes of looking for a text, given what the search for its value behind the cursor finds. -/
def textResult (src : Source) (value : Text) (strict : Bool) (cursor : Nat)
    (found : Except LocateError (Option Span)) : Except LocateError (Option Located) :=
  let start := textStart src value cursor
  if Text.startsWith value (src.text.drop start) then
    .ok (some (.text ⟨start, start + value.length⟩))
  else if Text.isBlank value then .ok none
  else
    match found with
    | .error e => .error e
    | .ok (some s) => .ok (some (.text s))
    | .ok none => if strict then .error (.notFound value cursor) else .ok none

theorem locateText_eq (src : Source) (value : Text) (strict : Bool) (st : State) :
    ∃ st', Looked src st st' ∧ locateText src value strict st =
      (textResult src value strict st.cursor (search src value st.cursor src.text.length st).1,
        st'.moveTo (textResult src value strict st.cursor
          (search src value st.cursor src.text.length st).1)) := by
  have hsearch := Looked.of_or (search_state src value st.cursor src.text.length st)
  simp only [locateText, textResult]
  rw [← textStart]
  split
  · exact ⟨st, Looked.refl st, rfl⟩
  · split
    · exact ⟨st, Looked.refl st, rfl⟩
    · generalize search src value st.cursor src.text.length st = found at hsearch
      obtain ⟨r, asked⟩ := found
      match r with
      | .error e => exact ⟨asked, hsearch, rfl⟩
      | .ok (some s) => exact ⟨asked, hsearch, rfl⟩
      | .ok none =>
        cases strict with
        | true =>
          have hcursor : asked.cursor = st.cursor := hsearch.cursor
          exact ⟨asked, hsearch, by simp [State.moveTo, hcursor]⟩
        | false => exact ⟨_, hsearch.note _, rfl⟩

/-- A step looks around and then moves the cursor behind the place it found, if any. -/
theorem locate_state (src : Source) (strict : Bool) (st : State) (node : Node) :
    ∃ st', Looked src st st' ∧
      (locate src strict st node).2 = st'.moveTo (locate src strict st node).1 := by
  match node with
  | .element name attributes children =>
    obtain ⟨st', hst', -, he⟩ := locateTag_eq src name attributes strict st
    exact ⟨st', hst', by simp only [locate]; rw [he]⟩
  | .leaf .text value =>
    obtain ⟨st', hst', he⟩ := locateText_eq src value strict st
    exact ⟨st', hst', by simp only [locate]; rw [he]⟩
  | .leaf .comment _ | .leaf .doctype _ | .leaf .cdata _ | .leaf .declaration _
  | .leaf .instruction _ => exact ⟨st, Looked.refl st, rfl⟩

theorem tagResult_found {name : Text} {attributes : Attributes} {children : List Node} {strict : Bool}
    {st : State} {l : Located}
    (h : tagResult src name attributes strict st.cursor (tagPlace src name st) = .ok (some l)) :
    Fits src (.element name attributes children) l ∧ st.cursor ≤ l.span.start := by
  cases hplace : tagPlace src name st with
  | none =>
    rw [hplace, tagResult] at h
    split at h <;> cases h
  | some o =>
    obtain ⟨hle, hstarts⟩ :=
      startsTag_of_mem_tagStarts src rfl o (List.mem_of_find?_eq_some hplace)
    rw [hplace, tagResult] at h
    split at h
    · cases h
    · cases h
      exact ⟨.tag hstarts, by simpa only [Located.span, OpenTag.scan_start] using hle⟩

theorem textStart_bounds {cursor : Nat} (hc : cursor ≤ src.text.length) (value : Text) :
    cursor ≤ textStart src value cursor ∧ textStart src value cursor ≤ src.text.length := by
  have hgap := Hidden.gapLength_le (src.text.drop cursor)
  rw [List.length_drop] at hgap
  unfold textStart
  split <;> omega

theorem textResult_found {value : Text} {strict : Bool} {st : State} {l : Located}
    (hc : st.cursor ≤ src.text.length)
    (h : textResult src value strict st.cursor
      (search src value st.cursor src.text.length st).1 = .ok (some l)) :
    Fits src (.leaf .text value) l ∧ st.cursor ≤ l.span.start := by
  obtain ⟨hge, hle⟩ := textStart_bounds hc value
  simp only [textResult] at h
  split at h
  · rename_i hstarts
    cases h
    have hlen := (Text.startsWith_iff.mp hstarts).length_le
    rw [List.length_drop] at hlen
    exact ⟨.text ⟨Nat.zero_le _, Nat.le_add_right _ _, by simp only; omega⟩, hge⟩
  · split at h
    · cases h
    · split at h
      · cases h
      · rename_i s hs
        cases h
        have hin := search_inside hc (Nat.le_refl _) hs
        exact ⟨.text (hin.mono (Nat.zero_le _) (Nat.le_refl _)), hin.lo_le⟩
      · split at h <;> cases h

/-- A place that is found fits the node and lies at or behind the cursor. -/
theorem locate_found {strict : Bool} {st : State} {node : Node} {l : Located}
    (hc : st.cursor ≤ src.text.length) (h : (locate src strict st node).1 = .ok (some l)) :
    Fits src node l ∧ st.cursor ≤ l.span.start := by
  match node with
  | .element name attributes children =>
    obtain ⟨_, -, -, he⟩ := locateTag_eq src name attributes strict st
    simp only [locate] at h
    rw [he] at h
    exact tagResult_found h
  | .leaf .text value =>
    obtain ⟨_, -, he⟩ := locateText_eq src value strict st
    simp only [locate] at h
    rw [he] at h
    exact textResult_found hc h
  | .leaf .comment _ | .leaf .doctype _ | .leaf .cdata _ | .leaf .declaration _
  | .leaf .instruction _ => simp [locate] at h

/-- The cursor moves forward and stays inside the source. -/
theorem locate_cursor {st : State} (hc : st.cursor ≤ src.text.length) (strict : Bool) (node : Node) :
    st.cursor ≤ (locate src strict st node).2.cursor ∧
      (locate src strict st node).2.cursor ≤ src.text.length := by
  obtain ⟨st', hl, hstate⟩ := locate_state src strict st node
  have hfound : ∀ l, (locate src strict st node).1 = .ok (some l) →
      Fits src node l ∧ st.cursor ≤ l.span.start := fun l => locate_found hc
  rw [hstate]
  match hr : (locate src strict st node).1 with
  | .error e => exact ⟨Nat.le_of_eq hl.cursor.symm, Nat.le_trans (Nat.le_of_eq hl.cursor) hc⟩
  | .ok none => exact ⟨Nat.le_of_eq hl.cursor.symm, Nat.le_trans (Nat.le_of_eq hl.cursor) hc⟩
  | .ok (some l) =>
    obtain ⟨hfits, hle⟩ := hfound l hr
    exact ⟨Nat.le_trans hle hfits.inside.start_le_stop, hfits.inside.stop_le⟩

end Resolver

end Untranslated
