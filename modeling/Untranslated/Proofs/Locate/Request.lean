import Untranslated.Proofs.Locate.Step

/-!
# One request to the resolver

A request first seeks the node of its candidate, then takes the raw range of the candidate there, and
last the evidence in that range (`resolve_eq`). The raw range lies inside the place of the node
(`rangeIn_inside`), and so does the evidence (`resolve_inside`). A request that returns leaves the
resolver at its node, so that the same request gives the same answer again (`resolve_again`).
-/

namespace Untranslated.Resolver

variable {src : Source}

/-- The range of the source that holds a candidate as written, once its node is found, and the scope
that the candidate is reported with. -/
def rangeIn (src : Source) (c : Candidate) (place : Located) (st : State) :
    Except LocateError (Span × Option Text) × State :=
  match c.kind, place with
  | .attribute, .tag t =>
    match locateAttribute src c t st with
    | (.error e, st) => (.error e, st)
    | (.ok s, st) => (.ok (s, some (Text.slice src.text t.start t.stop)), st)
  | .attribute, .text _ => (.error (.notFound c.markup st.cursor), st)
  | .text, .text s => (.ok (s, none), st)
  | .text, .tag _ => (.error (.notFound c.value st.cursor), st)

/-- The range of the source that holds a candidate as written, and its scope. -/
def rawRange (src : Source) (c : Candidate) (st : State) :
    Except LocateError (Span × Option Text) × State :=
  match seek src c st with
  | (.error e, st) => (.error e, st)
  | (.ok place, st) => rangeIn src c place st

theorem resolve_eq (src : Source) (c : Candidate) (st : State) :
    resolve src c st =
      match rawRange src c st with
      | (.error e, st) => (.error e, st)
      | (.ok (s, scope), st) => evidence src c s scope st := by
  unfold resolve rawRange
  generalize seek src c st = sought
  obtain ⟨place, st'⟩ := sought
  cases place with
  | error e => rfl
  | ok place =>
    unfold rangeIn
    match c.kind, place with
    | .text, .text s => rfl
    | .text, .tag t => rfl
    | .attribute, .text s => rfl
    | .attribute, .tag t =>
      simp only
      generalize locateAttribute src c t st' = found
      obtain ⟨found, st''⟩ := found
      cases found <;> rfl

theorem rawRange_of_seek {c : Candidate} {l : Located} {st st' : State} (h : seek src c st = (.ok l, st')) :
    rawRange src c st = rangeIn src c l st' := by
  rw [rawRange, h]

/-- A candidate whose range is known is answered with the evidence in it. -/
theorem resolve_of_rawRange {c : Candidate} {st : State} {r : Span} {scope : Option Text} {e : Option Span}
    (hrange : (rawRange src c st).1 = .ok (r, scope))
    (he : Evidence.range? src.text src.mask r.start r.stop = .ok e) :
    (resolve src c st).1 = .ok (e.map fun e => ⟨e.start, e.stop, scope⟩) := by
  rw [resolve_eq]
  generalize rawRange src c st = ranged at hrange
  obtain ⟨range, st'⟩ := ranged
  subst hrange
  simp only [evidence, he]
  cases e with
  | none => rfl
  | some e => rfl

/-! ## Attributes -/

theorem locateAttribute_state (src : Source) (c : Candidate) (t : OpenTag) (st : State) :
    (locateAttribute src c t st).2 = st ∨ (locateAttribute src c t st).2 = st.refresh src := by
  have hsearch := search_state src c.value t.start t.stop st
  unfold locateAttribute
  simp only
  split
  · exact .inl rfl
  · split
    · rename_i heq; rwa [heq] at hsearch
    · rename_i heq; rwa [heq] at hsearch
    · rename_i heq; rwa [heq] at hsearch

/-- Where an attribute is found depends on the state only through the offsets of the tag that it
hides. -/
theorem locateAttribute_congr {c : Candidate} {t : OpenTag} {st st' : State} (hle : t.start ≤ t.stop)
    (h : ∀ o, t.start ≤ o → o ≤ t.stop → st'.hides src o = st.hides src o) :
    (locateAttribute src c t st').1 = (locateAttribute src c t st).1 := by
  have hsearch := search_congr c.value hle h
  unfold locateAttribute
  simp only
  split
  · rfl
  · generalize search src c.value t.start t.stop st' = r' at hsearch
    generalize search src c.value t.start t.stop st = r at hsearch
    obtain ⟨a', st₁'⟩ := r'
    obtain ⟨a, st₁⟩ := r
    subst hsearch
    match a' with
    | .error e => rfl
    | .ok none => rfl
    | .ok (some s) => rfl

theorem locateAttribute_inside {c : Candidate} {node : Node} {t : OpenTag} {st : State} {s : Span}
    (hfits : Fits src node (.tag t)) (h : (locateAttribute src c t st).1 = .ok s) :
    s.Inside t.start t.stop := by
  have hin := hfits.inside
  unfold locateAttribute at h
  simp only at h
  split at h
  · rename_i a ha
    cases h
    exact hfits.value_inside (OpenTag.mem_of_attribute? (Option.eq_some_of_filter_eq_some ha))
  · split at h
    · cases h
    · rename_i s' st' hs
      cases h
      exact search_inside hin.start_le_stop hin.stop_le (by rw [hs])
    · cases h

/-! ## Raw ranges -/

theorem rangeIn_state (src : Source) (c : Candidate) (place : Located) (st : State) :
    (rangeIn src c place st).2 = st ∨ (rangeIn src c place st).2 = st.refresh src := by
  unfold rangeIn
  match c.kind, place with
  | .text, .text s => exact .inl rfl
  | .text, .tag t => exact .inl rfl
  | .attribute, .text s => exact .inl rfl
  | .attribute, .tag t =>
    have hstate := locateAttribute_state src c t st
    simp only
    generalize locateAttribute src c t st = found at hstate
    obtain ⟨found, st''⟩ := found
    cases found <;> exact hstate

/-- Of the state, only its cursor and the offsets that it hides inside a tag matter. -/
theorem rangeIn_congr {c : Candidate} {node : Node} {place : Located} {st st' : State}
    (hfits : Fits src node place) (hcursor : st'.cursor = st.cursor)
    (h : ∀ t, place = .tag t → ∀ o, t.start ≤ o → o ≤ t.stop → st'.hides src o = st.hides src o) :
    (rangeIn src c place st').1 = (rangeIn src c place st).1 := by
  unfold rangeIn
  match c.kind, place with
  | .text, .text s => rfl
  | .text, .tag t => simp only [hcursor]
  | .attribute, .text s => simp only [hcursor]
  | .attribute, .tag t =>
    have hfound := locateAttribute_congr (c := c) hfits.inside.start_le_stop (h t rfl)
    simp only
    generalize locateAttribute src c t st' = found' at hfound
    generalize locateAttribute src c t st = found at hfound
    obtain ⟨found', st₁'⟩ := found'
    obtain ⟨found, st₁⟩ := found
    subst hfound
    cases found' <;> rfl

/-- A raw range lies inside the place of its node. The scope of an attribute is the opening tag, and
a text has none. -/
theorem rangeIn_inside {c : Candidate} {node : Node} {place : Located} {st : State} {s : Span}
    {scope : Option Text} (hfits : Fits src node place)
    (h : (rangeIn src c place st).1 = .ok (s, scope)) :
    s.Inside place.span.start place.span.stop ∧
      ((c.kind = .text ∧ scope = none) ∨
        (c.kind = .attribute ∧ ∃ t, place = .tag t ∧
          scope = some (Text.slice src.text t.start t.stop))) := by
  unfold rangeIn at h
  match hk : c.kind, place with
  | .text, .text s' =>
    simp only [hk, Except.ok.injEq, Prod.mk.injEq] at h
    obtain ⟨rfl, rfl⟩ := h
    exact ⟨⟨Nat.le_refl _, hfits.inside.start_le_stop, Nat.le_refl _⟩, .inl ⟨rfl, rfl⟩⟩
  | .text, .tag t => simp [hk] at h
  | .attribute, .text s' => simp [hk] at h
  | .attribute, .tag t =>
    simp only [hk] at h
    split at h
    · cases h
    · rename_i heq
      simp only [Except.ok.injEq, Prod.mk.injEq] at h
      obtain ⟨rfl, rfl⟩ := h
      exact ⟨locateAttribute_inside hfits (by rw [heq]), .inr ⟨rfl, t, rfl, rfl⟩⟩

/-- The range of an attribute is that of its value in the tag, if the tag shows one. -/
theorem rangeIn_attribute {c : Candidate} {t : OpenTag} {k : Text} {a : WrittenAttribute} (st : State)
    (hkind : c.kind = .attribute) (hname : c.attributeName = some k) (hfound : t.attribute? k = some a)
    (hne : a.value.start ≠ a.value.stop) :
    rangeIn src c (.tag t) st = (.ok (a.value, some (Text.slice src.text t.start t.stop)), st) := by
  have hkept : Option.filter (fun a => a.value.start != a.value.stop) (some a) = some a := by
    rw [Option.filter_some, if_pos (by simpa using hne)]
  simp only [rangeIn, hkind, locateAttribute, hname, Option.getD_some, hfound, hkept]

/-! ## Seeking a node -/

theorem advance_cons (src : Source) (target : Nat) (missing : Nat → LocateError) (i : Nat)
    (node : Node) (rest : List (Nat × Node)) (st : State) :
    advance src target missing ((i, node) :: rest) st =
      match locate src (i == target) { st with remaining := rest } node with
      | (.error e, st) => (.error e, st)
      | (.ok place, st) =>
        match i == target, place with
        | true, some l => (.ok l, { st with last := some (i, place) })
        | _, _ => advance src target missing rest { st with last := some (i, place) } := rfl

/-- Passing nodes ends at the target. -/
theorem advance_last {target : Nat} {missing : Nat → LocateError} {nodes : List (Nat × Node)}
    {st st' : State} {l : Located} (h : advance src target missing nodes st = (.ok l, st')) :
    st'.last = some (target, some l) := by
  induction nodes generalizing st with
  | nil => cases h
  | cons n rest ih =>
    obtain ⟨i, node⟩ := n
    rw [advance_cons] at h
    split at h
    · cases h
    · split at h
      · rename_i hi _
        cases h
        simpa using hi
      · exact ih h

/-- Once sought, a node is the last one passed. -/
theorem seek_last {c : Candidate} {st st' : State} {l : Located}
    (h : seek src c st = (.ok l, st')) : st'.last = some (c.node, some l) := by
  unfold seek at h
  split at h
  · rename_i i l' hlast
    split at h
    · rename_i hi
      cases h
      rw [hlast, hi]
    · exact advance_last h
  · exact advance_last h

/-- The node passed last is found without moving. -/
theorem seek_of_last {c : Candidate} {st : State} {l : Located}
    (h : st.last = some (c.node, some l)) : seek src c st = (.ok l, st) := by
  simp [seek, h]

/-! ## Requests -/

theorem evidence_result (src : Source) (c : Candidate) (s : Span) (scope : Option Text)
    (st st' : State) : (evidence src c s scope st').1 = (evidence src c s scope st).1 := by
  unfold evidence
  split <;> rfl

theorem evidence_state (src : Source) (c : Candidate) (s : Span) (scope : Option Text) (st : State) :
    Looked src st (evidence src c s scope st).2 := by
  unfold evidence
  split
  · exact Looked.refl st
  · exact Looked.refl st
  · exact (Looked.refl st).note _

/-- A request that returns has sought its node, taken the raw range there and the evidence in it. -/
theorem resolve_ok {c : Candidate} {st st' : State} {r : Option EvidenceSpan}
    (h : resolve src c st = (.ok r, st')) :
    ∃ place st₁ s scope st₂, seek src c st = (.ok place, st₁) ∧
      rangeIn src c place st₁ = (.ok (s, scope), st₂) ∧ evidence src c s scope st₂ = (.ok r, st') := by
  rw [resolve_eq] at h
  unfold rawRange at h
  generalize hseek : seek src c st = sought at h
  obtain ⟨place, st₁⟩ := sought
  cases place with
  | error e => cases h
  | ok place =>
    simp only at h
    generalize hrange : rangeIn src c place st₁ = ranged at h
    obtain ⟨range, st₂⟩ := ranged
    match range with
    | .error e => cases h
    | .ok (s, scope) => exact ⟨place, st₁, s, scope, st₂, rfl, hrange, h⟩

/-- After its node is sought, a request only looks around. -/
theorem resolve_looked (src : Source) (c : Candidate) (st : State) :
    Looked src (seek src c st).2 (resolve src c st).2 := by
  rw [resolve_eq]
  unfold rawRange
  generalize seek src c st = sought
  obtain ⟨place, st₁⟩ := sought
  cases place with
  | error e => exact Looked.refl st₁
  | ok place =>
    have hrange := Looked.of_or (rangeIn_state src c place st₁)
    simp only
    generalize rangeIn src c place st₁ = ranged at hrange
    obtain ⟨range, st₂⟩ := ranged
    match range with
    | .error e => exact hrange
    | .ok (s, scope) => exact hrange.trans (evidence_state src c s scope st₂)

/-- The evidence that a request returns is a non-empty part of the place of its node. -/
theorem resolve_inside {c : Candidate} {st st' : State} {e : EvidenceSpan} {node : Node}
    {place : Located} {st₁ : State} (hseek : seek src c st = (.ok place, st₁))
    (hfits : Fits src node place) (h : resolve src c st = (.ok (some e), st')) :
    place.span.start ≤ e.start ∧ e.start < e.stop ∧ e.stop ≤ place.span.stop ∧
      ((c.kind = .text ∧ e.scope = none) ∨
        (c.kind = .attribute ∧ ∃ t, place = .tag t ∧
          e.scope = some (Text.slice src.text t.start t.stop))) := by
  obtain ⟨place', st₁', s, scope, st₂, hseek', hrange, hev⟩ := resolve_ok h
  obtain ⟨rfl, rfl⟩ : place' = place ∧ st₁' = st₁ := by
    rw [hseek] at hseek'
    simpa [eq_comm] using hseek'
  obtain ⟨hin, hscope⟩ := rangeIn_inside hfits (congrArg Prod.fst hrange)
  unfold evidence at hev
  split at hev
  · cases hev
  · rename_i e' he'
    cases hev
    obtain ⟨hlt, hin'⟩ := Evidence.range?_inside he'
    have := hin.lo_le
    have := hin.stop_le
    have := hin'.lo_le
    have := hin'.stop_le
    exact ⟨by simp only; omega, hlt, by simp only; omega, hscope⟩
  · cases hev

/-- The evidence that a request returns is the evidence of some range of the source. -/
theorem resolve_range {c : Candidate} {st st' : State} {e : EvidenceSpan}
    (h : resolve src c st = (.ok (some e), st')) :
    ∃ s : Span, Evidence.range? src.text src.mask s.start s.stop = .ok (some ⟨e.start, e.stop⟩) := by
  obtain ⟨-, -, s, scope, st₂, -, -, hev⟩ := resolve_ok h
  unfold evidence at hev
  split at hev
  · cases hev
  · rename_i e' he'
    cases hev
    exact ⟨s, he'⟩
  · cases hev

/-- A request that returned gives the same answer again and leaves the cursor where it is. -/
theorem resolve_again {c : Candidate} {st st' : State} {r : Option EvidenceSpan} {node : Node}
    {place : Located} {st₁ : State} (hseek : seek src c st = (.ok place, st₁))
    (hfits : Fits src node place) (h : resolve src c st = (.ok r, st')) :
    (resolve src c st').1 = .ok r ∧ (resolve src c st').2.cursor = st'.cursor := by
  have hlooked : Looked src st₁ st' := by
    have := resolve_looked src c st
    rwa [hseek, h] at this
  have hagain : seek src c st' = (.ok place, st') :=
    seek_of_last (by rw [hlooked.last]; exact seek_last hseek)
  refine ⟨?_, ?_⟩
  · obtain ⟨place', st₁', s, scope, st₂, hseek', hrange, hev⟩ := resolve_ok h
    obtain ⟨rfl, rfl⟩ : place' = place ∧ st₁' = st₁ := by
      rw [hseek] at hseek'
      simpa [eq_comm] using hseek'
    have hrange' : (rangeIn src c place' st').1 = .ok (s, scope) := by
      rw [rangeIn_congr hfits hlooked.cursor fun _ _ o _ _ => hlooked.hides o, hrange]
    rw [resolve_eq, rawRange, hagain]
    simp only
    generalize rangeIn src c place' st' = ranged at hrange'
    obtain ⟨range, st₃⟩ := ranged
    subst hrange'
    simp only
    rw [evidence_result src c s scope st₂, hev]
  · have := (resolve_looked src c st').cursor
    rwa [hagain] at this

end Untranslated.Resolver
