import Untranslated.Proofs.Locate.Run

/-!
# Requests do not influence each other

What is located for a node does not depend on which other candidates were asked for. Requests leave
traces in the resolver: they refresh the hidden ranges, write to the log, and pass nodes in the strict
way. None of this matters for later requests.

* Two states are `Alike` when they stand at the same place of the source and of the document and both
  have hidden ranges that were read at or before their cursors. Alike states seek alike (`Alike.seek`),
  and from there on take the same raw range (`Alike.rawRange`) and give the same answer.
* Requests made in document order only pass nodes, so a request made after them comes to the same as
  if it were the only one (`Reached.resolve`, `Reached.ranges`).
-/

namespace Untranslated.Resolver

variable {src : Source} {d : Document}

/-! ## Hidden ranges in step -/

/-- The hidden ranges were read from a place at or before the cursor. -/
def Synced (src : Source) (st : State) : Prop :=
  ∃ p, p ≤ st.cursor ∧ st.hidden = Hidden.spans src.text p

/-- From the offset `p` on, the hidden ranges are those read from `p`. -/
def InStep (src : Source) (p : Nat) (st : State) : Prop :=
  ∃ before, st.hidden = before ++ Hidden.spans src.text p ∧ ∀ r ∈ before, r.stop ≤ p

theorem Synced.refresh {st : State} (h : Synced src st) : Synced src (st.refresh src) := by
  by_cases hs : ∃ r ∈ st.hidden, r.Straddles st.cursor
  · rw [State.refresh_of_straddles hs]
    exact ⟨st.cursor, Nat.le_refl _, rfl⟩
  · rwa [State.refresh_of_not_straddles fun r hr hst => hs ⟨r, hr, hst⟩]

theorem Synced.looked {st st' : State} (h : Synced src st) (hl : Looked src st st') :
    Synced src st' := by
  have hrefresh := h.refresh
  rcases hl.hidden with hidden | hidden
  · obtain ⟨p, hp, he⟩ := h
    exact ⟨p, hl.cursor ▸ hp, hidden ▸ he⟩
  · obtain ⟨p, hp, he⟩ := hrefresh
    rw [State.refresh_cursor] at hp
    exact ⟨p, hl.cursor ▸ hp, hidden ▸ he⟩

/-- A refresh brings the hidden ranges into step with the cursor. -/
theorem Synced.inStep {st : State} (h : Synced src st) :
    InStep src st.cursor (st.refresh src) := by
  obtain ⟨p, hp, he⟩ := h.refresh
  rw [State.refresh_cursor] at hp
  have hnot := State.not_straddles_refresh src st
  rw [he] at hnot
  obtain ⟨before, hb, hle⟩ := Hidden.spans_resync hp hnot
  exact ⟨before, he.trans hb, hle⟩

/-- Ranges that end at or before an offset decide nothing about it. -/
theorem any_contains_append {before after : List Span} {p o : Nat} (hle : ∀ r ∈ before, r.stop ≤ p)
    (hpo : p ≤ o) :
    ((before ++ after).any fun s => s.contains o) = after.any fun s => s.contains o := by
  rw [List.any_append]
  have : (before.any fun s => s.contains o) = false := by
    rw [List.any_eq_false]
    intro r hr
    have := hle r hr
    simp only [Span.contains, Bool.and_eq_true, decide_eq_true_eq]
    omega
  rw [this, Bool.false_or]

/-- From the cursor on, what is hidden is hidden by what is read from there. -/
theorem Synced.hides {st : State} (h : Synced src st) {o : Nat} (ho : st.cursor ≤ o) :
    st.hides src o = (Hidden.spans src.text st.cursor).any fun s => s.contains o := by
  obtain ⟨before, he, hle⟩ := h.inStep
  rw [State.hides, he, any_contains_append hle ho]

/-- From `p` on, a state in step with `p` hides what the ranges read from `p` hide, or, if one of these
straddles its cursor, what the ranges read from there hide. -/
theorem InStep.hides {p : Nat} {st : State} (h : InStep src p st) (hp : p ≤ st.cursor) {o : Nat}
    (hpo : p ≤ o) :
    st.hides src o =
      if (Hidden.spans src.text p).any fun s => s.start < st.cursor && st.cursor < s.stop then
        (Hidden.spans src.text st.cursor).any fun s => s.contains o
      else (Hidden.spans src.text p).any fun s => s.contains o := by
  obtain ⟨before, he, hle⟩ := h
  have hany : (st.hidden.any fun s => s.start < st.cursor && st.cursor < s.stop) =
      (Hidden.spans src.text p).any fun s => s.start < st.cursor && st.cursor < s.stop := by
    rw [he, List.any_append]
    have : (before.any fun s => s.start < st.cursor && st.cursor < s.stop) = false := by
      rw [List.any_eq_false]
      intro r hr
      have := hle r hr
      simp only [Bool.and_eq_true, decide_eq_true_eq]
      omega
    rw [this, Bool.false_or]
  unfold State.hides State.refresh
  rw [hany]
  split
  · rfl
  · rw [he, any_contains_append hle hpo]

theorem InStep.hides_eq {p : Nat} {st st' : State} (h : InStep src p st) (h' : InStep src p st')
    (hcursor : st'.cursor = st.cursor) (hp : p ≤ st.cursor) {o : Nat} (hpo : p ≤ o) :
    st'.hides src o = st.hides src o := by
  rw [h.hides hp hpo, h'.hides (hcursor ▸ hp) hpo, hcursor]

/-- Behind the cursor, states whose ranges were read in time hide the same offsets. -/
theorem Synced.hides_eq {st st' : State} (h : Synced src st) (h' : Synced src st')
    (hcursor : st'.cursor = st.cursor) {o : Nat} (ho : st.cursor ≤ o) :
    st'.hides src o = st.hides src o := by
  have hstep' := h'.inStep
  rw [hcursor] at hstep'
  rw [← State.hides_refresh st, ← State.hides_refresh st']
  exact h.inStep.hides_eq hstep' (by simp [hcursor]) (by simp) ho

/-! ## Alike states -/

/-- States that no request can tell apart. -/
structure Alike (src : Source) (st st' : State) : Prop where
  cursor : st'.cursor = st.cursor
  remaining : st'.remaining = st.remaining
  last : st'.last = st.last
  left : Synced src st
  right : Synced src st'
  /-- If the node passed last is an element, both states hide the same offsets of its tag. -/
  tag : ∀ i t, st.last = some (i, some (.tag t)) →
    ∀ o, t.start ≤ o → o ≤ t.stop → st'.hides src o = st.hides src o

theorem Alike.refl {st : State} (h : Synced src st) : Alike src st st :=
  ⟨rfl, rfl, rfl, h, h, fun _ _ _ _ _ _ => rfl⟩

theorem Alike.looked {st st' st₁ st₁' : State} (h : Alike src st st') (hl : Looked src st st₁)
    (hl' : Looked src st' st₁') : Alike src st₁ st₁' where
  cursor := by rw [hl'.cursor, hl.cursor, h.cursor]
  remaining := by rw [hl'.remaining, hl.remaining, h.remaining]
  last := by rw [hl'.last, hl.last, h.last]
  left := h.left.looked hl
  right := h.right.looked hl'
  tag i t hlast o h₁ h₂ := by
    rw [hl.hides, hl'.hides]
    exact h.tag i t (hl.last ▸ hlast) o h₁ h₂

theorem tagPlace_congr {name : Text} {st st' : State} (h : Synced src st) (h' : Synced src st')
    (hcursor : st'.cursor = st.cursor) : tagPlace src name st' = tagPlace src name st := by
  have hstarts : ∀ o ∈ tagStarts name st.cursor 0 (src.text.drop st.cursor), st.cursor ≤ o :=
    fun o ho => (startsTag_of_mem_tagStarts src rfl o ho).1
  unfold tagPlace
  rw [hcursor]
  generalize tagStarts name st.cursor 0 (src.text.drop st.cursor) = starts at hstarts
  induction starts with
  | nil => rfl
  | cons o os ih =>
    have ho := hstarts o List.mem_cons_self
    simp only [List.find?_cons, h.hides_eq h' hcursor ho,
      ih fun o' ho' => hstarts o' (List.mem_cons_of_mem _ ho')]

/-- The answer to one step depends on the state only through its cursor. -/
theorem locate_congr {st st' : State} (h : Synced src st) (h' : Synced src st')
    (hcursor : st'.cursor = st.cursor) (hle : st.cursor ≤ src.text.length) (strict : Bool)
    (node : Node) :
    (locate src strict st' node).1 = (locate src strict st node).1 := by
  match node with
  | .element name attributes children =>
    obtain ⟨_, -, -, he⟩ := locateTag_eq src name attributes strict st
    obtain ⟨_, -, -, he'⟩ := locateTag_eq src name attributes strict st'
    simp only [locate]
    rw [he, he', tagPlace_congr h h' hcursor, hcursor]
  | .leaf .text value =>
    obtain ⟨_, -, he⟩ := locateText_eq src value strict st
    obtain ⟨_, -, he'⟩ := locateText_eq src value strict st'
    have hsearch := search_congr value hle fun o ho _ => h.hides_eq h' hcursor ho
    simp only [locate]
    rw [he, he', hcursor, hsearch]
  | .leaf .comment _ | .leaf .doctype _ | .leaf .cdata _ | .leaf .declaration _
  | .leaf .instruction _ => rfl

/-- Locating a tag asks whether it is hidden, so the hidden ranges are refreshed. -/
theorem locate_tag_hidden {strict : Bool} {st : State} {node : Node} {t : OpenTag}
    (hle : st.cursor ≤ src.text.length)
    (h : (locate src strict st node).1 = .ok (some (.tag t))) :
    (locate src strict st node).2.hidden = (st.refresh src).hidden := by
  obtain ⟨hfits, -⟩ := locate_found hle h
  cases hfits with
  | @tag name attributes children o _ =>
    obtain ⟨st', -, hhidden, he⟩ := locateTag_eq src name attributes strict st
    simp only [locate] at h ⊢
    rw [he] at h ⊢
    simp only at h ⊢
    rw [h]
    refine hhidden fun hnone => ?_
    rw [hnone, tagResult] at h
    split at h <;> cases h

theorem Synced.moveTo {st : State} (h : Synced src st) {r : Except LocateError (Option Located)}
    (hr : ∀ l, r = .ok (some l) → st.cursor ≤ l.span.stop) : Synced src (st.moveTo r) := by
  obtain ⟨p, hp, he⟩ := h
  match r with
  | .error e => exact ⟨p, hp, he⟩
  | .ok none => exact ⟨p, hp, he⟩
  | .ok (some l) => exact ⟨p, Nat.le_trans hp (hr l rfl), he⟩

/-- A step leaves ranges behind that were read in time. -/
theorem Synced.locate {st : State} (h : Synced src st) (hle : st.cursor ≤ src.text.length)
    (strict : Bool) (node : Node) : Synced src (Resolver.locate src strict st node).2 := by
  obtain ⟨st₁, hl, hstate⟩ := locate_state src strict st node
  rw [hstate]
  refine (h.looked hl).moveTo fun l hr => ?_
  obtain ⟨hfits, hge⟩ := locate_found hle hr
  rw [hl.cursor]
  exact Nat.le_trans hge hfits.inside.start_le_stop

/-- A tag was located by asking at the cursor before it, so the ranges are in step from there on. -/
theorem Synced.inStep_locate {st : State} (h : Synced src st) (hle : st.cursor ≤ src.text.length)
    {strict : Bool} {node : Node} {t : OpenTag}
    (hplace : (Resolver.locate src strict st node).1 = .ok (some (.tag t))) :
    InStep src st.cursor (Resolver.locate src strict st node).2 := by
  obtain ⟨before, he, hb⟩ := h.inStep
  exact ⟨before, (locate_tag_hidden hle hplace).trans he, hb⟩

theorem Alike.withRemaining {st st' : State} (h : Alike src st st') (rest : List (Nat × Node)) :
    Alike src { st with remaining := rest } { st' with remaining := rest } where
  cursor := h.cursor
  remaining := rfl
  last := h.last
  left := h.left
  right := h.right
  tag i t hlast o h₁ h₂ := by simpa using h.tag i t hlast o h₁ h₂

/-- One step taken from alike states, the node counted as passed. -/
theorem Alike.pass {st st' : State} (h : Alike src st st') (hle : st.cursor ≤ src.text.length)
    (i : Nat) {strict : Bool} {node : Node} {place : Option Located}
    (hplace : (locate src strict st node).1 = .ok place) :
    Alike src { (locate src strict st node).2 with last := some (i, place) }
      { (locate src strict st' node).2 with last := some (i, place) } := by
  have hle' : st'.cursor ≤ src.text.length := h.cursor ▸ hle
  have hplace' : (locate src strict st' node).1 = .ok place := by
    rw [locate_congr h.left h.right h.cursor hle, hplace]
  obtain ⟨st₁, hl, hstate⟩ := locate_state src strict st node
  obtain ⟨st₁', hl', hstate'⟩ := locate_state src strict st' node
  have hlooked := h.looked hl hl'
  rw [hplace] at hstate
  rw [hplace'] at hstate'
  have hcursor : (locate src strict st' node).2.cursor = (locate src strict st node).2.cursor := by
    rw [hstate, hstate']
    cases place with
    | none => exact hlooked.cursor
    | some l => rfl
  have hremaining :
      (locate src strict st' node).2.remaining = (locate src strict st node).2.remaining := by
    rw [hstate, hstate']
    cases place with
    | none => exact hlooked.remaining
    | some l => exact hlooked.remaining
  refine ⟨hcursor, hremaining, rfl, h.left.locate hle strict node, h.right.locate hle' strict node,
    fun j t hlast o h₁ h₂ => ?_⟩
  obtain rfl : place = some (.tag t) := by
    simp only [Option.some.injEq, Prod.mk.injEq] at hlast
    exact hlast.2
  have hstep := h.left.inStep_locate hle hplace
  have hstep' := h.right.inStep_locate hle' hplace'
  rw [h.cursor] at hstep'
  obtain ⟨-, hge⟩ := locate_found hle hplace
  have hend := (locate_cursor hle strict node).1
  have hhides := hstep.hides_eq hstep' hcursor hend (Nat.le_trans hge h₁)
  simpa using hhides

/-- Alike states pass nodes alike. -/
theorem Alike.advance {target : Nat} {missing : Nat → LocateError} {nodes : List (Nat × Node)}
    {st st' : State} (h : Alike src st st') (hle : st.cursor ≤ src.text.length) :
    (Resolver.advance src target missing nodes st').1 =
        (Resolver.advance src target missing nodes st).1 ∧
      Alike src (Resolver.advance src target missing nodes st).2
        (Resolver.advance src target missing nodes st').2 := by
  induction nodes generalizing st st' with
  | nil => exact ⟨by simp only [Resolver.advance, h.cursor], h.withRemaining []⟩
  | cons n rest ih =>
    obtain ⟨i, node⟩ := n
    have hrest := h.withRemaining rest
    have hsame := locate_congr hrest.left hrest.right hrest.cursor hle (i == target) node
    have hcursor : (locate src (i == target) { st with remaining := rest } node).2.cursor ≤
        src.text.length := (locate_cursor (show State.cursor { st with remaining := rest } ≤ _ from hle)
          (i == target) node).2
    obtain ⟨st₁, hl, hstate⟩ := locate_state src (i == target) { st with remaining := rest } node
    obtain ⟨st₁', hl', hstate'⟩ := locate_state src (i == target) { st' with remaining := rest } node
    have hpass : ∀ place,
        (locate src (i == target) { st with remaining := rest } node).1 = .ok place →
        Alike src
          { (locate src (i == target) { st with remaining := rest } node).2 with
            last := some (i, place) }
          { (locate src (i == target) { st' with remaining := rest } node).2 with
            last := some (i, place) } := fun _ => hrest.pass hle i
    rw [advance_cons, advance_cons]
    generalize locate src (i == target) { st with remaining := rest } node = located at *
    generalize locate src (i == target) { st' with remaining := rest } node = located' at *
    obtain ⟨r, s⟩ := located
    obtain ⟨r', s'⟩ := located'
    simp only at hsame hcursor hstate hstate' hpass
    subst hsame
    match r' with
    | .error e =>
      rw [hstate, hstate']
      exact ⟨rfl, hrest.looked hl hl'⟩
    | .ok place =>
      have hnext := hpass place rfl
      match i == target, place with
      | true, some l => exact ⟨rfl, hnext⟩
      | true, none => exact ih hnext hcursor
      | false, place => exact ih hnext hcursor

/-- Alike states seek alike. -/
theorem Alike.seek {st st' : State} (h : Alike src st st') (hle : st.cursor ≤ src.text.length)
    (c : Candidate) :
    (Resolver.seek src c st').1 = (Resolver.seek src c st).1 ∧
      Alike src (Resolver.seek src c st).2 (Resolver.seek src c st').2 := by
  unfold Resolver.seek
  rw [h.last, h.remaining]
  match hlast : st.last with
  | none => exact h.advance hle
  | some (i, none) => exact h.advance hle
  | some (i, some l) =>
    simp only
    split
    · exact ⟨rfl, h⟩
    · exact h.advance hle

/-- The raw range of a candidate depends on the state only through what seeking its node gives. -/
theorem Alike.rawRange {st st' : State} {trail : List (Nat × Located)} (htrail : Trail src d st trail)
    (c : Candidate) (hsame : (Resolver.seek src c st').1 = (Resolver.seek src c st).1)
    (halike : Alike src (Resolver.seek src c st).2 (Resolver.seek src c st').2) :
    (Resolver.rawRange src c st').1 = (Resolver.rawRange src c st).1 := by
  unfold Resolver.rawRange
  have hsought : ∀ place s, Resolver.seek src c st = (.ok place, s) →
      (∃ node, Fits src node place) ∧ s.last = some (c.node, some place) := by
    intro place s hseek
    obtain ⟨htrail', -⟩ := htrail.seek (c := c)
    rw [seekTraced_fst, hseek] at htrail'
    obtain ⟨node, -, hfits⟩ := htrail'.fits _ (htrail'.last c.node place (seek_last hseek)).1
    exact ⟨⟨node, hfits⟩, seek_last hseek⟩
  generalize Resolver.seek src c st = sought at *
  generalize Resolver.seek src c st' = sought' at *
  obtain ⟨r, s⟩ := sought
  obtain ⟨r', s'⟩ := sought'
  simp only at hsame halike
  subst hsame
  match r' with
  | .error e => rfl
  | .ok place =>
    obtain ⟨⟨node, hfits⟩, hlast⟩ := hsought place s rfl
    exact rangeIn_congr (c := c) hfits halike.cursor
      fun t ht => halike.tag c.node t (by rw [hlast, ht])

/-- The answer to a request depends on the state only through the raw range. -/
theorem resolve_congr {c : Candidate} {st st' : State}
    (h : (rawRange src c st').1 = (rawRange src c st).1) :
    (resolve src c st').1 = (resolve src c st).1 := by
  rw [resolve_eq, resolve_eq]
  generalize rawRange src c st = ranged at h
  generalize rawRange src c st' = ranged' at h
  obtain ⟨range, s⟩ := ranged
  obtain ⟨range', s'⟩ := ranged'
  subst h
  match range' with
  | .error e => rfl
  | .ok (span, scope) => exact evidence_result src c span scope s s'

/-! ## Requests in document order -/

/-- What is found strictly is found. -/
theorem locate_of_strict {strict : Bool} {st st' : State} {node : Node} {place : Option Located}
    (h : locate src strict st node = (.ok place, st')) :
    locate src false st node = (.ok place, st') := by
  match node with
  | .element name attributes children =>
    simp only [locate, locateTag] at h ⊢
    split
    · rename_i hfirst
      rwa [hfirst] at h
    · rename_i hfirst
      rw [hfirst] at h
      simp only at h
      split at h
      · cases h
      · simpa using h
  | .leaf .text value =>
    simp only [locate, locateText] at h ⊢
    generalize (if Text.startsWith value (src.text.drop st.cursor) then st.cursor
      else st.cursor + Hidden.gapLength (src.text.drop st.cursor)) = start at h ⊢
    split at h
    · rename_i hstarts
      rwa [if_pos hstarts]
    · rename_i hstarts
      rw [if_neg hstarts]
      split at h
      · rename_i hblank
        rwa [if_pos hblank]
      · rename_i hblank
        rw [if_neg hblank]
        generalize search src value st.cursor src.text.length st = found at h ⊢
        obtain ⟨r, s⟩ := found
        cases r with
        | error e => exact h
        | ok span =>
          cases span with
          | some span => exact h
          | none =>
            simp only at h ⊢
            split at h
            · cases h
            · simpa using h
  | .leaf .comment _ | .leaf .doctype _ | .leaf .cdata _ | .leaf .declaration _
  | .leaf .instruction _ => exact h

theorem advance_mem {target : Nat} {missing : Nat → LocateError} {nodes : List (Nat × Node)}
    {st st' : State} {l : Located} (h : advance src target missing nodes st = (.ok l, st')) :
    ∃ node, (target, node) ∈ nodes := by
  induction nodes generalizing st with
  | nil => cases h
  | cons n rest ih =>
    obtain ⟨i, node⟩ := n
    rw [advance_cons] at h
    split at h
    · cases h
    · split at h
      · rename_i hi _
        rw [beq_iff_eq] at hi
        exact ⟨node, hi ▸ List.mem_cons_self⟩
      · obtain ⟨node', hmem⟩ := ih h
        exact ⟨node', List.mem_cons_of_mem _ hmem⟩

/-- What is reported when the nodes run out does not matter for a node that is found. -/
theorem advance_missing {target : Nat} {missing : Nat → LocateError} (missing' : Nat → LocateError)
    {nodes : List (Nat × Node)} {st st' : State} {l : Located}
    (h : advance src target missing nodes st = (.ok l, st')) :
    advance src target missing' nodes st = (.ok l, st') := by
  induction nodes generalizing st with
  | nil => cases h
  | cons n rest ih =>
    obtain ⟨i, node⟩ := n
    rw [advance_cons] at h ⊢
    split at h
    · cases h
    · split at h
      · exact h
      · exact ih h

/-- A node that stands behind a found one is sought as if from where that one was found. -/
theorem advance_past {target target' : Nat} {missing missing' : Nat → LocateError}
    {nodes : List (Nat × Node)} {st st' : State} {l : Located}
    (hnodes : nodes.Pairwise fun p q => p.1 < q.1)
    (h : advance src target missing nodes st = (.ok l, st')) (hlt : target < target') :
    advance src target' missing' nodes st = advance src target' missing' st'.remaining st' := by
  induction nodes generalizing st with
  | nil => cases h
  | cons n rest ih =>
    obtain ⟨i, node⟩ := n
    obtain ⟨hfirst, hrest⟩ := List.pairwise_cons.mp hnodes
    have hi : i ≤ target := by
      obtain ⟨node', hmem⟩ := advance_mem h
      rcases List.mem_cons.mp hmem with heq | hmem
      · exact Nat.le_of_eq (Prod.mk.inj heq).1.symm
      · exact Nat.le_of_lt (hfirst _ hmem)
    have hne : (i == target') = false := by
      rw [beq_eq_false_iff_ne]
      omega
    rw [advance_cons] at h ⊢
    rw [hne]
    split at h
    · cases h
    · rename_i place st₁ hlocate
      rw [locate_of_strict hlocate]
      split at h
      · rename_i hstrict l'
        cases h
        have hremaining : st₁.remaining = rest := by
          obtain ⟨st₂, hlooked, hstate⟩ :=
            locate_state src (i == target) { st with remaining := rest } node
          rw [hlocate] at hstate
          simp only at hstate
          rw [hstate]
          exact hlooked.remaining
        simp only [hremaining]
      · exact ih hrest h

/-- A state that requests in document order have led to, the last of them for the node before the
`k`-th: seeking a node from there on gives the same as from the start. -/
structure Reached (src : Source) (d : Document) (k : Nat) (st : State) : Prop where
  trail : ∃ trail, Trail src d st trail
  seek : ∀ c : Candidate, k ≤ c.node + 1 →
    (Resolver.seek src c st).1 = (Resolver.seek src c (State.start src d)).1 ∧
      Alike src (Resolver.seek src c (State.start src d)).2 (Resolver.seek src c st).2

theorem Synced.start (src : Source) (d : Document) : Synced src (State.start src d) :=
  ⟨0, Nat.le_refl _, rfl⟩

theorem Reached.start (src : Source) (d : Document) : Reached src d 0 (State.start src d) where
  trail := ⟨[], Trail.start src d⟩
  seek c _ := ⟨rfl, ((Alike.refl (Synced.start src d)).seek (Trail.start src d).cursor_le c).2⟩

/-- The raw range of a candidate does not depend on the requests made before it in document order. -/
theorem Reached.rawRange {k : Nat} {st : State} (h : Reached src d k st) {c : Candidate}
    (hk : k ≤ c.node + 1) :
    (Resolver.rawRange src c st).1 = (Resolver.rawRange src c (State.start src d)).1 := by
  obtain ⟨hsame, halike⟩ := h.seek c hk
  exact Alike.rawRange (Trail.start src d) c hsame halike

/-- Nor does the answer to a request. -/
theorem Reached.resolve {k : Nat} {st : State} (h : Reached src d k st) {c : Candidate}
    (hk : k ≤ c.node + 1) :
    (Resolver.resolve src c st).1 = (Resolver.resolve src c (State.start src d)).1 :=
  resolve_congr (h.rawRange hk)

/-- From where a node was found, the node itself and later ones are sought as from the start. -/
theorem seek_past {c c' : Candidate} {l : Located} {st : State}
    (h : seek src c (State.start src d) = (.ok l, st)) (hle : c.node ≤ c'.node) :
    seek src c' st = seek src c' (State.start src d) := by
  have hseek : ∀ c, seek src c (State.start src d) =
    advance src c.node (missing c) d.indexed (State.start src d) := fun _ => rfl
  have hlast := seek_last h
  rw [hseek] at h ⊢
  rcases Nat.lt_or_eq_of_le hle with hlt | heq
  · rw [advance_past d.pairwise_indexed h hlt, seek, hlast]
    simp only
    rw [if_neg (Nat.ne_of_lt hlt)]
  · rw [heq] at h hlast
    rw [seek_of_last hlast, advance_missing (missing c') h]

/-- Nodes that are sought from the start are found in document order. -/
theorem seek_stop_le_start {c c' : Candidate} {l l' : Located} {st st' : State}
    (h : seek src c (State.start src d) = (.ok l, st))
    (h' : seek src c' (State.start src d) = (.ok l', st')) (hlt : c.node < c'.node) :
    l.span.stop ≤ l'.span.start := by
  rw [← seek_past h (Nat.le_of_lt hlt)] at h'
  obtain ⟨htrail, -⟩ := (Trail.start src d).seek (c := c)
  rw [seekTraced_fst, h] at htrail
  obtain ⟨htrail', -⟩ := htrail.seek (c := c')
  rw [seekTraced_fst, h'] at htrail'
  have hmem := (htrail.last _ _ (seek_last h)).1
  have hmem' := (htrail'.last _ _ (seek_last h')).1
  exact htrail'.stop_le_start (List.mem_append_left _ hmem) hmem' hlt

/-- A request that returns leads to the state of a request made at the start. -/
theorem Reached.next {k : Nat} {st st' : State} (h : Reached src d k st) {c : Candidate}
    {r : Option EvidenceSpan} (hk : k ≤ c.node + 1)
    (hresolve : Resolver.resolve src c st = (.ok r, st')) : Reached src d (c.node + 1) st' := by
  obtain ⟨trail, htrail⟩ := h.trail
  have hafter : (call src c st).after = st' := congrArg Prod.snd hresolve
  obtain ⟨hsame, halike⟩ := h.seek c hk
  have hlooked := resolve_looked src c st
  rw [hresolve] at hlooked
  obtain ⟨l, st₁, -, -, -, hseek, -, -⟩ := resolve_ok hresolve
  rw [hseek] at hsame halike hlooked
  generalize hfirst : Resolver.seek src c (State.start src d) = first at hsame halike
  obtain ⟨r₀, st₀⟩ := first
  simp only at hsame halike hlooked
  subst hsame
  have halike' : Alike src st₀ st' := halike.looked (Looked.refl st₀) hlooked
  obtain ⟨htrail₀, -⟩ := (Trail.start src d).seek (c := c)
  rw [seekTraced_fst, hfirst] at htrail₀
  refine ⟨⟨_, hafter ▸ (htrail.call (c := c)).1⟩, fun c' hc' => ?_⟩
  rw [← seek_past hfirst (Nat.le_of_succ_le_succ hc')]
  exact halike'.seek htrail₀.cursor_le c'

/-- The raw ranges that requests take, one after the other. -/
def ranges (src : Source) : List Candidate → State → List (Except LocateError (Span × Option Text))
  | [], _ => []
  | c :: cs, st => (rawRange src c st).1 :: ranges src cs (resolve src c st).2

/-- Requests in document order, all of which return, take the ranges that each takes alone. -/
theorem Reached.ranges {k : Nat} {st : State} (h : Reached src d k st) {cs : List Candidate}
    (hk : ∀ c ∈ cs, k ≤ c.node + 1) (hcs : cs.Pairwise fun c c' => c.node ≤ c'.node)
    (hok : ∀ c ∈ cs, ∃ r, (Resolver.resolve src c (State.start src d)).1 = .ok r) :
    Resolver.ranges src cs st =
      cs.map fun c => (Resolver.rawRange src c (State.start src d)).1 := by
  induction cs generalizing k st with
  | nil => rfl
  | cons c cs ih =>
    obtain ⟨hc, hrest⟩ := List.forall_mem_cons.mp hk
    obtain ⟨hfirst, hpairs⟩ := List.pairwise_cons.mp hcs
    obtain ⟨⟨r, hr⟩, hothers⟩ := List.forall_mem_cons.mp hok
    rw [← h.resolve hc] at hr
    have hnext := h.next hc (show Resolver.resolve src c st = (.ok r, _) from Prod.ext hr rfl)
    rw [Resolver.ranges, List.map_cons, h.rawRange hc,
      ih hnext (fun c' hc' => Nat.succ_le_succ (hfirst c' hc')) hpairs hothers]

end Untranslated.Resolver
