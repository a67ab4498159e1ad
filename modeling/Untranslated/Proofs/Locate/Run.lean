import Untranslated.Proofs.Locate.Request

/-!
# Runs of the resolver

A run is any sequence of requests to one resolver: candidates may come in any order, again and again,
and requests may fail in between. `calls` lists what each request of a run did, together with the places
that it found on the way (`seekTraced`, which is `seek` with these places noted down).

The invariant of a run is `Trail`: the places found so far lie one behind the other in the order of
their nodes, all of them before the cursor, and the nodes not yet passed come later in the document.
One node passed keeps it (`Trail.pass`), hence one request does (`Trail.seek`), hence every run
(`resolver_run_orderly`).
-/

namespace Untranslated

/-- The nodes of a document with their places in document order. -/
def Document.indexed (d : Document) : List (Nat × Node) := d.nodes.zipIdx.map fun (n, i) => (i, n)

theorem Document.mem_indexed {d : Document} {i : Nat} {node : Node} :
    (i, node) ∈ d.indexed ↔ d.nodes[i]? = some node := by
  simp [Document.indexed, List.mem_zipIdx_iff_getElem?]

theorem Document.pairwise_indexed (d : Document) : d.indexed.Pairwise fun p q => p.1 < q.1 := by
  rw [List.pairwise_iff_getElem]
  intro i j hi hj hij
  simpa [Document.indexed] using hij

namespace Resolver

variable {src : Source} {d : Document}

/-! ## Places found on the way -/

/-- `advance`, together with the places that it finds, in the order in which it finds them. -/
def advanceTraced (src : Source) (target : Nat) (missing : Nat → LocateError) :
    List (Nat × Node) → State → (Except LocateError Located × State) × List (Nat × Located)
  | [], st => ((.error (missing st.cursor), { st with remaining := [] }), [])
  | (i, node) :: rest, st =>
    match locate src (i == target) { st with remaining := rest } node with
    | (.error e, st) => ((.error e, st), [])
    | (.ok none, st) => advanceTraced src target missing rest { st with last := some (i, none) }
    | (.ok (some l), st) =>
      let st := { st with last := some (i, some l) }
      if i == target then ((.ok l, st), [(i, l)])
      else
        let (r, found) := advanceTraced src target missing rest st
        (r, (i, l) :: found)

theorem advanceTraced_fst (target : Nat) (missing : Nat → LocateError) (nodes : List (Nat × Node))
    (st : State) :
    (advanceTraced src target missing nodes st).1 = advance src target missing nodes st := by
  induction nodes generalizing st with
  | nil => rfl
  | cons n rest ih =>
    obtain ⟨i, node⟩ := n
    rw [advance_cons, advanceTraced]
    generalize locate src (i == target) { st with remaining := rest } node = located
    obtain ⟨r, st'⟩ := located
    match r with
    | .error e => rfl
    | .ok none => simp [ih]
    | .ok (some l) =>
      cases i == target with
      | true => rfl
      | false => simp [ih]

/-- `seek`, together with the places that it finds on the way. -/
def seekTraced (src : Source) (c : Candidate) (st : State) :
    (Except LocateError Located × State) × List (Nat × Located) :=
  match st.last with
  | some (i, some l) =>
    if i = c.node then ((.ok l, st), [])
    else advanceTraced src c.node (missing c) st.remaining st
  | _ => advanceTraced src c.node (missing c) st.remaining st

theorem seekTraced_fst (src : Source) (c : Candidate) (st : State) :
    (seekTraced src c st).1 = seek src c st := by
  unfold seekTraced seek
  match st.last with
  | none => exact advanceTraced_fst ..
  | some (i, none) => exact advanceTraced_fst ..
  | some (i, some l) =>
    simp only
    split
    · rfl
    · exact advanceTraced_fst ..

/-- One request of a run. -/
structure Call where
  candidate : Candidate
  before : State
  /-- The nodes located anew, with their places. -/
  found : List (Nat × Located)
  result : Except LocateError (Option EvidenceSpan)
  after : State

/-- What a request does. -/
def call (src : Source) (c : Candidate) (st : State) : Call :=
  ⟨c, st, (seekTraced src c st).2, (resolve src c st).1, (resolve src c st).2⟩

/-- The requests of a run, one after the other on the same resolver. -/
def calls (src : Source) : List Candidate → State → List Call
  | [], _ => []
  | c :: cs, st => call src c st :: calls src cs (call src c st).after

/-! ## The invariant -/

/-- The places `trail` found so far lead up to the state. -/
structure Trail (src : Source) (d : Document) (st : State) (trail : List (Nat × Located)) : Prop where
  cursor_le : st.cursor ≤ src.text.length
  remaining : st.remaining <:+ d.indexed
  /-- Later nodes stand behind earlier ones. -/
  ordered : trail.Pairwise fun p q => p.1 < q.1 ∧ p.2.span.stop ≤ q.2.span.start
  /-- All places lie before the cursor, and all their nodes before those that remain. -/
  passed : ∀ p ∈ trail, p.2.span.stop ≤ st.cursor ∧ ∀ q ∈ st.remaining, p.1 < q.1
  fits : ∀ p ∈ trail, ∃ node, d.nodes[p.1]? = some node ∧ Fits src node p.2
  /-- The node passed last is the last one of the trail, if it was located. -/
  last : ∀ i l, st.last = some (i, some l) → (i, l) ∈ trail ∧ st.cursor = l.span.stop

theorem Trail.start (src : Source) (d : Document) : Trail src d (State.start src d) [] where
  cursor_le := Nat.zero_le _
  remaining := List.suffix_refl _
  ordered := List.Pairwise.nil
  passed := by simp
  fits := by simp
  last := by simp [State.start]

theorem Trail.looked {st st' : State} {trail : List (Nat × Located)} (h : Trail src d st trail)
    (hl : Looked src st st') : Trail src d st' trail where
  cursor_le := hl.cursor ▸ h.cursor_le
  remaining := hl.remaining ▸ h.remaining
  ordered := h.ordered
  passed := by rw [hl.cursor, hl.remaining]; exact h.passed
  fits := h.fits
  last := by rw [hl.cursor, hl.last]; exact h.last

/-- A node is passed over: it is no longer among those that remain. -/
theorem Trail.drop {st : State} {trail : List (Nat × Located)} (h : Trail src d st trail)
    {n : Nat × Node} {rest : List (Nat × Node)} (hrem : st.remaining = n :: rest) :
    Trail src d { st with remaining := rest } trail where
  cursor_le := h.cursor_le
  remaining := (List.suffix_cons n rest).trans (hrem ▸ h.remaining)
  ordered := h.ordered
  passed p hp :=
    ⟨(h.passed p hp).1, fun q hq => (h.passed p hp).2 q (hrem ▸ List.mem_cons_of_mem n hq)⟩
  fits := h.fits
  last := h.last

/-- A node that is not located leaves the trail as it is. -/
theorem Trail.skip {st : State} {trail : List (Nat × Located)} (h : Trail src d st trail) (i : Nat) :
    Trail src d { st with last := some (i, none) } trail where
  cursor_le := h.cursor_le
  remaining := h.remaining
  ordered := h.ordered
  passed := h.passed
  fits := h.fits
  last := by simp

/-- A node that is located behind the cursor becomes the end of the trail. -/
theorem Trail.push {st : State} {trail : List (Nat × Located)} (h : Trail src d st trail) {i : Nat}
    {node : Node} {l : Located} (hnode : d.nodes[i]? = some node) (hfits : Fits src node l)
    (hle : st.cursor ≤ l.span.start) (hbefore : ∀ p ∈ trail, p.1 < i)
    (hafter : ∀ q ∈ st.remaining, i < q.1) :
    Trail src d { st with cursor := l.span.stop, last := some (i, some l) } (trail ++ [(i, l)]) where
  cursor_le := hfits.inside.stop_le
  remaining := h.remaining
  ordered := by
    refine List.pairwise_append.mpr ⟨h.ordered, List.pairwise_singleton _ _, fun p hp q hq => ?_⟩
    rw [List.mem_singleton.mp hq]
    exact ⟨hbefore p hp, Nat.le_trans (h.passed p hp).1 hle⟩
  passed p hp := by
    rcases List.mem_append.mp hp with hp | hp
    · have := (h.passed p hp).1
      have := hfits.inside.start_le_stop
      exact ⟨by simp only; omega, (h.passed p hp).2⟩
    · rw [List.mem_singleton.mp hp]
      exact ⟨Nat.le_refl _, hafter⟩
  fits p hp := by
    rcases List.mem_append.mp hp with hp | hp
    · exact h.fits p hp
    · rw [List.mem_singleton.mp hp]
      exact ⟨node, hnode, hfits⟩
  last j m hlast := by
    simp only [Option.some.injEq, Prod.mk.injEq] at hlast
    obtain ⟨rfl, rfl⟩ := hlast
    exact ⟨by simp, rfl⟩

/-- The nodes that remain come later in the document than the one just passed. -/
theorem Trail.lt_of_mem_rest {st : State} {trail : List (Nat × Located)} (h : Trail src d st trail)
    {i : Nat} {node : Node} {rest : List (Nat × Node)} (hrem : st.remaining = (i, node) :: rest) :
    d.nodes[i]? = some node ∧ ∀ q ∈ rest, i < q.1 := by
  have hsuffix := h.remaining
  rw [hrem] at hsuffix
  refine ⟨Document.mem_indexed.mp (hsuffix.subset List.mem_cons_self), ?_⟩
  exact (List.pairwise_cons.mp (d.pairwise_indexed.sublist hsuffix.sublist)).1

/-- Passing nodes extends the trail by the places found and moves the cursor forward. -/
theorem Trail.advance {target : Nat} {missing : Nat → LocateError} {nodes : List (Nat × Node)}
    {st : State} {trail : List (Nat × Located)} (h : Trail src d st trail)
    (hrem : st.remaining = nodes) :
    Trail src d (advanceTraced src target missing nodes st).1.2
        (trail ++ (advanceTraced src target missing nodes st).2) ∧
      st.cursor ≤ (advanceTraced src target missing nodes st).1.2.cursor := by
  induction nodes generalizing st trail with
  | nil =>
    refine ⟨?_, Nat.le_refl _⟩
    have hst : { st with remaining := [] } = st := by rw [← hrem]
    simpa [advanceTraced, hst] using h
  | cons n rest ih =>
    obtain ⟨i, node⟩ := n
    obtain ⟨hnode, hafter⟩ := h.lt_of_mem_rest hrem
    have hdrop := h.drop hrem
    have hbefore : ∀ p ∈ trail, p.1 < i := fun p hp =>
      (h.passed p hp).2 (i, node) (hrem ▸ List.mem_cons_self)
    obtain ⟨looked, hlooked, hstate⟩ :=
      locate_state src (i == target) { st with remaining := rest } node
    have hfound : ∀ l, (locate src (i == target) { st with remaining := rest } node).1 =
        .ok (some l) → Fits src node l ∧ st.cursor ≤ l.span.start :=
      fun l => locate_found hdrop.cursor_le
    rw [advanceTraced]
    generalize locate src (i == target) { st with remaining := rest } node = located at hstate hfound
    obtain ⟨r, st'⟩ := located
    simp only at hstate hfound
    subst hstate
    have hl := hdrop.looked hlooked
    match r with
    | .error e =>
      simpa [State.moveTo] using And.intro hl (Nat.le_of_eq hlooked.cursor.symm)
    | .ok none =>
      have := ih (hl.skip i) (hlooked.remaining)
      exact ⟨this.1, Nat.le_trans (Nat.le_of_eq hlooked.cursor.symm) this.2⟩
    | .ok (some l) =>
      obtain ⟨hfits, hle⟩ := hfound l rfl
      have hpush := hl.push hnode hfits (hlooked.cursor ▸ hle) hbefore
        (by rw [hlooked.remaining]; exact hafter)
      have hcursor : st.cursor ≤ l.span.stop := Nat.le_trans hle hfits.inside.start_le_stop
      simp only
      split
      · exact ⟨hpush, hcursor⟩
      · have := ih hpush hlooked.remaining
        refine ⟨?_, Nat.le_trans hcursor this.2⟩
        simpa [State.moveTo] using this.1

theorem Trail.seek {c : Candidate} {st : State} {trail : List (Nat × Located)}
    (h : Trail src d st trail) :
    Trail src d (seekTraced src c st).1.2 (trail ++ (seekTraced src c st).2) ∧
      st.cursor ≤ (seekTraced src c st).1.2.cursor := by
  unfold seekTraced
  split
  · split
    · exact ⟨by simpa using h, Nat.le_refl _⟩
    · exact h.advance rfl
  · exact h.advance rfl

/-- A request extends the trail by the places it finds and moves the cursor forward, whether it
returns or fails. -/
theorem Trail.call {c : Candidate} {st : State} {trail : List (Nat × Located)}
    (h : Trail src d st trail) :
    Trail src d (call src c st).after (trail ++ (call src c st).found) ∧
      st.cursor ≤ (call src c st).after.cursor := by
  have hlooked := resolve_looked src c st
  rw [← seekTraced_fst] at hlooked
  obtain ⟨htrail, hcursor⟩ := h.seek (c := c)
  exact ⟨htrail.looked hlooked, hlooked.cursor ▸ hcursor⟩

/-- The place of a node that a request has sought is on the trail. -/
theorem Trail.seek_mem {c : Candidate} {st st' : State} {trail : List (Nat × Located)} {l : Located}
    (h : Trail src d st trail) (hseek : Resolver.seek src c st = (.ok l, st')) :
    (c.node, l) ∈ trail ++ (Resolver.call src c st).found := by
  obtain ⟨htrail, -⟩ := h.seek (c := c)
  rw [seekTraced_fst, hseek] at htrail
  exact (htrail.last c.node l (seek_last hseek)).1

/-- Two places of a trail lie in the order of their nodes. -/
theorem Trail.stop_le_start {st : State} {trail : List (Nat × Located)} (h : Trail src d st trail)
    {i j : Nat} {l m : Located} (hi : (i, l) ∈ trail) (hj : (j, m) ∈ trail) (hlt : i < j) :
    l.span.stop ≤ m.span.start := by
  obtain ⟨a, ha, hget⟩ := List.getElem_of_mem hi
  obtain ⟨b, hb, hget'⟩ := List.getElem_of_mem hj
  have hordered := List.pairwise_iff_getElem.mp h.ordered
  rcases Nat.lt_trichotomy a b with hab | rfl | hab
  · have := (hordered a b ha hb hab).2
    rwa [hget, hget'] at this
  · rw [hget] at hget'
    cases hget'
    exact absurd hlt (Nat.lt_irrefl _)
  · have := (hordered b a hb ha hab).1
    rw [hget, hget'] at this
    exact absurd this (Nat.lt_asymm hlt)

/-! ## Runs -/

/-- A run keeps order: the cursor only moves forward, places lie one behind the other in document order,
evidence lies inside the place of its own node, and asking again changes nothing. -/
structure Orderly (src : Source) (d : Document) (run : List Call) : Prop where
  cursor_mono : ∀ k ∈ run, k.before.cursor ≤ k.after.cursor
  cursor_chain : run.Pairwise fun j k => j.after.cursor ≤ k.before.cursor
  cursor_le : ∀ k ∈ run, k.after.cursor ≤ src.text.length
  places_ordered : (run.flatMap Call.found).Pairwise fun p q =>
    p.1 < q.1 ∧ p.2.span.stop ≤ q.2.span.start
  places_fit : ∀ p ∈ run.flatMap Call.found,
    ∃ node, d.nodes[p.1]? = some node ∧ Fits src node p.2 ∧ p.2.span.Inside 0 src.text.length
  evidence_inside : ∀ k ∈ run, ∀ e, k.result = .ok (some e) →
    ∃ l, (k.candidate.node, l) ∈ run.flatMap Call.found ∧
      l.span.start ≤ e.start ∧ e.start < e.stop ∧ e.stop ≤ l.span.stop
  again : ∀ k ∈ run, ∀ r, k.result = .ok r →
    (resolve src k.candidate k.after).1 = .ok r ∧
      (resolve src k.candidate k.after).2.cursor = k.after.cursor

/-- Every request of a run finds a trail, and the places it adds stay on the trail of the run. -/
theorem Trail.of_mem_calls {cs : List Candidate} {st : State} {trail : List (Nat × Located)}
    (h : Trail src d st trail) {k : Call} (hk : k ∈ calls src cs st) :
    k = Resolver.call src k.candidate k.before ∧ st.cursor ≤ k.before.cursor ∧
      ∃ trail', Trail src d k.before trail' ∧
        trail' ++ k.found <+: trail ++ (calls src cs st).flatMap Call.found := by
  induction cs generalizing st trail with
  | nil => simp [calls] at hk
  | cons c cs ih =>
    rw [calls] at hk ⊢
    rcases List.mem_cons.mp hk with rfl | hk
    · refine ⟨rfl, Nat.le_refl _, trail, h, ?_⟩
      rw [List.flatMap_cons, ← List.append_assoc]
      exact List.prefix_append _ _
    · obtain ⟨hcall, hcursor⟩ := h.call (c := c)
      obtain ⟨heq, hle, trail', htrail', hpre⟩ := ih hcall hk
      refine ⟨heq, Nat.le_trans hcursor hle, trail', htrail', ?_⟩
      rwa [List.flatMap_cons, ← List.append_assoc]

/-- The places that a run finds make one trail. -/
theorem Trail.calls (cs : List Candidate) {st : State} {trail : List (Nat × Located)}
    (h : Trail src d st trail) :
    ∃ st', Trail src d st' (trail ++ (Resolver.calls src cs st).flatMap Call.found) := by
  induction cs generalizing st trail with
  | nil => exact ⟨st, by simpa [Resolver.calls] using h⟩
  | cons c cs ih =>
    obtain ⟨st', h'⟩ := ih (h.call (c := c)).1
    refine ⟨st', ?_⟩
    rwa [Resolver.calls, List.flatMap_cons, ← List.append_assoc]

theorem calls_cursor_chain {cs : List Candidate} {st : State} {trail : List (Nat × Located)}
    (h : Trail src d st trail) :
    (calls src cs st).Pairwise fun j k => j.after.cursor ≤ k.before.cursor := by
  induction cs generalizing st trail with
  | nil => exact List.Pairwise.nil
  | cons c cs ih =>
    obtain ⟨hcall, -⟩ := h.call (c := c)
    exact List.pairwise_cons.mpr ⟨fun k hk => (hcall.of_mem_calls hk).2.1, ih hcall⟩

/-- Every sequence of requests to one resolver keeps order, whatever the source, the template
expressions and the document are, and whichever of the requests fail. -/
theorem resolver_run_orderly (src : Source) (d : Document) (cs : List Candidate) :
    Orderly src d (calls src cs (State.start src d)) := by
  have hstart := Trail.start src d
  obtain ⟨st, htrail⟩ := hstart.calls cs
  simp only [List.nil_append] at htrail
  -- What a request that returned has sought, and where.
  have sought {k : Call} (hk : k ∈ calls src cs (State.start src d)) {r : Option EvidenceSpan}
      (hr : k.result = .ok r) :
      ∃ l st₁ node, resolve src k.candidate k.before = (.ok r, k.after) ∧
        seek src k.candidate k.before = (.ok l, st₁) ∧ Fits src node l ∧
        (k.candidate.node, l) ∈ (calls src cs (State.start src d)).flatMap Call.found := by
    obtain ⟨heq, -, trail', htrail', hpre⟩ := hstart.of_mem_calls hk
    have hresolve : resolve src k.candidate k.before = (.ok r, k.after) := by
      rw [heq] at hr ⊢
      exact Prod.ext hr rfl
    obtain ⟨l, st₁, -, -, -, hseek, -, -⟩ := resolve_ok hresolve
    have hmem : (k.candidate.node, l) ∈ trail' ++ k.found := by
      rw [heq]; exact htrail'.seek_mem hseek
    have hmem' := hpre.subset hmem
    obtain ⟨node, -, hfits⟩ := htrail.fits _ hmem'
    exact ⟨l, st₁, node, hresolve, hseek, hfits, hmem'⟩
  exact {
    cursor_mono := fun k hk => by
      obtain ⟨heq, -, trail', htrail', -⟩ := hstart.of_mem_calls hk
      rw [heq]
      exact htrail'.call.2
    cursor_chain := calls_cursor_chain hstart
    cursor_le := fun k hk => by
      obtain ⟨heq, -, trail', htrail', -⟩ := hstart.of_mem_calls hk
      rw [heq]
      exact htrail'.call.1.cursor_le
    places_ordered := htrail.ordered
    places_fit := fun p hp => by
      obtain ⟨node, hnode, hfits⟩ := htrail.fits p hp
      exact ⟨node, hnode, hfits, hfits.inside⟩
    evidence_inside := fun k hk e he => by
      obtain ⟨l, st₁, node, hresolve, hseek, hfits, hmem⟩ := sought hk he
      obtain ⟨h₁, h₂, h₃, -⟩ := resolve_inside hseek hfits hresolve
      exact ⟨l, hmem, h₁, h₂, h₃⟩
    again := fun k hk r hr => by
      obtain ⟨l, st₁, node, hresolve, hseek, hfits, -⟩ := sought hk hr
      exact resolve_again hseek hfits hresolve }

end Resolver

end Untranslated
