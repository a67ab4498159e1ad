import Untranslated.Proofs.Locate.Independence

/-!
# Hidden ranges can be trusted

The hidden ranges of a resolver were read from some place at or before its cursor, and they are read anew
only when one of them straddles the cursor. Still, from the cursor on they say what a reading from the
cursor says (`isHidden_eq_fresh`).

* `Trusted` is what every request keeps, behind each node that it passes (`Trusted.locate`, `Trusted.advance`,
  `Trusted.resolve`), and so does every question about an offset (`Trusted.ask`). So it holds in every state
  that a resolver comes to (`Reachable.trusted`).
* The ranges lie one behind the other (`Hidden.ordered_spans`), so only one of them can straddle the cursor,
  and only one can hold an offset: the last one that begins by then. It can be searched for by halves
  (`isHidden_eq_byHalves`).
-/

namespace Untranslated

/-! ## Searching by halves -/

/-- The last of the ranges that begin at or before an offset, which are as many as a search by halves finds
to begin there. -/
def Span.lastBegun? (ranges : List Span) (offset : Nat) : Option Span :=
  (ranges.take (ranges.countP fun r => r.start ≤ offset)).getLast?

theorem Span.mem_of_lastBegun? {ranges : List Span} {o : Nat} {r : Span} (h : lastBegun? ranges o = some r) :
    r ∈ ranges := List.mem_of_mem_take (List.mem_of_getLast? h)

/-- A range that holds an offset is the last one that begins at or before it. -/
theorem Span.lastBegun?_of_mem {ranges : List Span} (h : Mask.Ordered ranges) {o : Nat} {r : Span}
    (hr : r ∈ ranges) (hlo : r.start ≤ o) (hhi : o < r.stop) : lastBegun? ranges o = some r := by
  induction ranges with
  | nil => cases hr
  | cons s rest ih =>
    rcases List.mem_cons.mp hr with rfl | hr
    · have hzero : rest.countP (fun r => r.start ≤ o) = 0 := by
        refine List.countP_eq_zero.mpr fun t ht => ?_
        have := h.head_le t ht
        simp only [decide_eq_true_eq]
        omega
      rw [lastBegun?, List.countP_cons_of_pos (by simpa using hlo), hzero]
      rfl
    · have hle := h.head_le r hr
      have hrest := ih h.tail hr
      unfold lastBegun? at hrest ⊢
      rw [List.countP_cons_of_pos (by simp only [decide_eq_true_eq]; omega), List.take_succ_cons,
        List.getLast?_cons, hrest, Option.getD_some]

/-- A question that only a range around the offset can answer with yes goes to a single range. -/
theorem Span.any_eq_lastBegun? {ranges : List Span} (h : Mask.Ordered ranges) {o : Nat} {p : Span → Bool}
    (hp : ∀ r, p r = true → r.start ≤ o ∧ o < r.stop) :
    ranges.any p = (lastBegun? ranges o).any p := by
  rw [Bool.eq_iff_iff, List.any_eq_true, Option.any_eq_true]
  constructor
  · rintro ⟨r, hr, hpr⟩
    exact ⟨r, lastBegun?_of_mem h hr (hp r hpr).1 (hp r hpr).2, hpr⟩
  · rintro ⟨r, hr, hpr⟩
    exact ⟨r, mem_of_lastBegun? hr, hpr⟩

theorem Hidden.pairwise_spansFrom (offset : Nat) (s : Text) :
    (spansFrom offset s).Pairwise fun r t => r.stop ≤ t.start := by
  fun_induction spansFrom offset s with
  | case1 => exact List.Pairwise.nil
  | case2 offset c tail n _ _ ih =>
    exact List.pairwise_cons.mpr ⟨fun t ht => (spansFrom_bounds t ht).1, ih⟩
  | case3 offset c tail n _ _ ih => exact ih
  | case4 offset c tail _ ih => exact ih

theorem Hidden.ordered_spans (text : Text) (p : Nat) : Mask.Ordered (spans text p) :=
  ⟨fun r hr => Nat.le_of_lt (spansFrom_bounds r hr).2, pairwise_spansFrom _ _⟩

namespace Resolver

variable {src : Source} {d : Document}

/-- `isHidden` with each question put to a single range: to the last one that begins at or before the cursor
whether it straddles the cursor, and to the last one that begins at or before the offset whether it holds
the offset. -/
def isHiddenByHalves (src : Source) (offset : Nat) (st : State) : Bool × State :=
  let st :=
    if (Span.lastBegun? st.hidden st.cursor).any fun s => s.start < st.cursor && st.cursor < s.stop then
      { st with hidden := Hidden.spans src.text st.cursor }
    else st
  ((Span.lastBegun? st.hidden offset).any fun s => s.contains offset, st)

theorem Synced.ordered {st : State} (h : Synced src st) : Mask.Ordered st.hidden := by
  obtain ⟨p, -, he⟩ := h
  rw [he]
  exact Hidden.ordered_spans src.text p

theorem isHidden_eq_byHalves {st : State} (h : Synced src st) (o : Nat) :
    isHidden src o st = isHiddenByHalves src o st := by
  have hstraddles : (st.hidden.any fun s => s.start < st.cursor && st.cursor < s.stop) =
      (Span.lastBegun? st.hidden st.cursor).any fun s => s.start < st.cursor && st.cursor < s.stop := by
    refine Span.any_eq_lastBegun? h.ordered fun r hr => ?_
    simp only [Bool.and_eq_true, decide_eq_true_eq] at hr
    omega
  have hholds : ((st.refresh src).hidden.any fun s => s.contains o) =
      (Span.lastBegun? (st.refresh src).hidden o).any fun s => s.contains o := by
    refine Span.any_eq_lastBegun? h.refresh.ordered fun r hr => ?_
    simp only [Span.contains, Bool.and_eq_true, decide_eq_true_eq] at hr
    omega
  unfold isHiddenByHalves
  rw [← hstraddles, isHidden, hholds]
  rfl

/-! ## Every state -/

/-- The hidden ranges were read in time, and the cursor is inside the source. -/
structure Trusted (src : Source) (st : State) : Prop where
  synced : Synced src st
  cursor_le : st.cursor ≤ src.text.length

namespace Trusted

theorem start (src : Source) (d : Document) : Trusted src (State.start src d) :=
  ⟨Synced.start src d, Nat.zero_le _⟩

theorem looked {st st' : State} (h : Trusted src st) (hl : Looked src st st') : Trusted src st' :=
  ⟨h.synced.looked hl, hl.cursor ▸ h.cursor_le⟩

theorem ask {st : State} (h : Trusted src st) (o : Nat) : Trusted src (isHidden src o st).2 :=
  h.looked (Looked.refresh st)

theorem withRemaining {st : State} (h : Trusted src st) (rest : List (Nat × Node)) :
    Trusted src { st with remaining := rest } := ⟨h.synced, h.cursor_le⟩

theorem withLast {st : State} (h : Trusted src st) (last : Option (Nat × Option Located)) :
    Trusted src { st with last := last } := ⟨h.synced, h.cursor_le⟩

theorem locate {st : State} (h : Trusted src st) (strict : Bool) (node : Node) :
    Trusted src (Resolver.locate src strict st node).2 :=
  ⟨h.synced.locate h.cursor_le strict node, (locate_cursor h.cursor_le strict node).2⟩

theorem advance {target : Nat} {missing : Nat → LocateError} {nodes : List (Nat × Node)} {st : State}
    (h : Trusted src st) : Trusted src (Resolver.advance src target missing nodes st).2 := by
  induction nodes generalizing st with
  | nil => exact h.withRemaining []
  | cons n rest ih =>
    obtain ⟨i, node⟩ := n
    have hlocate := (h.withRemaining rest).locate (i == target) node
    rw [advance_cons]
    generalize Resolver.locate src (i == target) { st with remaining := rest } node = located at hlocate
    obtain ⟨r, st'⟩ := located
    match r with
    | .error e => exact hlocate
    | .ok place =>
      have hnext := hlocate.withLast (some (i, place))
      match i == target, place with
      | true, some l => exact hnext
      | true, none => exact ih hnext
      | false, place => exact ih hnext

theorem seek {st : State} (h : Trusted src st) (c : Candidate) : Trusted src (Resolver.seek src c st).2 := by
  unfold Resolver.seek
  split
  · split
    · exact h
    · exact h.advance
  · exact h.advance

theorem resolve {st : State} (h : Trusted src st) (c : Candidate) :
    Trusted src (Resolver.resolve src c st).2 :=
  (h.seek c).looked (resolve_looked src c st)

end Trusted

/-- A state that a resolver comes to. -/
inductive Reachable (src : Source) (d : Document) : State → Prop
  | start : Reachable src d (State.start src d)
  /-- Behind a request, whether it returned or failed. -/
  | resolve {st : State} (h : Reachable src d st) (c : Candidate) : Reachable src d (resolve src c st).2
  /-- In the middle of a request, behind the next node. -/
  | pass {st st' : State} {i : Nat} {node : Node} {rest : List (Nat × Node)} {place : Option Located}
      (h : Reachable src d st) (hrem : st.remaining = (i, node) :: rest) (strict : Bool)
      (hlocate : locate src strict { st with remaining := rest } node = (.ok place, st')) :
      Reachable src d { st' with last := some (i, place) }
  /-- Behind a question about an offset. -/
  | ask {st : State} (h : Reachable src d st) (o : Nat) : Reachable src d (isHidden src o st).2

theorem Reachable.trusted {st : State} (h : Reachable src d st) : Trusted src st := by
  induction h with
  | start => exact Trusted.start src d
  | resolve _ c ih => exact ih.resolve c
  | @pass st st' i node rest place _ _ strict hlocate ih =>
    have hnext := (ih.withRemaining rest).locate strict node
    rw [hlocate] at hnext
    exact hnext.withLast (some (i, place))
  | ask _ o ih => exact ih.ask o

/-- In every state that a resolver comes to, an offset from the cursor on is hidden just if it lies in one of
the ranges that are found by reading from the cursor. Asking changes no answer, and looking at one range for
each of the two questions is enough. -/
theorem isHidden_eq_fresh {st : State} (h : Reachable src d st) {o : Nat} (ho : st.cursor ≤ o) :
    ((isHidden src o st).1 = true ↔ ∃ r ∈ Hidden.spans src.text st.cursor, r.contains o) ∧
      (∀ o', (isHidden src o' (isHidden src o st).2).1 = (isHidden src o' st).1) ∧
      isHidden src o st = isHiddenByHalves src o st := by
  have hsynced := h.trusted.synced
  refine ⟨?_, fun o' => ?_, isHidden_eq_byHalves hsynced o⟩
  · rw [isHidden_eq, hsynced.hides ho, List.any_eq_true]
  · rw [isHidden_eq, isHidden_eq, isHidden_eq, State.hides_refresh]

/-- What begins like a comment inside a value seems to hide all that follows up to the end of a comment. Behind
the tag the ranges are read anew, and only the comment hides anything. -/
theorem isHidden_eq_fresh_repaired :
    ∃ (src : Source) (d : Document) (st : State),
      src.text = "<p title=\"<!--\">a<!-- b --></p>".toList ∧ Reachable src d st ∧ st.cursor = 16 ∧
      st.hidden = [⟨10, 27⟩] ∧ Hidden.spans src.text st.cursor = [⟨17, 27⟩] ∧
      ((isHidden src 16 st).1 = true ↔
        ∃ r ∈ Hidden.spans src.text st.cursor, r.contains (16 : Nat)) ∧
      (∀ o', (isHidden src o' (isHidden src 16 st).2).1 = (isHidden src o' st).1) ∧
      isHidden src 16 st = isHiddenByHalves src 16 st := by
  let src : Source := ⟨"<p title=\"<!--\">a<!-- b --></p>".toList, Mask.empty⟩
  let attributes : Attributes := [("title".toList, .single "<!--".toList)]
  let d : Document := [.element "p".toList attributes [.leaf .text ['a'], .leaf .comment " b ".toList]]
  let c : Candidate := ⟨.attribute, "<!--".toList, renderOpenTag "p".toList attributes, "p".toList,
    some "title".toList, 0⟩
  let st : State := (resolve src c (State.start src d)).2
  have hreachable : Reachable src d st := .resolve .start c
  have hcursor : st.cursor = 16 := by decide +kernel
  exact ⟨src, d, st, rfl, hreachable, hcursor, by decide +kernel, by rw [hcursor]; decide +kernel,
    isHidden_eq_fresh hreachable (Nat.le_of_eq hcursor)⟩

end Resolver

end Untranslated
