import Untranslated.Proofs.Source.Expressions

/-!
# Questions about ranges, offset by offset

What a mask says about a range of offsets is what it says about each of them (`queries_pointwise`). The
three questions look at the ranges from the last one that begins by the start of the range, and stop at
the first one that begins behind its end. That no range left out matters rests on their order alone:
those in front end before the range asked about (`outside_eq_gaps`, `overlaps_eq_meets`), and those behind
begin after it (`exists_gap`, `meets_iff`).
-/

namespace Untranslated.Mask

/-- The offset lies in an expression. -/
def Masks (m : Mask) (x : Int) : Prop := ∃ s ∈ m.spans, s.contains x

theorem masks_iff {m : Mask} {x : Int} :
    m.Masks x ↔ ∃ s ∈ m.spans, (s.start : Int) ≤ x ∧ x < s.stop := by
  simp [Masks, Span.contains]

/-! ## Ranges in front and behind -/

/-- Ranges that end by the start are not met. -/
theorem meets_append {start stop : Int} {before : List Span} (after : List Span) (hlt : start < stop)
    (h : ∀ s ∈ before, s.start ≤ s.stop ∧ (s.stop : Int) ≤ start) :
    meets start stop (before ++ after) = meets start stop after := by
  induction before with
  | nil => rfl
  | cons s before ih =>
    obtain ⟨hs, hbefore⟩ := List.forall_mem_cons.mp h
    rw [List.cons_append, meets, if_neg (by omega), if_neg (by omega), ih hbefore]

theorem overlaps_eq_meets {m : Mask} (hspans : Ordered m.spans) {start stop : Int} (hlt : start < stop) :
    m.overlaps start stop = meets start stop m.spans := by
  obtain ⟨before, hm, hbefore⟩ := exists_spansNear hspans start
  rw [hm, meets_append _ hlt hbefore, overlaps]

/-- Every offset outside the ranges lies in one of the parts. -/
theorem exists_gap {pos stop x : Int} {spans : List Span} (hpos : pos ≤ x) (hstop : x < stop)
    (h : ∀ s ∈ spans, ¬ ((s.start : Int) ≤ x ∧ x < s.stop)) :
    ∃ p ∈ gaps pos stop spans, p.1 ≤ x ∧ x < p.2 := by
  fun_induction gaps pos stop spans with
  | case1 pos hlt => exact ⟨(pos, stop), by simp, hpos, hstop⟩
  | case2 pos hlt => omega
  | case3 pos s rest hs hlt => exact ⟨(pos, stop), by simp, hpos, hstop⟩
  | case4 pos s rest hs hlt => omega
  | case5 pos s rest hs hpast ih => exact ih hpos (List.forall_mem_cons.mp h).2
  | case6 pos s rest hs hpast ih =>
    obtain ⟨hnot, hrest⟩ := List.forall_mem_cons.mp h
    by_cases hbefore : x < s.start
    · refine ⟨(pos, s.start), ?_, hpos, hbefore⟩
      rw [if_pos (by omega)]
      exact List.mem_append_left _ List.mem_cons_self
    · obtain ⟨p, hp, hx⟩ := ih (by omega) hrest
      exact ⟨p, List.mem_append_right _ hp, hx⟩

/-- Between two parts lies a whole range. -/
theorem pairwise_gaps {pos stop : Int} (spans : List Span) :
    (gaps pos stop spans).Pairwise fun p q =>
      ∃ s ∈ spans, p.2 = (s.start : Int) ∧ (s.stop : Int) ≤ q.1 := by
  fun_induction gaps pos stop spans with
  | case1 => exact List.pairwise_singleton _ _
  | case2 => exact List.Pairwise.nil
  | case3 => exact List.pairwise_singleton _ _
  | case4 => exact List.Pairwise.nil
  | case5 pos s rest hs hpast ih =>
    apply ih.imp
    rintro p q ⟨t, ht, hbetween⟩
    exact ⟨t, List.mem_cons_of_mem s ht, hbetween⟩
  | case6 pos s rest hs hpast ih =>
    refine List.pairwise_append.mpr ⟨?_, ?_, ?_⟩
    · split
      · exact List.pairwise_singleton _ _
      · exact List.Pairwise.nil
    · apply ih.imp
      rintro p q ⟨t, ht, hbetween⟩
      exact ⟨t, List.mem_cons_of_mem s ht, hbetween⟩
    · intro p hp q hq
      split at hp
      · rw [List.mem_singleton.mp hp]
        have := gaps_inside hq
        exact ⟨s, List.mem_cons_self, rfl, by omega⟩
      · cases hp

/-- The search for a range that is met may stop at the first one behind: all others are behind it. -/
theorem meets_iff {start stop : Int} {spans : List Span} (hspans : Ordered spans) :
    meets start stop spans = true ↔ ∃ s ∈ spans, (s.start : Int) < stop ∧ start < s.stop := by
  fun_induction meets start stop spans with
  | case1 => simp
  | case2 s rest hs =>
    constructor
    · intro h
      cases h
    · rintro ⟨t, ht, hlt, -⟩
      rcases List.mem_cons.mp ht with rfl | ht
      · omega
      · have := hspans.head_le t ht
        omega
  | case3 s rest hs hmeets =>
    simp only [true_iff]
    exact ⟨s, List.mem_cons_self, by omega, hmeets⟩
  | case4 s rest hs hpast ih =>
    rw [ih hspans.tail]
    constructor
    · rintro ⟨t, ht, h⟩
      exact ⟨t, List.mem_cons_of_mem s ht, h⟩
    · rintro ⟨t, ht, h⟩
      rcases List.mem_cons.mp ht with rfl | ht
      · exact absurd h.2 hpast
      · exact ⟨t, ht, h⟩

/-! ## Offset by offset -/

theorem mem_outside_iff {m : Mask} (hspans : Ordered m.spans) {start stop x : Int} :
    (∃ p ∈ m.outside start stop, p.1 ≤ x ∧ x < p.2) ↔ start ≤ x ∧ x < stop ∧ ¬ m.Masks x := by
  constructor
  · rintro ⟨⟨a, b⟩, hab, hlo, hhi⟩
    simp only at hlo hhi
    have := outside_inside hab
    refine ⟨by omega, by omega, ?_⟩
    intro hmasks
    obtain ⟨s, hs, hin⟩ := masks_iff.mp hmasks
    have := outside_apart hspans hab s hs
    omega
  · rintro ⟨hstart, hstop, hnot⟩
    rw [outside_eq_gaps hspans]
    apply exists_gap hstart hstop
    intro s hs hin
    exact hnot (masks_iff.mpr ⟨s, hs, hin⟩)

theorem covers_iff {m : Mask} (hspans : Ordered m.spans) {start stop : Int} :
    m.covers start stop = true ↔ ∀ x, start ≤ x → x < stop → m.Masks x := by
  rw [covers, List.isEmpty_iff]
  constructor
  · intro hnil x hstart hstop
    apply Classical.byContradiction
    intro hnot
    obtain ⟨p, hp, -⟩ := (mem_outside_iff hspans).mpr ⟨hstart, hstop, hnot⟩
    rw [hnil] at hp
    cases hp
  · intro hmasks
    apply List.eq_nil_iff_forall_not_mem.mpr
    rintro ⟨a, b⟩ hab
    -- A part is not empty, so its first offset would be outside.
    have hlt : a < b := (outside_inside hab).2.1
    obtain ⟨hstart, hstop, hnot⟩ := (mem_outside_iff hspans).mp ⟨(a, b), hab, Int.le_refl a, hlt⟩
    exact hnot (hmasks a hstart hstop)

theorem overlaps_iff {m : Mask} (hspans : Ordered m.spans) (hsolid : ∀ s ∈ m.spans, s.start < s.stop)
    {start stop : Int} (hlt : start < stop) :
    m.overlaps start stop = true ↔ ∃ x, start ≤ x ∧ x < stop ∧ m.Masks x := by
  rw [overlaps_eq_meets hspans hlt, meets_iff hspans]
  constructor
  · rintro ⟨s, hs, h⟩
    have := hsolid s hs
    exact ⟨max start s.start, by omega, by omega, masks_iff.mpr ⟨s, hs, by omega, by omega⟩⟩
  · rintro ⟨x, hstart, hstop, hmasks⟩
    obtain ⟨s, hs, hin⟩ := masks_iff.mp hmasks
    exact ⟨s, hs, by omega, by omega⟩

/-- What a mask answers about the range `[start, stop)` is what holds of each offset in it. -/
structure Pointwise (m : Mask) (start stop : Int) : Prop where
  nonempty : ∀ p ∈ m.outside start stop, p.1 < p.2
  /-- The parts come in order, with a masked offset between any two of them. -/
  separated : (m.outside start stop).Pairwise fun p q => ∃ x, p.2 ≤ x ∧ x < q.1 ∧ m.Masks x
  union : ∀ x,
    (∃ p ∈ m.outside start stop, p.1 ≤ x ∧ x < p.2) ↔ start ≤ x ∧ x < stop ∧ ¬ m.Masks x
  covers : m.covers start stop = true ↔ ∀ x, start ≤ x → x < stop → m.Masks x
  overlaps : m.overlaps start stop = true ↔ ∃ x, start ≤ x ∧ x < stop ∧ m.Masks x

/-- The mask of a text answers every question about a range that is not empty by what holds of each of its
offsets. -/
theorem queries_pointwise (text : Text) {d : Delimiters} (hd : d.Proper) {start stop : Int}
    (hlt : start < stop) : Pointwise (build text (some d)) start stop := by
  have hspans := ordered_build text (some d)
  have hsolid := start_lt_stop_build hd text
  exact {
    nonempty := fun p hp => (outside_inside hp).2.1
    separated := by
      rw [outside_eq_gaps hspans]
      apply (pairwise_gaps _).imp
      rintro p q ⟨s, hs, hstart, hstop⟩
      have := hsolid s hs
      exact ⟨p.2, Int.le_refl _, by omega, masks_iff.mpr ⟨s, hs, by omega, by omega⟩⟩
    union := fun x => mem_outside_iff hspans
    covers := covers_iff hspans
    overlaps := overlaps_iff hspans hsolid hlt }

/-- A range that begins before the text and ends inside an expression that is not closed, across two
expressions without anything between them. -/
theorem queries_pointwise_adjacent :
    ∃ (text : Text) (d : Delimiters), text = "a[[b]][[c]]d[[e".toList ∧ d = ⟨"[[".toList, "]]".toList⟩ ∧
      d.Proper ∧ (build text (some d)).spans = [⟨1, 6⟩, ⟨6, 11⟩] ∧
      (build text (some d)).outside (-2) 14 = [(-2, 1), (11, 14)] ∧ (-2 : Int) < 14 ∧
      Pointwise (build text (some d)) (-2) 14 := by
  have hd : Delimiters.Proper ⟨"[[".toList, "]]".toList⟩ := ⟨by decide, by decide⟩
  exact ⟨_, _, rfl, rfl, hd, by decide +kernel, by decide +kernel, by decide,
    queries_pointwise _ hd (by decide)⟩

end Untranslated.Mask
