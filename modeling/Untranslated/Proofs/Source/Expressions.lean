import Untranslated.Proofs.Source.Mask

/-!
# What the search for expressions finds

An expression runs from an opening delimiter through the first closing one behind it
(`Delimiters.Expression`). The expressions of a text are found round by round: a round looks for the next
opening delimiter, then for the closing one behind that, and the next round begins where the expression
ends (`Delimiters.Rounds`).

* The rounds come to an end, because each of them moves forward (`exists_rounds`), and what they find are
  the spans of the mask (`Rounds.eq_spansFrom`).
* What one round finds is an expression (`expression_of_found`), and an opening delimiter that the rounds
  pass over is never closed (`Rounds.not_closed`): the round that gives up on one opening delimiter has
  looked through all that stands behind any later one.
* `build_finds_expressions` puts this together for the mask of a text.
-/

namespace Untranslated

namespace Delimiters

variable {d : Delimiters} {text : Text}

/-- Neither delimiter is empty. -/
structure Proper (d : Delimiters) : Prop where
  opening : d.opening ≠ []
  closing : d.closing ≠ []

/-- An opening delimiter stands at `start`, and `close` is the first place behind it at which a closing
delimiter stands. -/
structure Expression (d : Delimiters) (text : Text) (start close : Nat) : Prop where
  opens : d.opening <+: text.drop start
  behind : start + d.opening.length ≤ close
  closes : d.closing <+: text.drop close
  first : ∀ k, start + d.opening.length ≤ k → k < close → ¬ d.closing <+: text.drop k

/-- The rounds of the search from an offset on, and the ranges that they find. -/
inductive Rounds (d : Delimiters) (text : Text) : Nat → List Span → Prop
  /-- No opening delimiter is left. -/
  | unopened {pos : Nat} (hstart : Text.findFrom? d.opening text pos = none) : Rounds d text pos []
  /-- The next opening delimiter is not closed, and the search gives up. -/
  | unclosed {pos start : Nat} (hstart : Text.findFrom? d.opening text pos = some start)
      (hclose : Text.findFrom? d.closing text (start + d.opening.length) = none) :
      Rounds d text pos []
  /-- An expression is found, and the search goes on behind it. -/
  | found {pos start close : Nat} {spans : List Span}
      (hstart : Text.findFrom? d.opening text pos = some start)
      (hclose : Text.findFrom? d.closing text (start + d.opening.length) = some close)
      (rest : Rounds d text (close + d.closing.length) spans) :
      Rounds d text pos (⟨start, close + d.closing.length⟩ :: spans)

/-! ## One round -/

/-- What a round finds is an expression, at or behind the place from which it searched. -/
theorem expression_of_found {pos start close : Nat} (hd : d.Proper)
    (hstart : Text.findFrom? d.opening text pos = some start)
    (hclose : Text.findFrom? d.closing text (start + d.opening.length) = some close) :
    pos ≤ start ∧ d.Expression text start close := by
  obtain ⟨hpos, hopens, -⟩ := (Text.findFrom?_eq_some_iff hd.opening).mp hstart
  obtain ⟨hbehind, hcloses, hfirst⟩ := (Text.findFrom?_eq_some_iff hd.closing).mp hclose
  exact ⟨hpos, hopens, hbehind, hcloses, hfirst⟩

/-- Where an expression ends: behind its beginning, and inside the text. -/
theorem Expression.stop_bounds {start close : Nat} (h : d.Expression text start close) (hd : d.Proper) :
    start < close + d.closing.length ∧ close + d.closing.length ≤ text.length := by
  have hpos := List.length_pos_iff.mpr hd.closing
  have hbehind := h.behind
  exact ⟨by omega, Text.add_length_le_of_prefix_drop hd.closing h.closes⟩

/-- No search for an opening delimiter passes over one. -/
theorem start_le_of_found {pos start o : Nat} (hd : d.Proper)
    (hstart : Text.findFrom? d.opening text pos = some start) (ho : pos ≤ o)
    (hopens : d.opening <+: text.drop o) : start ≤ o := by
  obtain ⟨-, -, hfirst⟩ := (Text.findFrom?_eq_some_iff hd.opening).mp hstart
  exact Nat.le_of_not_lt fun hlt => hfirst o ho hlt hopens

/-- The first expression of what follows an offset, by the two searches that one round makes. -/
theorem first?_drop {pos : Nat} (hpos : pos ≤ text.length) :
    d.first? (text.drop pos) = (Text.findFrom? d.opening text pos).bind fun start =>
      (Text.findFrom? d.closing text (start + d.opening.length)).map fun close =>
        ⟨start - pos, close + d.closing.length - pos⟩ := by
  unfold first?
  rw [Text.findFrom?, if_pos hpos]
  cases hi : Text.find? d.opening (text.drop pos) with
  | none => rfl
  | some i =>
    have hle := Text.find?_le hi
    rw [List.length_drop] at hle
    have hend : i + pos + d.opening.length = pos + (i + d.opening.length) := by omega
    simp only [Option.map_some, Option.bind_some, Option.bind_eq_bind]
    rw [Text.findFrom?, if_pos (by omega), hend, List.drop_drop]
    cases Text.find? d.closing (text.drop (pos + (i + d.opening.length))) with
    | none => rfl
    | some j =>
      simp only [Option.map_some, Option.bind_some, Option.some.injEq, Span.mk.injEq]
      omega

/-! ## All rounds -/

/-- The search ends: every round that goes on has moved forward inside the text. -/
theorem exists_rounds (hd : d.Proper) (text : Text) (pos : Nat) : ∃ spans, d.Rounds text pos spans := by
  cases hstart : Text.findFrom? d.opening text pos with
  | none => exact ⟨[], .unopened hstart⟩
  | some start =>
    cases hclose : Text.findFrom? d.closing text (start + d.opening.length) with
    | none => exact ⟨[], .unclosed hstart hclose⟩
    | some close =>
      obtain ⟨hpos, hexpression⟩ := expression_of_found hd hstart hclose
      obtain ⟨hlt, hle⟩ := hexpression.stop_bounds hd
      obtain ⟨spans, hrest⟩ := exists_rounds hd text (close + d.closing.length)
      exact ⟨_, .found hstart hclose hrest⟩
termination_by text.length - pos

/-- What the rounds find is what the mask holds. -/
theorem Rounds.eq_spansFrom {pos : Nat} {spans : List Span} (h : d.Rounds text pos spans) (hd : d.Proper)
    (hpos : pos ≤ text.length) : spans = Mask.spansFrom d pos (text.drop pos) := by
  induction h with
  | unopened hstart => rw [Mask.spansFrom, first?_drop hpos, hstart, Option.bind_none]
  | unclosed hstart hclose =>
    rw [Mask.spansFrom, first?_drop hpos, hstart, Option.bind_some, hclose, Option.map_none]
  | @found pos start close spans hstart hclose _ ih =>
    obtain ⟨hle, hexpression⟩ := expression_of_found hd hstart hclose
    obtain ⟨hlt, hstop⟩ := hexpression.stop_bounds hd
    have hstart' : pos + (start - pos) = start := by omega
    have hstop' : pos + (close + d.closing.length - pos) = close + d.closing.length := by omega
    rw [Mask.spansFrom, first?_drop hpos, hstart, Option.bind_some, hclose, Option.map_some]
    simp only [List.length_drop]
    rw [if_pos (by omega), List.drop_drop, hstart', hstop', ← ih hstop]

/-- The search from the beginning ends with the ranges of the mask, and with no others. -/
theorem rounds_iff (hd : d.Proper) (text : Text) {spans : List Span} :
    d.Rounds text 0 spans ↔ spans = (Mask.build text (some d)).spans := by
  have hunique : ∀ {spans}, d.Rounds text 0 spans → spans = (Mask.build text (some d)).spans :=
    fun h => h.eq_spansFrom hd (Nat.zero_le _)
  constructor
  · exact hunique
  · intro h
    obtain ⟨spans', hrounds⟩ := exists_rounds hd text 0
    rwa [h, ← hunique hrounds]

/-- Every range that the rounds find is that of an expression. -/
theorem Rounds.expression {pos : Nat} {spans : List Span} (h : d.Rounds text pos spans) (hd : d.Proper) :
    ∀ s ∈ spans, ∃ close, s.stop = close + d.closing.length ∧ d.Expression text s.start close := by
  induction h with
  | unopened => simp
  | unclosed => simp
  | found hstart hclose _ ih =>
    have hexpression := (expression_of_found hd hstart hclose).2
    exact List.forall_mem_cons.mpr ⟨⟨_, rfl, hexpression⟩, ih⟩

/-- An opening delimiter that lies in none of the ranges is never closed. -/
theorem Rounds.not_closed {pos o : Nat} {spans : List Span} (h : d.Rounds text pos spans) (hd : d.Proper)
    (ho : pos ≤ o) (hopens : d.opening <+: text.drop o) (houtside : ∀ s ∈ spans, ¬ s.contains o) :
    ∀ k, o + d.opening.length ≤ k → ¬ d.closing <+: text.drop k := by
  induction h with
  | unopened hstart => exact absurd hopens ((Text.findFrom?_eq_none_iff hd.opening).mp hstart o ho)
  | unclosed hstart hclose =>
    -- All that stands behind this opening delimiter stands behind the one that was given up.
    have hle := start_le_of_found hd hstart ho hopens
    intro k hk
    exact (Text.findFrom?_eq_none_iff hd.closing).mp hclose k (by omega)
  | @found pos start close spans hstart hclose _ ih =>
    obtain ⟨hnot, hrest⟩ := List.forall_mem_cons.mp houtside
    -- The delimiter stands behind the next expression: before it, the round would have found it first.
    have hle := start_le_of_found hd hstart ho hopens
    apply ih _ hrest
    simp only [Span.contains, Bool.and_eq_true, decide_eq_true_eq] at hnot
    omega

end Delimiters

namespace Mask

/-- The ranges of a mask made with proper delimiters are not empty. -/
theorem start_lt_stop_build {d : Delimiters} (hd : d.Proper) (text : Text) :
    ∀ s ∈ (build text (some d)).spans, s.start < s.stop := by
  intro s hs
  obtain ⟨close, hstop, hexpression⟩ := ((Delimiters.rounds_iff hd text).mpr rfl).expression hd s hs
  rw [hstop]
  exact (hexpression.stop_bounds hd).1

/-- The mask of a text holds what the rounds of the search find, which end. Its ranges lie one behind the
other, each of them runs from an opening delimiter through the first closing one behind it, and an opening
delimiter outside of them is not closed anywhere. -/
theorem build_finds_expressions (text : Text) {d : Delimiters} (hd : d.Proper) :
    (∀ spans, d.Rounds text 0 spans ↔ spans = (build text (some d)).spans) ∧
    ((build text (some d)).spans.Pairwise fun s t => s.start < t.start ∧ s.stop ≤ t.start) ∧
    (∀ s ∈ (build text (some d)).spans,
      ∃ close, s.stop = close + d.closing.length ∧ d.Expression text s.start close) ∧
    ∀ o, d.opening <+: text.drop o → (∀ s ∈ (build text (some d)).spans, ¬ s.contains o) →
      ∀ k, o + d.opening.length ≤ k → ¬ d.closing <+: text.drop k := by
  have hrounds := (Delimiters.rounds_iff hd text).mpr rfl
  refine ⟨fun spans => Delimiters.rounds_iff hd text, ?_, hrounds.expression hd, ?_⟩
  · apply (ordered_build text (some d)).stop_le_start.imp_of_mem
    intro s t hs _ hle
    exact ⟨Nat.lt_of_lt_of_le (start_lt_stop_build hd text s hs) hle, hle⟩
  · intro o hopens houtside
    exact hrounds.not_closed hd (Nat.zero_le o) hopens houtside

/-- The closing delimiter begins the opening one: an expression closes at the first character behind its
opening delimiter that the two share, and the last opening delimiter is not closed. -/
theorem build_finds_expressions_overlapping :
    ∃ (text : Text) (d : Delimiters), text = "a[[[b[[[c[[".toList ∧ d = ⟨"[[".toList, "[".toList⟩ ∧
      d.Proper ∧ (build text (some d)).spans = [⟨1, 4⟩, ⟨5, 8⟩] ∧ d.Expression text 5 7 ∧
      ∀ k, 11 ≤ k → ¬ d.closing <+: text.drop k := by
  let text := "a[[[b[[[c[[".toList
  let d : Delimiters := ⟨"[[".toList, "[".toList⟩
  have hd : d.Proper := ⟨by decide, by decide⟩
  have hspans : (build text (some d)).spans = [⟨1, 4⟩, ⟨5, 8⟩] := by decide +kernel
  obtain ⟨-, -, hexpressions, houtside⟩ := build_finds_expressions text hd
  rw [hspans] at hexpressions houtside
  obtain ⟨close, hstop, hexpression⟩ := hexpressions ⟨5, 8⟩ (by decide)
  obtain rfl : close = 7 := (Nat.add_right_cancel (m := 1) hstop).symm
  exact ⟨text, d, rfl, rfl, hd, hspans, hexpression, houtside 9 (by decide) (by decide)⟩

end Mask

end Untranslated
