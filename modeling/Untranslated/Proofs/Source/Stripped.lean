import Untranslated.Proofs.Source.Expressions

/-!
# Values and offsets are masked alike

Expressions are taken out in two ways: `Mask.stripExpressions` cuts them out of a value, and `Mask.outside`
leaves out their offsets, which were found in the whole source. On a part of the source whose ends lie in
no expression both come to the same (`stripExpressions_eq_outside`).

`Delimiters.Erases` says what cutting out means, without the searches that either side makes: the leftmost
expression goes, then the leftmost one of what follows. It determines what is left (`Erases.unique`).
Stripping does this (`erases_strip`). So do the rounds that find the expressions of the source, on every part
of it whose ends they do not straddle (`Rounds.erases`), since the expressions of such a part are those
that lie in it (`expression_slice`).
-/

namespace Untranslated

namespace Text

theorem drop_slice (s : Text) (a b k : Nat) : (slice s a b).drop k = slice s (a + k) b := by
  rw [slice, List.drop_take, List.drop_drop, slice, Nat.sub_sub]

/-- A pattern stands in a part of a text just if it stands in the text and ends by the end of the part. -/
theorem prefix_drop_slice {pat s : Text} (hpat : pat ≠ []) {a b k : Nat} :
    pat <+: (slice s a b).drop k ↔ pat <+: s.drop (a + k) ∧ a + k + pat.length ≤ b := by
  have hpos := List.length_pos_iff.mpr hpat
  rw [drop_slice, slice, List.prefix_take_iff]
  exact and_congr_right fun _ => by omega

/-- The parts of a text between the given offsets, one after the other. -/
def parts (s : Text) (ranges : List (Int × Int)) : Text := ranges.flatMap fun r => sliceAt s r.1 r.2

theorem parts_append (s : Text) (ranges more : List (Int × Int)) :
    parts s (ranges ++ more) = parts s ranges ++ parts s more := List.flatMap_append

/-- A part may be left out when it is empty. -/
theorem parts_single (s : Text) (a b : Nat) :
    parts s (if (a : Int) < b then [((a : Int), (b : Int))] else []) = slice s a b := by
  split
  · rw [parts, List.flatMap_singleton, sliceAt_natCast]
  · rw [slice, Nat.sub_eq_zero_of_le (by omega), List.take_zero]
    rfl

end Text

namespace Delimiters

variable {d : Delimiters} {text : Text}

/-! ## Cutting out -/

/-- What is left of a text when its expressions are cut out from left to right. -/
inductive Erases (d : Delimiters) : Text → Text → Prop
  | done {s : Text} (h : ∀ start close, ¬ d.Expression s start close) : Erases d s s
  | cut {s t : Text} {start close : Nat} (h : d.Expression s start close)
      (leftmost : ∀ start' close', d.Expression s start' close' → start ≤ start')
      (rest : Erases d (s.drop (close + d.closing.length)) t) : Erases d s (s.take start ++ t)

/-- The opening delimiter determines where an expression ends. -/
theorem Expression.unique {start close close' : Nat} (h : d.Expression text start close)
    (h' : d.Expression text start close') : close = close' := by
  rcases Nat.lt_trichotomy close close' with hlt | heq | hlt
  · exact absurd h.closes (h'.first close h.behind hlt)
  · exact heq
  · exact absurd h'.closes (h.first close' h'.behind hlt)

/-- Cutting out leaves only one text. -/
theorem Erases.unique {s t t' : Text} (h : d.Erases s t) (h' : d.Erases s t') : t = t' := by
  induction h generalizing t' with
  | done hnone =>
    cases h' with
    | done => rfl
    | cut hexpression => exact absurd hexpression (hnone _ _)
  | cut hexpression hleftmost _ ih =>
    cases h' with
    | done hnone => exact absurd hexpression (hnone _ _)
    | cut hexpression' hleftmost' hrest' =>
      obtain rfl := Nat.le_antisymm (hleftmost _ _ hexpression') (hleftmost' _ _ hexpression)
      obtain rfl := hexpression.unique hexpression'
      rw [ih hrest']

/-! ## Stripping cuts out -/

/-- Where the rounds find nothing there is no expression. -/
theorem Rounds.no_expression {pos start close : Nat} (h : d.Rounds text pos []) (hd : d.Proper)
    (hpos : pos ≤ start) : ¬ d.Expression text start close := by
  intro hexpression
  exact h.not_closed hd hpos hexpression.opens (by simp) close hexpression.behind hexpression.closes

/-- The expression that the rounds find first is the leftmost one. -/
theorem Rounds.leftmost {pos : Nat} {r : Span} {spans : List Span} (h : d.Rounds text pos (r :: spans))
    (hd : d.Proper) {start close : Nat} (hpos : pos ≤ start) (hexpression : d.Expression text start close) :
    r.start ≤ start := by
  cases h with
  | found hstart => exact start_le_of_found hd hstart hpos hexpression.opens

/-- The first expression of a text is what the first round finds. -/
theorem exists_rounds_of_first? {s : Text} {e : Span} (hd : d.Proper) (h : d.first? s = some e) :
    ∃ spans, d.Rounds s 0 (e :: spans) := by
  have hrounds := (rounds_iff hd s).mpr rfl
  rw [Mask.build, Mask.spansFrom, h] at hrounds
  simp only [Nat.zero_add] at hrounds
  exact ⟨_, hrounds⟩

/-- Stripping a text cuts its expressions out. -/
theorem erases_strip (hd : d.Proper) (s : Text) : d.Erases s (Mask.strip d s) := by
  fun_induction Mask.strip d s with
  | case1 s hfirst =>
    have hrounds : d.Rounds s 0 [] := by
      rw [rounds_iff hd, Mask.build, Mask.spansFrom, hfirst]
    exact .done fun start close => hrounds.no_expression hd (Nat.zero_le start)
  | case2 s e hfirst _ ih =>
    obtain ⟨spans, hrounds⟩ := exists_rounds_of_first? hd hfirst
    obtain ⟨close, hstop, hexpression⟩ := hrounds.expression hd e List.mem_cons_self
    rw [hstop] at ih ⊢
    exact .cut hexpression (fun start close => hrounds.leftmost hd (Nat.zero_le start)) ih
  | case3 s e hfirst hnext =>
    -- An expression has an end behind its beginning, so the search never stops here.
    obtain ⟨spans, hrounds⟩ := exists_rounds_of_first? hd hfirst
    obtain ⟨close, hstop, hexpression⟩ := hrounds.expression hd e List.mem_cons_self
    have := hexpression.stop_bounds hd
    omega

/-! ## The rounds cut out -/

/-- The expressions of a part of a text are those of the text that lie in it. -/
theorem expression_slice (hd : d.Proper) {a b start close : Nat} :
    d.Expression (Text.slice text a b) start close ↔
      d.Expression text (a + start) (a + close) ∧ a + close + d.closing.length ≤ b := by
  constructor
  · rintro ⟨hopens, hbehind, hcloses, hfirst⟩
    obtain ⟨hopens, -⟩ := (Text.prefix_drop_slice hd.opening).mp hopens
    obtain ⟨hcloses, hstop⟩ := (Text.prefix_drop_slice hd.closing).mp hcloses
    refine ⟨⟨hopens, by omega, hcloses, ?_⟩, hstop⟩
    intro k hk hlt hearlier
    apply hfirst (k - a) (by omega) (by omega)
    rw [Text.prefix_drop_slice hd.closing, Nat.add_sub_cancel' (by omega)]
    exact ⟨hearlier, by omega⟩
  · rintro ⟨⟨hopens, hbehind, hcloses, hfirst⟩, hstop⟩
    have hopens' := (Text.prefix_drop_slice (b := b) hd.opening).mpr ⟨hopens, by omega⟩
    have hcloses' := (Text.prefix_drop_slice hd.closing).mpr ⟨hcloses, hstop⟩
    refine ⟨hopens', by omega, hcloses', ?_⟩
    intro k hk hlt hearlier
    obtain ⟨hearlier, -⟩ := (Text.prefix_drop_slice hd.closing).mp hearlier
    exact hfirst (a + k) (by omega) (by omega) hearlier

/-- A part of a text without an expression is left as it is. -/
theorem erases_slice (hd : d.Proper) {a b : Nat}
    (h : ∀ start close, d.Expression text start close → a ≤ start → b < close + d.closing.length) :
    d.Erases (Text.slice text a b) (Text.slice text a b) := by
  apply Erases.done
  intro start close hexpression
  obtain ⟨hexpression, hstop⟩ := (expression_slice hd).mp hexpression
  have := h _ _ hexpression (Nat.le_add_right a start)
  omega

/-- The first expression of a part of a text is cut out, and what follows it is the rest of the part. -/
theorem Erases.cut_slice (hd : d.Proper) {a b start close : Nat} {t : Text}
    (h : d.Expression text start close) (ha : a ≤ start) (hb : close + d.closing.length ≤ b)
    (hleftmost : ∀ start' close', d.Expression text start' close' → a ≤ start' → start ≤ start')
    (hrest : d.Erases (Text.slice text (close + d.closing.length) b) t) :
    d.Erases (Text.slice text a b) (Text.slice text a start ++ t) := by
  have hbehind := h.behind
  have hcut : d.Expression (Text.slice text a b) (start - a) (close - a) := by
    rw [expression_slice hd, Nat.add_sub_cancel' ha, Nat.add_sub_cancel' (by omega)]
    exact ⟨h, hb⟩
  have htake : Text.slice text a start = (Text.slice text a b).take (start - a) := by
    rw [Text.slice, Text.slice, List.take_take, Nat.min_eq_left (by omega)]
  have hdrop : (Text.slice text a b).drop (close - a + d.closing.length) =
      Text.slice text (close + d.closing.length) b := by
    rw [Text.drop_slice]
    congr 1
    omega
  rw [htake]
  refine .cut hcut ?_ (hdrop ▸ hrest)
  intro start' close' h'
  have := hleftmost _ _ ((expression_slice hd).mp h').1 (Nat.le_add_right a start')
  omega

/-- The rounds find nothing before the place from which they search. -/
theorem Rounds.le_start {pos : Nat} {spans : List Span} (h : d.Rounds text pos spans) (hd : d.Proper) :
    ∀ r ∈ spans, pos ≤ r.start := by
  induction h with
  | unopened => simp
  | unclosed => simp
  | found hstart hclose _ ih =>
    obtain ⟨hpos, hexpression⟩ := expression_of_found hd hstart hclose
    have := hexpression.stop_bounds hd
    refine List.forall_mem_cons.mpr ⟨hpos, ?_⟩
    intro r hr
    have := ih r hr
    omega

/-- The parts between the ranges that the rounds find are what is left of the text between `a` and `b`. -/
theorem Rounds.erases {pos a b : Nat} {spans : List Span} (h : d.Rounds text pos spans) (hd : d.Proper)
    (hpos : pos ≤ a) (hspans : ∀ r ∈ spans, ¬ r.Straddles a ∧ ¬ r.Straddles b) :
    d.Erases (Text.slice text a b) (Text.parts text (Mask.gaps a b spans)) := by
  induction h generalizing a with
  | unopened hstart =>
    rw [Mask.gaps, Text.parts_single]
    apply erases_slice hd
    intro start close hexpression ha
    exact absurd hexpression ((Rounds.unopened hstart).no_expression hd (by omega))
  | unclosed hstart hclose =>
    rw [Mask.gaps, Text.parts_single]
    apply erases_slice hd
    intro start close hexpression ha
    exact absurd hexpression ((Rounds.unclosed hstart hclose).no_expression hd (by omega))
  | @found pos start close spans hstart hclose hrest ih =>
    obtain ⟨⟨hleft, hright⟩, hlater⟩ := List.forall_mem_cons.mp hspans
    obtain ⟨-, hexpression⟩ := expression_of_found hd hstart hclose
    obtain ⟨hlt, -⟩ := hexpression.stop_bounds hd
    simp only [Span.Straddles] at hleft hright
    have hleftmost : ∀ start' close', d.Expression text start' close' → a ≤ start' → start ≤ start' := by
      intro start' close' h' ha
      exact start_le_of_found hd hstart (by omega) h'.opens
    rw [Mask.gaps]
    -- The expression stands behind the part, before it, or inside it.
    by_cases hbehind : (b : Int) ≤ start
    · rw [if_pos hbehind, Text.parts_single]
      apply erases_slice hd
      intro start' close' h' ha
      have := hleftmost start' close' h' ha
      have := (h'.stop_bounds hd).1
      omega
    rw [if_neg hbehind]
    by_cases hbefore : ((close + d.closing.length : Nat) : Int) ≤ a
    · rw [if_pos hbefore]
      exact ih (by omega) hlater
    have hinside : a ≤ start ∧ close + d.closing.length ≤ b := by omega
    rw [if_neg hbefore, Text.parts_append, Text.parts_single,
      Int.max_eq_right (Int.le_of_lt (Int.not_le.mp hbefore))]
    apply Erases.cut_slice hd hexpression hinside.1 hinside.2 hleftmost
    apply ih (Nat.le_refl _)
    intro r hr
    have hle := hrest.le_start hd r hr
    exact ⟨fun hstraddles => absurd hstraddles.1 (Nat.not_lt.mpr hle), (hlater r hr).2⟩

end Delimiters

namespace Mask

/-- Expressions are cut out of a part of the source just as their offsets are left out, if no expression
straddles an end of the part. -/
theorem stripExpressions_eq_outside (text : Text) {d : Delimiters} (hd : d.Proper) :
    (∀ a b : Nat, (∀ s ∈ (build text (some d)).spans, ¬ s.Straddles a ∧ ¬ s.Straddles b) →
      (build text (some d)).stripExpressions (Text.slice text a b) =
        Text.parts text ((build text (some d)).outside a b)) ∧
    (build text (some d)).stripExpressions text =
      Text.parts text ((build text (some d)).outside 0 text.length) := by
  have hrounds := (Delimiters.rounds_iff hd text).mpr rfl
  have hpart : ∀ a b : Nat, (∀ s ∈ (build text (some d)).spans, ¬ s.Straddles a ∧ ¬ s.Straddles b) →
      (build text (some d)).stripExpressions (Text.slice text a b) =
        Text.parts text ((build text (some d)).outside a b) := by
    intro a b hends
    rw [outside_eq_gaps (ordered_build text (some d))]
    exact (Delimiters.erases_strip hd _).unique (hrounds.erases hd (Nat.zero_le a) hends)
  refine ⟨hpart, ?_⟩
  have hwhole := hpart 0 text.length fun s hs =>
    ⟨fun h => absurd h.1 (Nat.not_lt_zero _),
      fun h => absurd h.2 (Nat.not_lt.mpr (inside_build text (some d) s hs).stop_le)⟩
  rwa [Text.slice, List.drop_zero, Nat.sub_zero, List.take_length] at hwhole

/-- A part that begins where one expression ends, holds another one, and ends with an opening delimiter
that is not closed. -/
theorem stripExpressions_eq_outside_edges :
    ∃ (text : Text) (d : Delimiters), text = "[[a]]]b[[c]]d[[".toList ∧ d = ⟨"[[".toList, "]]".toList⟩ ∧
      d.Proper ∧ (build text (some d)).spans = [⟨0, 5⟩, ⟨7, 12⟩] ∧
      (∀ s ∈ (build text (some d)).spans, ¬ s.Straddles 5 ∧ ¬ s.Straddles 15) ∧
      (build text (some d)).stripExpressions (Text.slice text 5 15) =
        Text.parts text ((build text (some d)).outside (5 : Nat) (15 : Nat)) ∧
      Text.parts text ((build text (some d)).outside (5 : Nat) (15 : Nat)) = "]bd[[".toList := by
  let text := "[[a]]]b[[c]]d[[".toList
  let d : Delimiters := ⟨"[[".toList, "]]".toList⟩
  have hd : d.Proper := ⟨by decide, by decide⟩
  have hspans : (build text (some d)).spans = [⟨0, 5⟩, ⟨7, 12⟩] := by decide +kernel
  have hends : ∀ s ∈ (build text (some d)).spans, ¬ s.Straddles 5 ∧ ¬ s.Straddles 15 := by
    rw [hspans]
    unfold Span.Straddles
    decide
  exact ⟨text, d, rfl, rfl, hd, hspans, hends, (stripExpressions_eq_outside text hd).1 5 15 hends,
    by decide +kernel⟩

end Mask

end Untranslated
