import Untranslated.Locate.Hidden
import Untranslated.Proofs.Text

/-!
# Hidden ranges found from different places

Hidden ranges are found by reading from some place on, and reading from an earlier place can get
out of step: a range may begin inside a quoted value. But it falls into step again at every offset
that no range holds strictly (`spans_resync`), so behind such an offset both ways of reading hide the
same offsets.
-/

namespace Untranslated

namespace Hidden

/-- A hidden range begins where it was looked for or later, and is not empty. -/
theorem spansFrom_bounds {offset : Nat} {s : Text} :
    ∀ r ∈ spansFrom offset s, offset ≤ r.start ∧ r.start < r.stop := by
  fun_induction spansFrom offset s with
  | case1 => simp
  | case2 offset c tail n _ hn ih =>
    intro r hr
    rcases List.mem_cons.mp hr with rfl | hr
    · exact ⟨Nat.le_refl _, by simp only; omega⟩
    · exact ⟨by have := (ih r hr).1; omega, (ih r hr).2⟩
  | case3 offset c tail n _ _ ih =>
    exact fun r hr => ⟨by have := (ih r hr).1; omega, (ih r hr).2⟩
  | case4 offset c tail _ ih =>
    exact fun r hr => ⟨by have := (ih r hr).1; omega, (ih r hr).2⟩

theorem le_start_of_mem_spans {text : Text} {p : Nat} {r : Span} (h : r ∈ spans text p) :
    p ≤ r.start := (spansFrom_bounds r h).1

theorem spansFrom_resync {text : Text} {offset c : Nat} {s : Text} (hs : text.drop offset = s)
    (hc : offset ≤ c) (h : ∀ r ∈ spansFrom offset s, ¬ r.Straddles c) :
    ∃ before, spansFrom offset s = before ++ spans text c ∧ ∀ r ∈ before, r.stop ≤ c := by
  -- Reading that has come to `c` is the reading from `c`.
  have here {offset : Nat} {s : Text} (hs : text.drop offset = s) (hc : offset = c) :
      ∃ before, spansFrom offset s = before ++ spans text c ∧ ∀ r ∈ before, r.stop ≤ c :=
    ⟨[], by subst hc; subst hs; rfl, by simp⟩
  fun_induction spansFrom offset s with
  | case1 offset =>
    have hnil : text.drop c = [] := by
      rw [List.drop_eq_nil_iff] at hs ⊢; omega
    exact ⟨[], by simp [spans, hnil, spansFrom], by simp⟩
  | case2 offset d tail n hn hpos ih =>
    by_cases hoc : offset = c
    · simpa only [spansFrom, hn, if_pos hpos] using here hs hoc
    · have hstop : offset + n ≤ c := by
        have := h ⟨offset, offset + n⟩ List.mem_cons_self
        unfold Span.Straddles at this
        simp only at this; omega
      have hdrop : text.drop (offset + n) = (d :: tail).drop n := by
        rw [← List.drop_drop, hs]
      obtain ⟨before, he, hle⟩ := ih hdrop hstop fun r hr => h r (List.mem_cons_of_mem _ hr)
      refine ⟨⟨offset, offset + n⟩ :: before, by rw [he]; rfl, fun r hr => ?_⟩
      rcases List.mem_cons.mp hr with rfl | hr
      · exact hstop
      · exact hle r hr
  | case3 offset d tail n hn hpos ih =>
    by_cases hoc : offset = c
    · simpa only [spansFrom, hn, if_neg hpos] using here hs hoc
    · exact ih (by rw [← List.drop_drop, hs]; rfl) (by omega) h
  | case4 offset d tail hn ih =>
    by_cases hoc : offset = c
    · simpa only [spansFrom, hn] using here hs hoc
    · exact ih (by rw [← List.drop_drop, hs]; rfl) (by omega) h

theorem gapLength_le (s : Text) : gapLength s ≤ s.length := by
  fun_induction gapLength s with
  | case1 s first n _ hn ih =>
    rw [List.length_drop] at ih
    omega
  | case2 => omega
  | case3 => omega

/-- Reading from `p` is in step with reading from `c` when no range found from `p` straddles `c`. -/
theorem spans_resync {text : Text} {p c : Nat} (hpc : p ≤ c)
    (h : ∀ r ∈ spans text p, ¬ r.Straddles c) :
    ∃ before, spans text p = before ++ spans text c ∧ ∀ r ∈ before, r.stop ≤ c :=
  spansFrom_resync rfl hpc h

end Hidden

end Untranslated
