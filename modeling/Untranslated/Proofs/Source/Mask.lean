import Untranslated.Proofs.Text
import Untranslated.Source.Mask

/-!
# Template expressions

The expressions of a source lie one behind the other (`ordered_build`). The parts of a range that lie
outside of them are parts of the range (`outside_inside`), whatever the expressions are. `Mask.outside`
begins to look only at the last expression that begins by the start of the range, but the expressions left
out end before it (`outside_eq_gaps`), so that the parts meet none of the expressions (`outside_apart`).
-/

namespace Untranslated

/-- The first expression lies in the text. -/
theorem Delimiters.first?_inside {d : Delimiters} {s : Text} {e : Span} (h : d.first? s = some e) :
    e.Inside 0 s.length := by
  unfold first? at h
  simp only [Option.bind_eq_bind, Option.bind_eq_some_iff, Option.some.injEq] at h
  obtain ⟨i, hopening, j, hclosing, rfl⟩ := h
  have h₁ := Text.find?_le hopening
  have h₂ := Text.find?_le hclosing
  rw [List.length_drop] at h₂
  exact ⟨Nat.zero_le _, by simp only; omega, by simp only; omega⟩

namespace Mask

/-- The ranges lie one behind the other. -/
structure Ordered (spans : List Span) : Prop where
  start_le_stop : ∀ s ∈ spans, s.start ≤ s.stop
  stop_le_start : spans.Pairwise fun s t => s.stop ≤ t.start

theorem Ordered.tail {s : Span} {spans : List Span} (h : Ordered (s :: spans)) : Ordered spans :=
  ⟨fun t ht => h.start_le_stop t (List.mem_cons_of_mem s ht), h.stop_le_start.of_cons⟩

theorem Ordered.head_le {s : Span} {spans : List Span} (h : Ordered (s :: spans)) :
    ∀ t ∈ spans, s.start ≤ s.stop ∧ s.stop ≤ t.start :=
  fun t ht => ⟨h.start_le_stop s List.mem_cons_self, (List.pairwise_cons.mp h.stop_le_start).1 t ht⟩

/-! ## The expressions of a text -/

theorem spansFrom_inside (d : Delimiters) (offset : Nat) (s : Text) :
    ∀ e ∈ spansFrom d offset s, e.Inside offset (offset + s.length) := by
  fun_induction spansFrom d offset s with
  | case1 => simp
  | case2 offset s e he ih =>
    have hfirst := Delimiters.first?_inside he
    have := hfirst.start_le_stop
    have := hfirst.stop_le
    refine List.forall_mem_cons.mpr ⟨⟨by simp, by simp; omega, by simp; omega⟩, fun t ht => ?_⟩
    split at ht
    · rename_i hnext
      have hrest := ih hnext t ht
      rw [List.length_drop] at hrest
      exact hrest.mono (by omega) (by omega)
    · cases ht

theorem ordered_spansFrom (d : Delimiters) (offset : Nat) (s : Text) :
    Ordered (spansFrom d offset s) := by
  refine ⟨fun e he => (spansFrom_inside d offset s e he).start_le_stop, ?_⟩
  fun_induction spansFrom d offset s with
  | case1 => exact List.Pairwise.nil
  | case2 offset s e he ih =>
    refine List.pairwise_cons.mpr ⟨fun t ht => ?_, ?_⟩
    · split at ht
      · exact (spansFrom_inside d _ _ t ht).lo_le
      · cases ht
    · split
      · rename_i hnext
        exact ih hnext
      · exact List.Pairwise.nil

theorem ordered_build (text : Text) (delimiters : Option Delimiters) :
    Ordered (build text delimiters).spans := by
  cases delimiters with
  | none => exact ⟨by simp [build, empty], List.Pairwise.nil⟩
  | some d => exact ordered_spansFrom d 0 text

theorem inside_build (text : Text) (delimiters : Option Delimiters) :
    ∀ s ∈ (build text delimiters).spans, s.Inside 0 text.length := by
  cases delimiters with
  | none => simp [build, empty]
  | some d =>
    have hinside := spansFrom_inside d 0 text
    rwa [Nat.zero_add] at hinside

theorem delimiters_build (text : Text) (delimiters : Option Delimiters) :
    (build text delimiters).delimiters = delimiters := by
  cases delimiters <;> rfl

/-! ## The parts outside -/

theorem gaps_inside {pos stop : Int} {spans : List Span} {a b : Int}
    (h : (a, b) ∈ gaps pos stop spans) : pos ≤ a ∧ a < b ∧ b ≤ stop := by
  fun_induction gaps pos stop spans with
  | case1 pos hlt =>
    simp only [List.mem_singleton, Prod.mk.injEq] at h
    omega
  | case2 => simp at h
  | case3 pos s rest hs hlt =>
    simp only [List.mem_singleton, Prod.mk.injEq] at h
    omega
  | case4 => simp at h
  | case5 pos s rest _ _ ih => exact ih h
  | case6 pos s rest hs hpos ih =>
    rcases List.mem_append.mp h with h | h
    · split at h
      · simp only [List.mem_singleton, Prod.mk.injEq] at h
        omega
      · simp at h
    · have := ih h
      omega

theorem outside_inside {m : Mask} {start stop : Int} {a b : Int}
    (h : (a, b) ∈ m.outside start stop) : start ≤ a ∧ a < b ∧ b ≤ stop :=
  gaps_inside h

theorem gaps_apart {pos stop a b : Int} {spans : List Span} (hspans : Ordered spans)
    (h : (a, b) ∈ gaps pos stop spans) : ∀ s ∈ spans, b ≤ s.start ∨ s.stop ≤ a := by
  fun_induction gaps pos stop spans with
  | case1 => simp
  | case2 => simp
  | case3 pos s rest hs hlt =>
    simp only [List.mem_singleton, Prod.mk.injEq] at h
    refine List.forall_mem_cons.mpr ⟨by omega, fun t ht => ?_⟩
    have := hspans.head_le t ht
    omega
  | case4 => simp at h
  | case5 pos s rest hs hpos ih =>
    have := gaps_inside h
    exact List.forall_mem_cons.mpr ⟨by omega, ih hspans.tail h⟩
  | case6 pos s rest hs hpos ih =>
    rcases List.mem_append.mp h with h | h
    · split at h
      · simp only [List.mem_singleton, Prod.mk.injEq] at h
        refine List.forall_mem_cons.mpr ⟨by omega, fun t ht => ?_⟩
        have := hspans.head_le t ht
        omega
      · cases h
    · have := gaps_inside h
      exact List.forall_mem_cons.mpr ⟨by omega, ih hspans.tail h⟩

/-- All expressions that begin by an offset, except the last one of them, end there. -/
theorem stop_le_of_mem_take {spans : List Span} (h : Ordered spans) (start : Int) :
    ∀ s ∈ spans.take (spans.countP (fun s => (s.start : Int) ≤ start) - 1), (s.stop : Int) ≤ start := by
  induction spans with
  | nil => simp
  | cons t rest ih =>
    by_cases hbegun : (t.start : Int) ≤ start
    · rw [List.countP_cons_of_pos (by simpa using hbegun), Nat.add_sub_cancel]
      generalize hcount : rest.countP (fun s => (s.start : Int) ≤ start) = n
      cases n with
      | zero => simp
      | succ n =>
        obtain ⟨u, hu, hule⟩ := List.countP_pos_iff.mp (show 0 < _ by rw [hcount]; exact n.succ_pos)
        have := h.head_le u hu
        have hlater := ih h.tail
        rw [hcount] at hlater
        rw [decide_eq_true_eq] at hule
        exact List.forall_mem_cons.mpr ⟨by omega, by simpa using hlater⟩
    · have hzero : (t :: rest).countP (fun s => (s.start : Int) ≤ start) = 0 := by
        refine List.countP_eq_zero.mpr (List.forall_mem_cons.mpr ⟨by simpa using hbegun, fun u hu => ?_⟩)
        have := h.head_le u hu
        simp only [decide_eq_true_eq]
        omega
      simp [hzero]

theorem gaps_of_le {pos stop : Int} (h : stop ≤ pos) (spans : List Span) : gaps pos stop spans = [] := by
  refine List.eq_nil_iff_forall_not_mem.mpr fun ⟨a, b⟩ hab => ?_
  have := gaps_inside hab
  omega

/-- Ranges that end by the position leave the parts as they are. -/
theorem gaps_append {pos stop : Int} {before : List Span} (after : List Span)
    (h : ∀ s ∈ before, s.start ≤ s.stop ∧ (s.stop : Int) ≤ pos) :
    gaps pos stop (before ++ after) = gaps pos stop after := by
  induction before with
  | nil => rfl
  | cons s before ih =>
    obtain ⟨hs, hbefore⟩ := List.forall_mem_cons.mp h
    rw [List.cons_append, gaps]
    split
    · rw [if_neg (by omega), gaps_of_le (by omega)]
    · rw [if_pos hs.2, ih hbefore]

/-- The ranges near an offset, and what stands before them. -/
theorem exists_spansNear {m : Mask} (hspans : Ordered m.spans) (start : Int) :
    ∃ before, m.spans = before ++ m.spansNear start ∧
      ∀ s ∈ before, s.start ≤ s.stop ∧ (s.stop : Int) ≤ start := by
  refine ⟨_, (List.take_append_drop _ m.spans).symm, fun s hs => ⟨?_, ?_⟩⟩
  · exact hspans.start_le_stop s (List.mem_of_mem_take hs)
  · exact stop_le_of_mem_take hspans start s hs

theorem outside_eq_gaps {m : Mask} (hspans : Ordered m.spans) (start stop : Int) :
    m.outside start stop = gaps start stop m.spans := by
  obtain ⟨before, hm, hbefore⟩ := exists_spansNear hspans start
  rw [hm, gaps_append _ hbefore, outside]

/-- What lies outside the expressions meets none of them. -/
theorem outside_apart {m : Mask} (hspans : Ordered m.spans) {start stop a b : Int}
    (h : (a, b) ∈ m.outside start stop) : ∀ s ∈ m.spans, b ≤ s.start ∨ s.stop ≤ a := by
  rw [outside_eq_gaps hspans] at h
  exact gaps_apart hspans h

end Mask

end Untranslated
