import Untranslated.Proofs.Text

/-!
# The line index

The lines of a text lie one behind the other (`pairwise_spans`), inside the text (`span_inside`), and
hold no line break (`not_break_of_mem_textOf`). An offset lies on the last line that begins by then,
so the position of an offset leads back to the offset (`start_add_character`), later offsets have later
positions (`locate_lt`), and an offset inside a line's content lies on that line (`lineOf_eq`). What holds
no line break lies on one line (`le_stop_of_not_break`).
-/

namespace Untranslated.Lines

/-! ## Reading lines -/

theorem spansFrom_ne_nil (start pos : Nat) (s : Text) : spansFrom start pos s ≠ [] := by
  fun_induction spansFrom start pos s with
  | case1 => simp
  | case2 => simp
  | case3 => simp
  | case4 _ _ _ _ _ _ ih => exact ih

/-- The first line begins where reading began. -/
theorem head_spansFrom (start pos : Nat) (s : Text) :
    ∃ stop more, spansFrom start pos s = ⟨start, stop⟩ :: more := by
  fun_induction spansFrom start pos s with
  | case1 => exact ⟨_, _, rfl⟩
  | case2 => exact ⟨_, _, rfl⟩
  | case3 => exact ⟨_, _, rfl⟩
  | case4 _ _ _ _ _ _ ih => exact ih

theorem spansFrom_inside {start pos : Nat} {s : Text} (h : start ≤ pos) :
    ∀ l ∈ spansFrom start pos s, l.Inside start (pos + s.length) := by
  fun_induction spansFrom start pos s with
  | case1 start pos =>
    intro l hl
    rw [List.mem_singleton.mp hl]
    exact ⟨Nat.le_refl _, h, Nat.le_refl _⟩
  | case2 start pos rest ih =>
    intro l hl
    rcases List.mem_cons.mp hl with rfl | hl
    · exact ⟨Nat.le_refl _, h, by simp⟩
    · exact (ih (Nat.le_refl _) l hl).mono (by omega) (by simp; omega)
  | case3 start pos c rest _ _ ih =>
    intro l hl
    rcases List.mem_cons.mp hl with rfl | hl
    · exact ⟨Nat.le_refl _, h, by simp⟩
    · exact (ih (Nat.le_refl _) l hl).mono (by omega) (by simp; omega)
  | case4 start pos c rest _ _ ih =>
    intro l hl
    exact (ih (by omega) l hl).mono (Nat.le_refl _) (by simp; omega)

theorem pairwise_spansFrom {start pos : Nat} {s : Text} (h : start ≤ pos) :
    (spansFrom start pos s).Pairwise fun a b => a.stop < b.start := by
  fun_induction spansFrom start pos s with
  | case1 => simp
  | case2 start pos rest ih =>
    refine List.pairwise_cons.mpr ⟨fun l hl => ?_, ih (Nat.le_refl _)⟩
    have := (spansFrom_inside (Nat.le_refl _) l hl).lo_le
    simp only; omega
  | case3 start pos c rest _ _ ih =>
    refine List.pairwise_cons.mpr ⟨fun l hl => ?_, ih (Nat.le_refl _)⟩
    have := (spansFrom_inside (Nat.le_refl _) l hl).lo_le
    simp only; omega
  | case4 start pos c rest _ _ ih => exact ih (by omega)

/-- Line breaks end lines: none is left inside one. `text` is the whole text, read up to `pos`. -/
theorem not_break_of_mem_spansFrom {text : Text} {start pos : Nat} {s : Text} (hs : text.drop pos = s)
    (hpos : start ≤ pos) (hline : ∀ c ∈ Text.slice text start pos, c ≠ '\r' ∧ c ≠ '\n') :
    ∀ l ∈ spansFrom start pos s, ∀ c ∈ Text.slice text l.start l.stop, c ≠ '\r' ∧ c ≠ '\n' := by
  fun_induction spansFrom start pos s with
  | case1 start pos => simpa using hline
  | case2 start pos rest ih =>
    have hrest : text.drop (pos + 2) = rest := by rw [← List.drop_drop, hs]; rfl
    intro l hl
    rcases List.mem_cons.mp hl with rfl | hl
    · exact hline
    · exact ih hrest (Nat.le_refl _) (by simp [Text.slice]) l hl
  | case3 start pos c rest _ _ ih =>
    have hrest : text.drop (pos + 1) = rest := by rw [← List.drop_drop, hs]; rfl
    intro l hl
    rcases List.mem_cons.mp hl with rfl | hl
    · exact hline
    · exact ih hrest (Nat.le_refl _) (by simp [Text.slice]) l hl
  | case4 start pos c rest _ hc ih =>
    have hrest : text.drop (pos + 1) = rest := by rw [← List.drop_drop, hs]; rfl
    refine ih hrest (by omega) fun d hd => ?_
    rw [← Text.slice_append hpos (Nat.le_add_right pos 1), List.mem_append] at hd
    rcases hd with hd | hd
    · exact hline d hd
    · simp only [Text.slice, hs, Nat.add_sub_cancel_left, List.take_succ_cons, List.take_zero,
        List.mem_singleton] at hd
      subst hd
      simpa using hc

/-- What is no line break lies in the content of a line. `text` is the whole text, read up to `pos`. -/
theorem exists_span_of_not_break {text : Text} {start pos : Nat} {s : Text} (hs : text.drop pos = s)
    (hpos : start ≤ pos) {o : Nat} (hlo : start ≤ o)
    (h : o < pos ∨ ∃ c, text[o]? = some c ∧ c ≠ '\r' ∧ c ≠ '\n') :
    ∃ l ∈ spansFrom start pos s, l.start ≤ o ∧ o < l.stop := by
  fun_induction spansFrom start pos s with
  | case1 start pos =>
    refine ⟨_, List.mem_singleton_self _, hlo, ?_⟩
    rcases h with h | ⟨c, hc, -⟩
    · exact h
    · have hlt := (List.getElem?_eq_some_iff.mp hc).1
      have hlength := List.drop_eq_nil_iff.mp hs
      simp only
      omega
  | case2 start pos rest ih =>
    rcases Nat.lt_or_ge o pos with hlt | hge
    · exact ⟨_, List.mem_cons_self, hlo, hlt⟩
    · have hnot : o ≠ pos ∧ o ≠ pos + 1 := by
        obtain hlt | ⟨c, hc, hbreak⟩ := h
        · omega
        · have hreturn : text[pos]? = some '\r' := by rw [← List.head?_drop, hs]; rfl
          have hfeed : text[pos + 1]? = some '\n' := by rw [← List.getElem?_drop, hs]; rfl
          constructor <;> rintro rfl
          · exact hbreak.1 (Option.some.inj (hc.symm.trans hreturn))
          · exact hbreak.2 (Option.some.inj (hc.symm.trans hfeed))
      have hrest : text.drop (pos + 2) = rest := by rw [← List.drop_drop, hs]; rfl
      obtain ⟨l, hl, hin⟩ := ih hrest (Nat.le_refl _) (by omega) (h.imp_left (by omega))
      exact ⟨l, List.mem_cons_of_mem _ hl, hin⟩
  | case3 start pos c rest _ hc ih =>
    rcases Nat.lt_or_ge o pos with hlt | hge
    · exact ⟨_, List.mem_cons_self, hlo, hlt⟩
    · have hnot : o ≠ pos := by
        obtain hlt | ⟨d, hd, hbreak⟩ := h
        · omega
        · rintro rfl
          obtain rfl : d = c := by
            rw [← List.head?_drop, hs] at hd
            exact (Option.some.inj hd).symm
          exact hc.elim hbreak.1 hbreak.2
      have hrest : text.drop (pos + 1) = rest := by rw [← List.drop_drop, hs]; rfl
      obtain ⟨l, hl, hin⟩ := ih hrest (Nat.le_refl _) (by omega) (h.imp_left (by omega))
      exact ⟨l, List.mem_cons_of_mem _ hl, hin⟩
  | case4 start pos c rest _ hc ih =>
    have hrest : text.drop (pos + 1) = rest := by rw [← List.drop_drop, hs]; rfl
    exact ih hrest (by omega) hlo (h.imp_left (by omega))

/-- Without carriage returns, every offset lies in the content of a line or at its end. -/
theorem exists_span_of_not_return {start pos : Nat} {s : Text} (hs : '\r' ∉ s) {o : Nat} (hlo : start ≤ o)
    (hhi : o ≤ pos + s.length) : ∃ l ∈ spansFrom start pos s, l.start ≤ o ∧ o ≤ l.stop := by
  fun_induction spansFrom start pos s with
  | case1 start pos => exact ⟨_, List.mem_singleton_self _, hlo, hhi⟩
  | case2 => exact absurd List.mem_cons_self hs
  | case3 start pos c rest _ _ ih =>
    rcases Nat.lt_or_ge pos o with hlt | hge
    · rw [List.length_cons] at hhi
      obtain ⟨l, hl, hin⟩ := ih (fun hmem => hs (List.mem_cons_of_mem c hmem)) hlt (by omega)
      exact ⟨l, List.mem_cons_of_mem _ hl, hin⟩
    · exact ⟨_, List.mem_cons_self, hlo, hge⟩
  | case4 start pos c rest _ _ ih =>
    rw [List.length_cons] at hhi
    exact ih (fun hmem => hs (List.mem_cons_of_mem c hmem)) hlo (by omega)

/-! ## Counting the lines that have begun -/

/-- In a list of ordered ranges, those that begin at or before an offset are as many as stand
before the next one. -/
theorem start_le_iff_lt_countP {spans : List Span} (h : spans.Pairwise fun a b => a.start < b.start)
    (o : Nat) {i : Nat} (hi : i < spans.length) :
    spans[i].start ≤ o ↔ i < spans.countP fun s => (s.start : Int) ≤ o := by
  induction spans generalizing i with
  | nil => simp at hi
  | cons s rest ih =>
    obtain ⟨hs, hrest⟩ := List.pairwise_cons.mp h
    by_cases hso : s.start ≤ o
    · rw [List.countP_cons_of_pos (by simpa using hso)]
      cases i with
      | zero => simpa using hso
      | succ i =>
        have := ih hrest (i := i) (by simpa using hi)
        simpa using this
    · have hzero : rest.countP (fun s => (s.start : Int) ≤ o) = 0 := by
        rw [List.countP_eq_zero]
        intro a ha
        have := hs a ha
        simp only [Int.ofNat_le, decide_eq_true_eq]
        omega
      rw [List.countP_cons_of_neg (by simpa using hso), hzero]
      simp only [Nat.not_lt_zero, iff_false]
      cases i with
      | zero => simpa using hso
      | succ i =>
        have hi' : i < rest.length := by simpa using hi
        have := hs rest[i] (List.getElem_mem hi')
        simp only [List.getElem_cons_succ]
        omega

section

variable (text : Text)

theorem pairwise_spans : (Lines.of text).spans.Pairwise fun a b => a.stop < b.start :=
  pairwise_spansFrom (Nat.le_refl 0)

theorem span_inside {l : Span} (hl : l ∈ (Lines.of text).spans) : l.Inside 0 text.length := by
  have := spansFrom_inside (Nat.le_refl 0) l hl
  rwa [Nat.zero_add] at this

theorem pairwise_starts : (Lines.of text).spans.Pairwise fun a b => a.start < b.start := by
  refine (pairwise_spans text).imp_of_mem fun ha _ h => ?_
  have := (span_inside text ha).start_le_stop
  omega

theorem count_pos : 0 < (Lines.of text).count :=
  List.length_pos_iff.mpr (spansFrom_ne_nil 0 0 text)

/-- Every line that exists has a range of its own. -/
theorem spanOf_eq {line : Nat} (h1 : 1 ≤ line) (h2 : line ≤ (Lines.of text).count) :
    ∃ h : line - 1 < (Lines.of text).spans.length,
      (Lines.of text).spanOf line = (Lines.of text).spans[line - 1] := by
  have h : line - 1 < (Lines.of text).spans.length := by unfold count at h2; omega
  exact ⟨h, by simp [spanOf, h]⟩

theorem spanOf_mem {line : Nat} (h1 : 1 ≤ line) (h2 : line ≤ (Lines.of text).count) :
    (Lines.of text).spanOf line ∈ (Lines.of text).spans := by
  obtain ⟨h, he⟩ := spanOf_eq text h1 h2
  rw [he]
  exact List.getElem_mem h

theorem not_break_of_mem_textOf {line : Nat} (h1 : 1 ≤ line) (h2 : line ≤ (Lines.of text).count) :
    ∀ c ∈ (Lines.of text).textOf line, c ≠ '\r' ∧ c ≠ '\n' :=
  not_break_of_mem_spansFrom (show text.drop 0 = text from rfl) (Nat.le_refl 0) (by simp [Text.slice]) _
    (spanOf_mem text h1 h2)

/-- Some line has begun at every offset: the first one. -/
theorem countP_pos (o : Nat) :
    0 < (Lines.of text).spans.countP fun s => (s.start : Int) ≤ o := by
  obtain ⟨stop, more, h⟩ := head_spansFrom 0 0 text
  show 0 < (spansFrom 0 0 text).countP _
  rw [h, List.countP_cons_of_pos (by simp)]
  omega

theorem lineOf_natCast (o : Nat) :
    (Lines.of text).lineOf o = (Lines.of text).spans.countP fun s => (s.start : Int) ≤ o := by
  have := countP_pos text o
  unfold lineOf
  omega

theorem one_le_lineOf (o : Int) : 1 ≤ (Lines.of text).lineOf o := Nat.le_max_right _ _

theorem lineOf_le_count (o : Int) : (Lines.of text).lineOf o ≤ (Lines.of text).count :=
  Nat.max_le.mpr ⟨List.countP_le_length, count_pos text⟩

/-- The line of an offset begins at or before it. -/
theorem start_spanOf_lineOf_le (o : Nat) :
    ((Lines.of text).spanOf ((Lines.of text).lineOf o)).start ≤ o := by
  obtain ⟨h, he⟩ := spanOf_eq text (one_le_lineOf text o) (lineOf_le_count text o)
  rw [he, start_le_iff_lt_countP (pairwise_starts text) o h, ← lineOf_natCast]
  have := one_le_lineOf text o
  omega

/-- An offset in the content of a line, its end included, lies on that line. -/
theorem lineOf_eq {line o : Nat} (h1 : 1 ≤ line) (h2 : line ≤ (Lines.of text).count)
    (hlo : ((Lines.of text).spanOf line).start ≤ o)
    (hhi : o ≤ ((Lines.of text).spanOf line).stop) : (Lines.of text).lineOf o = line := by
  obtain ⟨h, he⟩ := spanOf_eq text h1 h2
  rw [he] at hlo hhi
  have hbegun := (start_le_iff_lt_countP (pairwise_starts text) o h).mp hlo
  rw [← lineOf_natCast] at hbegun
  -- The next line, if any, begins behind the content of this one.
  by_cases hnext : line < (Lines.of text).spans.length
  · have hlt := List.pairwise_iff_getElem.mp (pairwise_spans text) (line - 1) line h hnext (by omega)
    have hnot := start_le_iff_lt_countP (pairwise_starts text) o hnext
    rw [← lineOf_natCast] at hnot
    omega
  · have := lineOf_le_count text o
    unfold count at this
    omega

/-- The line that holds an offset is the line of that offset. -/
theorem spanOf_lineOf_of_mem {l : Span} (hl : l ∈ (Lines.of text).spans) {o : Nat} (hlo : l.start ≤ o)
    (hhi : o ≤ l.stop) : (Lines.of text).spanOf ((Lines.of text).lineOf o) = l := by
  obtain ⟨i, hi, rfl⟩ := List.getElem_of_mem hl
  have hspan : (Lines.of text).spanOf (i + 1) = (Lines.of text).spans[i] := by simp [spanOf, hi]
  rw [lineOf_eq text (by omega) hi (hspan ▸ hlo) (hspan ▸ hhi), hspan]

/-- Where lines end with one character, every offset lies in the content of its line. -/
theorem le_stop_spanOf_lineOf (hreturn : '\r' ∉ text) {o : Nat} (ho : o ≤ text.length) :
    o ≤ ((Lines.of text).spanOf ((Lines.of text).lineOf o)).stop := by
  obtain ⟨l, hl, hlo, hhi⟩ :=
    exists_span_of_not_return hreturn (Nat.zero_le o) ((Nat.zero_add text.length).symm ▸ ho)
  rw [spanOf_lineOf_of_mem text hl hlo hhi]
  exact hhi

/-- A part of the text without line breaks lies in the content of the line of its beginning. -/
theorem le_stop_of_not_break {a b : Nat} (hab : a < b) (hb : b ≤ text.length)
    (h : ∀ c ∈ Text.slice text a b, c ≠ '\r' ∧ c ≠ '\n') :
    b ≤ ((Lines.of text).spanOf ((Lines.of text).lineOf a)).stop := by
  have hline : ∀ o, a ≤ o → o < b →
      ∃ l ∈ (Lines.of text).spans, l.start ≤ o ∧ o < l.stop := by
    intro o hao hob
    refine exists_span_of_not_break rfl (Nat.le_refl 0) (Nat.zero_le o) (.inr ⟨text[o], ?_, ?_⟩)
    · simp
    · refine h _ (List.mem_of_getElem? (i := o - a) ?_)
      rw [Text.slice, List.getElem?_take_of_lt (by omega), List.getElem?_drop, Nat.add_sub_cancel' hao]
      simp
  obtain ⟨l, hl, hlo, hhi⟩ := hline a (Nat.le_refl a) hab
  rw [spanOf_lineOf_of_mem text hl hlo (Nat.le_of_lt hhi)]
  refine Nat.le_of_not_lt fun hlt => ?_
  -- The character at the end of the line would lie on another line.
  obtain ⟨l', hl', hlo', hhi'⟩ := hline _ (Nat.le_of_lt hhi) hlt
  have heq := spanOf_lineOf_of_mem text hl' hlo' (Nat.le_of_lt hhi')
  rw [spanOf_lineOf_of_mem text hl (by omega) (Nat.le_refl _)] at heq
  rw [heq] at hhi'
  exact Nat.lt_irrefl _ hhi'

/-- The position of an offset of the text leads back to the offset. -/
theorem start_add_character {o : Nat} (ho : o ≤ text.length) :
    ((Lines.of text).spanOf ((Lines.of text).locate o).line).start +
      ((Lines.of text).locate o).character - 1 = o := by
  have hmin : min (Int.toNat o) (Lines.of text).text.length = o := by
    show min (Int.toNat o) text.length = o
    rw [Int.toNat_natCast]; omega
  have hle := start_spanOf_lineOf_le text o
  unfold locate
  simp only [hmin]
  omega

theorem line_locate {o : Nat} (ho : o ≤ text.length) :
    ((Lines.of text).locate o).line = (Lines.of text).lineOf o := by
  have hmin : min (Int.toNat o) (Lines.of text).text.length = o := by
    show min (Int.toNat o) text.length = o
    rw [Int.toNat_natCast]; omega
  unfold locate
  simp only [hmin]

theorem lineOf_mono {o o' : Nat} (h : o ≤ o') :
    (Lines.of text).lineOf o ≤ (Lines.of text).lineOf o' := by
  rw [lineOf_natCast, lineOf_natCast]
  refine List.countP_mono_left fun s _ hs => ?_
  simp only [decide_eq_true_eq] at hs ⊢
  omega

/-- An offset that comes later in the text has a later position. -/
theorem locate_lt {o o' : Nat} (h : o < o') (ho' : o' ≤ text.length) :
    ((Lines.of text).locate o).line < ((Lines.of text).locate o').line ∨
      ((Lines.of text).locate o).line = ((Lines.of text).locate o').line ∧
        ((Lines.of text).locate o).character < ((Lines.of text).locate o').character := by
  have hline : ((Lines.of text).locate o).line ≤ ((Lines.of text).locate o').line := by
    rw [line_locate text (by omega), line_locate text ho']
    exact lineOf_mono text (Nat.le_of_lt h)
  have hback := start_add_character text (show o ≤ text.length by omega)
  have hback' := start_add_character text ho'
  rcases Nat.lt_or_eq_of_le hline with hlt | heq
  · exact .inl hlt
  · rw [heq] at hback
    exact .inr ⟨heq, by omega⟩

end

end Untranslated.Lines
