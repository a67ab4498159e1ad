import Untranslated.Proofs.Source.Respelled
import Mathlib.Data.List.Chain

/-!
# Positions as coordinates

The lines of a text and the line breaks between them are the text (`flatMap_line`). What stands between the
content of a line and the next line is one line break, and a carriage return with the line feed behind it
is never taken for two (`isBreak_breakOf`). Positions count along the lines: they tell offsets apart, keep
their order, and do not depend on how the line breaks are written (`locate_withReturns`).
`coordinates_of` puts this together.
-/

namespace Untranslated

namespace Text

/-- Parts of a text that follow each other are one part. -/
theorem flatMap_slice (s : Text) (edge : Nat → Nat) (first count : Nat)
    (h : ∀ k, first ≤ k → k < first + count → edge k ≤ edge (k + 1)) :
    ((List.range' first count).flatMap fun k => slice s (edge k) (edge (k + 1))) =
      slice s (edge first) (edge (first + count)) := by
  have hmono : ∀ n ≤ count, edge first ≤ edge (first + n) := by
    intro n hn
    induction n with
    | zero => exact Nat.le_refl _
    | succ n ih => exact Nat.le_trans (ih (by omega)) (h (first + n) (by omega) (by omega))
  induction count with
  | zero => simp [slice]
  | succ count ih =>
    have hparts := ih (fun k hlo hhi => h k hlo (by omega)) fun n hn => hmono n (by omega)
    rw [List.range'_1_concat, List.flatMap_append, hparts, List.flatMap_singleton]
    exact slice_append (hmono count (by omega)) (h (first + count) (by omega) (by omega))

/-- With a carriage return before each line feed, an offset moves by the line feeds before it. -/
theorem moved_withReturns (s : Text) {o : Nat} (ho : o ≤ s.length) :
    moved s s.withReturns o = o + (s.take o).count '\n' := by
  induction s generalizing o with
  | nil => simp_all
  | cons c s ih =>
    cases o with
    | zero => simp
    | succ o =>
      have hrest := ih (o := o) (by simpa using ho)
      have hcons : withReturns (c :: s) =
          (if c = '\n' then ['\r', '\n'] else [c]) ++ withReturns s := rfl
      by_cases hc : c = '\n'
      · subst hc
        rw [hcons, if_pos rfl, List.cons_append, List.singleton_append, moved_feed, hrest]
        simp
        omega
      · rw [hcons, if_neg hc, List.singleton_append, moved_cons, hrest]
        simp [hc]
        omega

end Text

namespace Lines

/-- Where a line begins; behind the last line, the end of the text. -/
def beginning (ls : Lines) (line : Nat) : Nat :=
  if line ≤ ls.count then (ls.spanOf line).start else ls.text.length

/-- What stands between the content of a line and the next line. -/
def breakOf (ls : Lines) (line : Nat) : Text :=
  Text.slice ls.text (ls.spanOf line).stop (ls.beginning (line + 1))

/-- A line break in front of the rest of a text. A carriage return is one of its own only if no line feed
follows it. -/
def IsBreak (b rest : Text) : Prop :=
  b = ['\r', '\n'] ∨ b = ['\n'] ∨ b = ['\r'] ∧ rest.head? ≠ some '\n'

theorem IsBreak.isSpace {b rest : Text} (h : IsBreak b rest) : ∀ c ∈ b, Text.isSpace c = true := by
  obtain rfl | rfl | ⟨rfl, -⟩ := h <;> exact List.all_eq_true.mp (by decide)

/-! ## Breaks between lines -/

/-- Lines that are read one after the other have one line break between them. `text` is the whole text,
read up to `pos`. -/
theorem isChain_spansFrom {text : Text} {start pos : Nat} {s : Text} (hs : text.drop pos = s) :
    (spansFrom start pos s).IsChain fun a b =>
      IsBreak (Text.slice text a.stop b.start) (text.drop b.start) := by
  -- A break of one or two characters that is written at `pos`, in front of the lines behind it.
  have step : ∀ {start pos : Nat} {b rest : Text}, text.drop pos = b ++ rest → IsBreak b rest →
      ((spansFrom (pos + b.length) (pos + b.length) rest).IsChain fun a b =>
        IsBreak (Text.slice text a.stop b.start) (text.drop b.start)) →
      (⟨start, pos⟩ :: spansFrom (pos + b.length) (pos + b.length) rest).IsChain fun a b =>
        IsBreak (Text.slice text a.stop b.start) (text.drop b.start) := by
    intro start pos b rest hdrop hbreak hlines
    obtain ⟨stop, more, heq⟩ := head_spansFrom (pos + b.length) (pos + b.length) rest
    rw [heq] at hlines ⊢
    refine .cons_cons ?_ hlines
    simp only
    rw [Text.slice_of_drop hdrop, Text.drop_of_drop hdrop]
    exact hbreak
  fun_induction spansFrom start pos s with
  | case1 start pos => exact .singleton _
  | case2 start pos rest ih =>
    have hdrop : text.drop pos = ['\r', '\n'] ++ rest := hs
    exact step hdrop (.inl rfl) (ih (Text.drop_of_drop hdrop))
  | case3 start pos c rest hpair hc ih =>
    have hdrop : text.drop pos = [c] ++ rest := hs
    refine step hdrop ?_ (ih (Text.drop_of_drop hdrop))
    obtain rfl | rfl := hc
    · refine .inr (.inr ⟨rfl, ?_⟩)
      intro hfeed
      obtain ⟨more, hmore⟩ := List.head?_eq_some_iff.mp hfeed
      exact hpair more rfl hmore
    · exact .inr (.inl rfl)
  | case4 start pos c rest _ hc ih =>
    have hdrop : text.drop pos = [c] ++ rest := hs
    exact ih (Text.drop_of_drop hdrop)

/-- The last line ends with the text. -/
theorem getLast?_spansFrom (start pos : Nat) (s : Text) :
    ∃ l, (spansFrom start pos s).getLast? = some l ∧ l.stop = pos + s.length := by
  -- A line in front of others is not the last one.
  have step : ∀ {start pos n m : Nat} {rest : Text},
      (∃ l, (spansFrom n n rest).getLast? = some l ∧ l.stop = m) →
      ∃ l, (⟨start, pos⟩ :: spansFrom n n rest).getLast? = some l ∧ l.stop = m := by
    rintro start pos n m rest ⟨l, hl, hstop⟩
    refine ⟨l, ?_, hstop⟩
    rw [List.getLast?_cons, hl]
    rfl
  fun_induction spansFrom start pos s with
  | case1 start pos => exact ⟨_, rfl, rfl⟩
  | case2 start pos rest ih =>
    apply step
    rwa [Nat.add_right_comm] at ih
  | case3 start pos c rest _ _ ih =>
    apply step
    rwa [Nat.add_right_comm] at ih
  | case4 start pos c rest _ _ ih => rwa [Nat.add_right_comm] at ih

section

variable (text : Text)

theorem stop_spanOf_count : ((Lines.of text).spanOf (Lines.of text).count).stop = text.length := by
  obtain ⟨l, hl, hstop⟩ := getLast?_spansFrom 0 0 text
  rw [List.getLast?_eq_getElem?] at hl
  rw [spanOf, List.getD_eq_getElem?_getD, count]
  simp only [Lines.of, hl, Option.getD_some, hstop, Nat.zero_add]

theorem beginning_one : (Lines.of text).beginning 1 = 0 := by
  obtain ⟨stop, more, h⟩ := head_spansFrom 0 0 text
  have hpos := count_pos text
  rw [beginning, if_pos (show 1 ≤ _ from hpos), spanOf]
  simp [Lines.of, h]

theorem beginning_of_le {line : Nat} (h : line ≤ (Lines.of text).count) :
    (Lines.of text).beginning line = ((Lines.of text).spanOf line).start := if_pos h

theorem beginning_count_succ : (Lines.of text).beginning ((Lines.of text).count + 1) = text.length :=
  if_neg (by omega)

theorem breakOf_count : (Lines.of text).breakOf (Lines.of text).count = [] := by
  rw [breakOf, beginning_count_succ, stop_spanOf_count]
  simp [Text.slice]

variable {line : Nat} (h1 : 1 ≤ line)

include h1

/-- Between two lines stands one line break. -/
theorem isBreak_breakOf (h2 : line < (Lines.of text).count) :
    IsBreak ((Lines.of text).breakOf line) (text.drop ((Lines.of text).spanOf (line + 1)).start) := by
  have hchain : (Lines.of text).spans.IsChain fun a b =>
      IsBreak (Text.slice text a.stop b.start) (text.drop b.start) := isChain_spansFrom rfl
  obtain ⟨hlt, hline⟩ := spanOf_eq text h1 (Nat.le_of_lt h2)
  obtain ⟨hlt', hnext⟩ := spanOf_eq text (Nat.le_add_left 1 line) h2
  have hbreak := List.isChain_iff_getElem.mp hchain (line - 1) (by omega)
  have hindex : line - 1 + 1 = line + 1 - 1 := by omega
  simp only [hindex] at hbreak
  rw [breakOf, beginning_of_le text h2, hline, hnext]
  exact hbreak

/-- A line ends by the beginning of the next one. -/
theorem stop_le_beginning (h2 : line ≤ (Lines.of text).count) :
    ((Lines.of text).spanOf line).stop ≤ (Lines.of text).beginning (line + 1) := by
  by_cases hlast : line = (Lines.of text).count
  · rw [hlast, beginning_count_succ, stop_spanOf_count]
  · rw [beginning_of_le text (by omega)]
    obtain ⟨hlt, hline⟩ := spanOf_eq text h1 h2
    obtain ⟨hlt', hnext⟩ := spanOf_eq text (Nat.le_add_left 1 line) (by omega)
    rw [hline, hnext]
    exact Nat.le_of_lt (List.pairwise_iff_getElem.mp (pairwise_spans text) _ _ hlt hlt' (by omega))

/-- A line and the break behind it reach to the next line. -/
theorem textOf_append_breakOf (h2 : line ≤ (Lines.of text).count) :
    (Lines.of text).textOf line ++ (Lines.of text).breakOf line =
      Text.slice text ((Lines.of text).beginning line) ((Lines.of text).beginning (line + 1)) := by
  rw [textOf, breakOf, beginning_of_le text h2]
  exact Text.slice_append (span_inside text (spanOf_mem text h1 h2)).start_le_stop
    (stop_le_beginning text h1 h2)

theorem beginning_le_succ (h2 : line ≤ (Lines.of text).count) :
    (Lines.of text).beginning line ≤ (Lines.of text).beginning (line + 1) := by
  rw [beginning_of_le text h2]
  exact Nat.le_trans (span_inside text (spanOf_mem text h1 h2)).start_le_stop
    (stop_le_beginning text h1 h2)

end

/-- The lines and the breaks behind them are the text. -/
theorem flatMap_line (text : Text) :
    ((List.range' 1 (Lines.of text).count).flatMap fun line =>
      (Lines.of text).textOf line ++ (Lines.of text).breakOf line) = text := by
  have hlines : ∀ line ∈ List.range' 1 (Lines.of text).count,
      (Lines.of text).textOf line ++ (Lines.of text).breakOf line =
        Text.slice text ((Lines.of text).beginning line) ((Lines.of text).beginning (line + 1)) := by
    intro line hline
    obtain ⟨h1, h2⟩ := List.mem_range'_1.mp hline
    exact textOf_append_breakOf text h1 (by omega)
  have hparts := Text.flatMap_slice text (Lines.of text).beginning 1 (Lines.of text).count
    fun line h1 h2 => beginning_le_succ text h1 (by omega)
  rw [List.flatMap_congr hlines, hparts, beginning_one, Nat.add_comm 1, beginning_count_succ]
  simp [Text.slice]

/-! ## Offsets -/

/-- Offsets outside of the text have the position of the end that is nearest. -/
theorem locate_clamped (text : Text) (o : Int) :
    (o ≤ 0 → (Lines.of text).locate o = (Lines.of text).locate 0) ∧
      (text.length ≤ o → (Lines.of text).locate o = (Lines.of text).locate text.length) := by
  have hmin : ∀ p q : Int, min p.toNat text.length = min q.toNat text.length →
      (Lines.of text).locate p = (Lines.of text).locate q := by
    intro p q h
    simp only [locate, show (Lines.of text).text = text from rfl, h]
  constructor
  · intro ho
    apply hmin
    omega
  · intro ho
    apply hmin
    omega

/-- The position of an offset does not depend on whether lines end with a line feed or with a carriage
return and a line feed. -/
theorem locate_withReturns {text : Text} (hreturn : '\r' ∉ text) {o : Nat} (ho : o ≤ text.length) :
    (Lines.of text.withReturns).locate (o + (text.take o).count '\n' : Nat) =
      (Lines.of text).locate o := by
  rw [← Text.moved_withReturns text ho]
  exact locate_moved (.withReturns text) hreturn ho

/-- The lines and positions of a text are a coordinate system for its offsets. -/
structure Coordinates (text : Text) : Prop where
  /-- The lines and the breaks behind them are the text. -/
  joined : ((List.range' 1 (Lines.of text).count).flatMap fun line =>
    (Lines.of text).textOf line ++ (Lines.of text).breakOf line) = text
  unbroken : ∀ line, 1 ≤ line → line ≤ (Lines.of text).count →
    ((Lines.of text).textOf line).Breakless
  /-- One line break stands behind each line but the last one, and behind that one stands nothing. -/
  broken : ∀ line, 1 ≤ line → line < (Lines.of text).count →
    IsBreak ((Lines.of text).breakOf line) (text.drop ((Lines.of text).spanOf (line + 1)).start)
  ended : (Lines.of text).breakOf (Lines.of text).count = []
  line_bounds : ∀ o : Nat, o ≤ text.length →
    1 ≤ ((Lines.of text).locate o).line ∧ ((Lines.of text).locate o).line ≤ (Lines.of text).count
  character_pos : ∀ o : Nat, o ≤ text.length → 1 ≤ ((Lines.of text).locate o).character
  /-- The position of an offset leads back to the offset. -/
  invertible : ∀ o : Nat, o ≤ text.length →
    ((Lines.of text).spanOf ((Lines.of text).locate o).line).start +
      ((Lines.of text).locate o).character - 1 = o
  increasing : ∀ o o' : Nat, o < o' → o' ≤ text.length →
    ((Lines.of text).locate o).line < ((Lines.of text).locate o').line ∨
      ((Lines.of text).locate o).line = ((Lines.of text).locate o').line ∧
        ((Lines.of text).locate o).character < ((Lines.of text).locate o').character
  clamped : ∀ o : Int, (o ≤ 0 → (Lines.of text).locate o = (Lines.of text).locate 0) ∧
    (text.length ≤ o → (Lines.of text).locate o = (Lines.of text).locate text.length)
  /-- Writing each line feed with a carriage return before it changes no position. -/
  converted : '\r' ∉ text → ∀ o : Nat, o ≤ text.length →
    (Lines.of text).locate o =
      (Lines.of text.withReturns).locate (o + (text.take o).count '\n' : Nat)

/-- Every text, whatever its line breaks, has lines and positions that are coordinates of its offsets. -/
theorem coordinates_of (text : Text) : Coordinates text where
  joined := flatMap_line text
  unbroken line h1 h2 := not_break_of_mem_textOf text h1 h2
  broken line h1 h2 := isBreak_breakOf text h1 h2
  ended := breakOf_count text
  line_bounds o ho := by
    rw [line_locate text ho]
    exact ⟨one_le_lineOf text o, lineOf_le_count text o⟩
  character_pos o _ := Nat.le_add_left 1 _
  invertible o ho := start_add_character text ho
  increasing o o' h ho' := locate_lt text h ho'
  clamped o := locate_clamped text o
  converted hreturn o ho := (locate_withReturns hreturn ho).symm

/-- Each carriage return that no line feed follows ends a line of its own, and so does the last one. -/
example : (Lines.of "a\r\r\nb\r".toList).spans = [⟨0, 1⟩, ⟨2, 2⟩, ⟨4, 5⟩, ⟨6, 6⟩] := by decide

end Lines

end Untranslated
