import Untranslated.Proofs.Finding
import Untranslated.Proofs.Source.Coordinates

/-!
# Findings of a range, line by line

A range of the source is shown line by line: one finding for each line on which something of the range is
visible, and none for the other lines. The lines of a range are looked for only between those of its first
and its last character, but no other line shows anything of it (`filter_touchedLines`), so that the findings
are made from all lines that show something (`ofText_eq_shown`). Nothing visible is lost and nothing is
shown twice (`Lines.flatMap_ink_part`). `ofText_lossless` puts this together.
-/

namespace Untranslated

namespace Text

/-- What is left of a text without its whitespace. -/
def ink (s : Text) : Text := s.filter fun c => !isSpace c

theorem ink_append (s t : Text) : ink (s ++ t) = ink s ++ ink t := List.filter_append ..

theorem ink_of_isSpace {s : Text} (h : ∀ c ∈ s, isSpace c = true) : ink s = [] := by
  apply List.filter_eq_nil_iff.mpr
  intro c hc
  simp [h c hc]

theorem ink_trimLeft (s : Text) : ink (trimLeft s) = ink s := by
  have hspace : ∀ c ∈ s.takeWhile isSpace, isSpace c = true := List.all_eq_true.mp List.all_takeWhile
  calc ink (trimLeft s) = ink (s.takeWhile isSpace) ++ ink (s.dropWhile isSpace) := by
        rw [ink_of_isSpace hspace, List.nil_append, trimLeft]
    _ = ink s := by rw [← ink_append, List.takeWhile_append_dropWhile]

theorem ink_reverse (s : Text) : ink s.reverse = (ink s).reverse := List.filter_reverse ..

theorem ink_trim (s : Text) : ink (trim s) = ink s := by
  have hright : ∀ t : Text, ink (trimRight t) = ink t := by
    intro t
    rw [trimRight, ink_reverse, show t.reverse.dropWhile isSpace = trimLeft t.reverse from rfl,
      ink_trimLeft, ink_reverse, List.reverse_reverse]
  rw [trim, hright, ink_trimLeft]

theorem trim_eq_nil_iff {s : Text} : trim s = [] ↔ ∀ c ∈ s, isSpace c = true := by
  constructor
  · intro h c hc
    have hink : ink s = [] := by rw [← ink_trim, h]; rfl
    simpa using List.filter_eq_nil_iff.mp hink c hc
  · intro h
    cases htrim : trim s with
    | nil => rfl
    | cons c rest =>
      -- The first character that is left is visible, and so it was there before.
      have hc : isSpace c = false := (trimmed_trim s).head c (by rw [htrim]; rfl)
      have hmem : c ∈ ink (trim s) := by
        rw [htrim]
        exact List.mem_filter.mpr ⟨List.mem_cons_self, by simp [hc]⟩
      rw [ink_trim, ink_of_isSpace h] at hmem
      cases hmem

theorem any_iff_trim {s : Text} : (s.any fun c => !isSpace c) = true ↔ trim s ≠ [] := by
  rw [Ne, trim_eq_nil_iff]
  simp

theorem trimLeft_of_head? {s : Text} (h : ∀ c ∈ s.head?, isSpace c = false) : trimLeft s = s := by
  cases s with
  | nil => rfl
  | cons c rest => rw [trimLeft, List.dropWhile_cons_of_neg (by simp [h c rfl])]

end Text

namespace Lines

/-- The part of the range `[a, b)` in the content of a line. -/
def part (ls : Lines) (a b line : Nat) : Text :=
  Text.slice ls.text (max a (ls.spanOf line).start) (min b (ls.spanOf line).stop)

/-- Whether a line shows something of the range `[a, b)`. -/
def shows (ls : Lines) (a b line : Nat) : Bool := (ls.part a b line).any fun c => !Text.isSpace c

/-- The lines that show something of the range `[a, b)`. -/
def shownLines (ls : Lines) (a b : Nat) : List Nat := (List.range' 1 ls.count).filter (ls.shows a b)

variable {text : Text} {a b : Nat}

/-- A line that shows something of a range is not above or below the range. -/
theorem lineOf_le_of_shows {line : Nat} (h1 : 1 ≤ line) (h2 : line ≤ (Lines.of text).count)
    (h : (Lines.of text).shows a b line = true) :
    (Lines.of text).lineOf a ≤ line ∧ line ≤ (Lines.of text).lineOf (b - 1 : Nat) := by
  have hlt : max a ((Lines.of text).spanOf line).start < min b ((Lines.of text).spanOf line).stop := by
    obtain ⟨c, hc, -⟩ := List.any_eq_true.mp h
    have hpos := List.length_pos_of_mem hc
    rw [part, Text.length_slice] at hpos
    omega
  -- The first offset of the part lies on the line, and between the ends of the range.
  have hline := lineOf_eq text h1 h2 (Nat.le_max_right a _) (show max a _ ≤ _ by omega)
  have hlo := lineOf_mono text (Nat.le_max_left a ((Lines.of text).spanOf line).start)
  have hhi := lineOf_mono text (show max a ((Lines.of text).spanOf line).start ≤ b - 1 by omega)
  rw [hline] at hlo hhi
  exact ⟨hlo, hhi⟩

/-- What is visible of a range between the beginnings of two lines is visible in its part of the first. -/
theorem ink_part {line : Nat} (h1 : 1 ≤ line) (h2 : line ≤ (Lines.of text).count) (hab : a ≤ b) :
    Text.ink (Text.slice text (max a (min b ((Lines.of text).beginning line)))
        (max a (min b ((Lines.of text).beginning (line + 1))))) =
      Text.ink ((Lines.of text).part a b line) := by
  have hspan := (span_inside text (spanOf_mem text h1 h2)).start_le_stop
  have hnext := stop_le_beginning text h1 h2
  have hbreak : ∀ c ∈ (Lines.of text).breakOf line, Text.isSpace c = true := by
    by_cases hlast : line = (Lines.of text).count
    · rw [hlast, breakOf_count]
      simp
    · exact (isBreak_breakOf text h1 (by omega)).isSpace
  unfold breakOf at hbreak
  rw [beginning_of_le text h2]
  unfold part
  change ∀ c ∈ Text.slice text _ _, _ at hbreak
  change _ = Text.ink (Text.slice text _ _)
  generalize (Lines.of text).beginning (line + 1) = next at *
  generalize (Lines.of text).spanOf line = whole at *
  -- The range is cut where the content of the line ends; behind it stands only the line break.
  have hbehind : ∀ c ∈ Text.slice text (max a (min b whole.stop)) (max a (min b next)),
      Text.isSpace c = true := by
    intro c hc
    by_cases hin : a ≤ whole.stop ∧ whole.stop ≤ b
    · rw [Nat.min_eq_right hin.2, Nat.max_eq_right hin.1] at hc
      refine hbreak c ((Text.slice_prefix_slice text whole.stop ?_).subset hc)
      omega
    · have hpos := List.length_pos_of_mem hc
      rw [Text.length_slice] at hpos
      by_cases hbefore : whole.stop < a
      · refine hbreak c ((Text.slice_infix_slice text ?_ ?_).subset hc) <;> omega
      · omega
  rw [← Text.slice_append (show max a (min b whole.start) ≤ max a (min b whole.stop) by omega)
    (show max a (min b whole.stop) ≤ max a (min b next) by omega), Text.ink_append,
    Text.ink_of_isSpace hbehind, List.append_nil]
  by_cases hin : max a whole.start < min b whole.stop
  · rw [show max a (min b whole.start) = max a whole.start by omega,
      show max a (min b whole.stop) = min b whole.stop by omega]
  · have hempty : ∀ {x y : Nat}, y ≤ x → Text.slice text x y = [] := by
      intro x y hle
      rw [Text.slice, Nat.sub_eq_zero_of_le hle, List.take_zero]
    rw [hempty (show max a (min b whole.stop) ≤ max a (min b whole.start) by omega),
      hempty (show min b whole.stop ≤ max a whole.start by omega)]

/-- Line by line, all that is visible of a range is there once. -/
theorem flatMap_ink_part (hab : a ≤ b) (hb : b ≤ text.length) :
    ((List.range' 1 (Lines.of text).count).flatMap fun line =>
      Text.ink ((Lines.of text).part a b line)) = Text.ink (Text.slice text a b) := by
  have hparts := Text.flatMap_slice text (fun line => max a (min b ((Lines.of text).beginning line))) 1
    (Lines.of text).count fun line h1 h2 => by
      have := beginning_le_succ text h1 (by omega)
      omega
  rw [beginning_one, Nat.add_comm 1, beginning_count_succ, Nat.min_zero, Nat.max_zero,
    Nat.min_eq_left hb, Nat.max_eq_right hab] at hparts
  rw [← hparts, Text.ink, List.filter_flatMap]
  apply List.flatMap_congr
  intro line hline
  obtain ⟨h1, h2⟩ := List.mem_range'_1.mp hline
  exact (ink_part h1 (by omega) hab).symm

/-- The lines that show something of a range show all that is visible of it. -/
theorem flatMap_ink_shownLines (hab : a ≤ b) (hb : b ≤ text.length) :
    (((Lines.of text).shownLines a b).flatMap fun line => Text.ink ((Lines.of text).part a b line)) =
      Text.ink (Text.slice text a b) := by
  have hfilter : ∀ lines : List Nat, ((lines.filter ((Lines.of text).shows a b)).flatMap fun line =>
      Text.ink ((Lines.of text).part a b line)) =
        lines.flatMap fun line => Text.ink ((Lines.of text).part a b line) := by
    intro lines
    induction lines with
    | nil => rfl
    | cons line lines ih =>
      by_cases hshows : (Lines.of text).shows a b line = true
      · rw [List.filter_cons_of_pos hshows, List.flatMap_cons, List.flatMap_cons, ih]
      · have hnone : ∀ c ∈ (Lines.of text).part a b line, Text.isSpace c = true := by
          simpa [shows] using hshows
        rw [List.filter_cons_of_neg hshows, List.flatMap_cons, ih, Text.ink_of_isSpace hnone,
          List.nil_append]
  rw [shownLines, hfilter, flatMap_ink_part hab hb]

end Lines

namespace Finding

variable {text : Text} {a b : Nat}

/-- What a line shows of a range is its part of the range, trimmed. -/
theorem lineFragment_eq_part (text : Text) (a b line : Nat) :
    lineFragment (Lines.of text) a b line =
      (((max a ((Lines.of text).spanOf line).start + (((Lines.of text).part a b line).length -
          (Text.trimLeft ((Lines.of text).part a b line)).length) : Nat) : Int),
        Text.trim ((Lines.of text).part a b line)) := by
  unfold Lines.part
  generalize hwhole : (Lines.of text).spanOf line = whole
  have hfirst : max (a : Int) (whole.start : Int) = (max a whole.start : Nat) := by omega
  have hlast : min (b : Int) (whole.stop : Int) = (min b whole.stop : Nat) := by omega
  simp only [lineFragment, hwhole, hfirst, hlast, Text.sliceAt_natCast, Int.natCast_add]

/-- The lines that show something of a range are among those that are looked at. -/
theorem filter_touchedLines (hab : a < b) :
    (touchedLines (Lines.of text) a b).filter ((Lines.of text).shows a b) =
      (Lines.of text).shownLines a b := by
  have hlast : max ((b : Int) - 1) a = (b - 1 : Nat) := by omega
  have hpos := Lines.one_le_lineOf text a
  have hle := Lines.lineOf_mono text (show a ≤ b - 1 by omega)
  have hcount := Lines.lineOf_le_count text (b - 1 : Nat)
  have hbounds : ∀ line, 1 ≤ line → line ≤ (Lines.of text).count →
      (Lines.of text).shows a b line = true →
        (Lines.of text).lineOf a ≤ line ∧ line ≤ (Lines.of text).lineOf (b - 1 : Nat) :=
    fun line h1 h2 h => Lines.lineOf_le_of_shows h1 h2 h
  unfold touchedLines Lines.shownLines
  simp only [hlast]
  generalize (Lines.of text).lineOf a = first at *
  generalize (Lines.of text).lineOf (b - 1 : Nat) = last at *
  generalize (Lines.of text).count = count at *
  have hcut : List.range' 1 count = List.range' 1 (first - 1) ++
      (List.range' first (last + 1 - first) ++ List.range' (last + 1) (count - last)) := by
    have hbehind := @List.range'_append_1 first (last + 1 - first) (count - last)
    rw [show first + (last + 1 - first) = last + 1 by omega,
      show last + 1 - first + (count - last) = count + 1 - first by omega] at hbehind
    have hbefore := @List.range'_append_1 1 (first - 1) (count + 1 - first)
    rw [show 1 + (first - 1) = first by omega,
      show first - 1 + (count + 1 - first) = count by omega] at hbefore
    rw [hbehind, hbefore]
  have hother : ∀ lines : List Nat, (∀ line ∈ lines, 1 ≤ line ∧ line ≤ count ∧
      ¬ (first ≤ line ∧ line ≤ last)) → lines.filter ((Lines.of text).shows a b) = [] := by
    intro lines h
    apply List.filter_eq_nil_iff.mpr
    intro line hline hshows
    obtain ⟨h1, h2, hnot⟩ := h line hline
    exact hnot (hbounds line h1 h2 hshows)
  rw [hcut, List.filter_append, List.filter_append, hother (List.range' 1 _),
    hother (List.range' (last + 1) _), List.nil_append, List.append_nil]
  · intro line hline
    rw [List.mem_range'_1] at hline
    omega
  · intro line hline
    rw [List.mem_range'_1] at hline
    omega

/-- The finding of the line that is shown as the `i`-th. -/
def ofLine (rule : Rule) (text : Text) (a b i line : Nat) : Finding :=
  make rule (if i = 0 then rule.reason else rule.reason ++ continuedMark)
    (Text.trim ((Lines.of text).part a b line)) (Text.trim ((Lines.of text).textOf line))
    ((Lines.of text).locate (lineFragment (Lines.of text) a b line).1)

/-- The findings of a range are made from the lines that show something of it. -/
theorem ofText_eq_shown (rule : Rule) (hab : a < b) :
    ofText rule a b (Lines.of text) =
      ((Lines.of text).shownLines a b).mapIdx fun i line => ofLine rule text a b i line := by
  have hshown : ∀ lines : List Nat, (lines.filterMap fun line =>
      if (lineFragment (Lines.of text) a b line).2.isEmpty then none
      else some (line, lineFragment (Lines.of text) a b line)) =
        (lines.filter ((Lines.of text).shows a b)).map fun line =>
          (line, lineFragment (Lines.of text) a b line) := by
    intro lines
    rw [← List.filterMap_eq_map, List.filterMap_filter]
    apply List.filterMap_congr
    intro line _
    have hiff : (Lines.of text).shows a b line = true ↔
        (lineFragment (Lines.of text) a b line).2 ≠ [] := by
      rw [lineFragment_eq_part]
      exact Text.any_iff_trim
    by_cases hne : (lineFragment (Lines.of text) a b line).2 = []
    · simp_all
    · simp_all
  rw [← filter_touchedLines hab]
  change List.mapIdx _ ((touchedLines (Lines.of text) a b).filterMap fun line =>
    if (lineFragment (Lines.of text) a b line).2.isEmpty then none
    else some (line, lineFragment (Lines.of text) a b line)) = _
  rw [hshown]
  apply List.ext_getElem?
  intro i
  rw [List.getElem?_mapIdx, List.getElem?_mapIdx, List.getElem?_map, Option.map_map]
  apply congrArg (Option.map · _)
  funext line
  simp only [Function.comp_apply, ofLine, lineFragment_eq_part]

/-- What the findings of a range say, taken together: they show all that is visible of the range, on its
lines and in order, and nothing else. -/
structure Lossless (rule : Rule) (text : Text) (a b : Nat) : Prop where
  /-- There is one finding for each line that shows something of the range, and no other. -/
  lines : (ofText rule a b (Lines.of text)).map Finding.line =
    ((Lines.of text).shownLines a b).map Int.ofNat
  increasing : (ofText rule a b (Lines.of text)).Pairwise fun f g => f.line < g.line
  /-- A finding shows the part of the range on its line, trimmed. -/
  literals : (ofText rule a b (Lines.of text)).map Finding.literal =
    ((Lines.of text).shownLines a b).map fun line => Text.trim ((Lines.of text).part a b line)
  /-- The literal of a finding stands at its position, in the range. -/
  placed : ∀ f ∈ ofText rule a b (Lines.of text), f.Placed text ∧
    a ≤ f.offset text ∧ f.offset text + f.literal.length ≤ b
  ink : Text.ink ((ofText rule a b (Lines.of text)).flatMap Finding.literal) =
    Text.ink (Text.slice text a b)
  reasons : ∀ i f, (ofText rule a b (Lines.of text))[i]? = some f →
    f.reason = if i = 0 then rule.reason else rule.reason ++ " (continued)".toList
  /-- A range that begins with something visible is shown from its beginning on. -/
  first : ∀ c, text[a]? = some c → Text.isSpace c = false →
    ∃ f, (ofText rule a b (Lines.of text)).head? = some f ∧ f.offset text = a

theorem map_ofText {α : Type} (rule : Rule) (hab : a < b) (g : Finding → α) (h : Nat → α)
    (hg : ∀ i, ∀ line ∈ (Lines.of text).shownLines a b, g (ofLine rule text a b i line) = h line) :
    (ofText rule a b (Lines.of text)).map g = ((Lines.of text).shownLines a b).map h := by
  rw [ofText_eq_shown rule hab]
  apply List.ext_getElem?
  intro i
  rw [List.getElem?_map, List.getElem?_mapIdx, List.getElem?_map, Option.map_map]
  cases hline : ((Lines.of text).shownLines a b)[i]? with
  | none => rfl
  | some line => exact congrArg some (hg i line (List.mem_of_getElem? hline))

theorem mem_shownLines {line : Nat} (h : line ∈ (Lines.of text).shownLines a b) :
    1 ≤ line ∧ line ≤ (Lines.of text).count ∧ (lineFragment (Lines.of text) a b line).2 ≠ [] := by
  obtain ⟨hrange, hshows⟩ := List.mem_filter.mp h
  obtain ⟨h1, h2⟩ := List.mem_range'_1.mp hrange
  rw [lineFragment_eq_part]
  exact ⟨h1, by omega, Text.any_iff_trim.mp hshows⟩

/-- The first finding of a range that begins with something visible stands where the range begins. -/
theorem head?_ofText (rule : Rule) (hab : a < b) (hb : b ≤ text.length)
    (h : Text.isSpace text[a] = false) :
    ∃ f, (ofText rule a b (Lines.of text)).head? = some f ∧ f.offset text = a := by
  generalize hline : (Lines.of text).lineOf a = line
  have h1 : 1 ≤ line := hline ▸ Lines.one_le_lineOf text a
  have h2 : line ≤ (Lines.of text).count := hline ▸ Lines.lineOf_le_count text a
  have hstart : ((Lines.of text).spanOf line).start ≤ a := hline ▸ Lines.start_spanOf_lineOf_le text a
  have hslice : Text.slice text a (a + 1) = [text[a]] := by
    rw [Text.slice, List.drop_eq_getElem_cons (by omega), Nat.add_sub_cancel_left]
    rfl
  have hstop : a + 1 ≤ ((Lines.of text).spanOf line).stop := by
    refine hline ▸ Lines.le_stop_of_not_break text (Nat.lt_succ_self a) (by omega) ?_
    rw [hslice]
    intro c hc
    rw [List.mem_singleton.mp hc]
    constructor <;> intro heq <;> rw [heq] at h <;> exact absurd h (by decide)
  have hhead : ((Lines.of text).part a b line).head? = some text[a] := by
    have hle : a + 1 ≤ min b ((Lines.of text).spanOf line).stop := by omega
    obtain ⟨more, hmore⟩ := Text.slice_prefix_slice text a hle
    rw [Lines.part, Nat.max_eq_left hstart, show (Lines.of text).text = text from rfl, ← hmore, hslice]
    rfl
  have hshows : (Lines.of text).shows a b line = true :=
    List.any_eq_true.mpr ⟨text[a], List.mem_of_mem_head? hhead, by simp [h]⟩
  -- The line of the beginning is the first that is looked at.
  obtain ⟨more, hshown⟩ : ∃ more, (Lines.of text).shownLines a b = line :: more := by
    have hlast : max ((b : Int) - 1) a = (b - 1 : Nat) := by omega
    have hle := Lines.lineOf_mono text (show a ≤ b - 1 by omega)
    obtain ⟨n, hn⟩ : ∃ n, (Lines.of text).lineOf (b - 1 : Nat) + 1 - line = n + 1 :=
      ⟨(Lines.of text).lineOf (b - 1 : Nat) - line, by omega⟩
    rw [← filter_touchedLines hab, touchedLines]
    simp only [hlast, hline, hn]
    rw [List.range'_succ, List.filter_cons_of_pos hshows]
    exact ⟨_, rfl⟩
  refine ⟨ofLine rule text a b 0 line, ?_, ?_⟩
  · rw [ofText_eq_shown rule hab, hshown, List.mapIdx_cons]
    rfl
  · have htrim : Text.trimLeft ((Lines.of text).part a b line) = (Lines.of text).part a b line := by
      apply Text.trimLeft_of_head?
      intro c hc
      rw [hhead] at hc
      cases hc
      exact h
    rw [ofLine, lineFragment_eq_part, htrim, Nat.sub_self, Nat.add_zero, Nat.max_eq_left hstart]
    exact offset_make (by omega) ..

/-- The findings of every range of a source show what is visible of it, line by line, all of it and once. -/
theorem ofText_lossless (rule : Rule) (hab : a < b) (hb : b ≤ text.length) : Lossless rule text a b where
  lines := by
    apply map_ofText rule hab
    intro i line hline
    obtain ⟨h1, h2, hne⟩ := mem_shownLines hline
    obtain ⟨o, ho, -, -, -, hlocate⟩ := line_locate_lineFragment hb h1 h2 hne
    rw [ofLine, ho]
    exact congrArg Int.ofNat hlocate
  increasing := pairwise_line_ofText hb rule
  literals := map_ofText rule hab _ _ fun i line _ => rfl
  placed f hf := by
    obtain ⟨o, hstands, hlo, -, hhi⟩ := standsAt_of_mem_ofText hb hf
    rw [hstands.offset_eq]
    exact ⟨(placed_ofText hb hf).1, hlo, hhi⟩
  ink := by
    rw [List.flatMap_def, map_ofText rule hab _ (fun line => Text.trim ((Lines.of text).part a b line))
      fun i line _ => rfl, ← List.flatMap_def, Text.ink, List.filter_flatMap,
      ← Lines.flatMap_ink_shownLines (Nat.le_of_lt hab) hb]
    apply List.flatMap_congr
    intro line _
    exact Text.ink_trim _
  reasons i f hf := by
    rw [ofText_eq_shown rule hab, List.getElem?_mapIdx] at hf
    obtain ⟨line, -, rfl⟩ := Option.map_eq_some_iff.mp hf
    rfl
  first c hc hspace := by
    obtain ⟨hlt, rfl⟩ := List.getElem?_eq_some_iff.mp hc
    exact head?_ofText rule hab hb hspace

/-- A range that begins in the middle of a line break and ends in the space before the last word, so that the
last line is blank inside the range only. The separator in the second line ends no line. -/
theorem ofText_lossless_breaks :
    ∃ (text : Text) (rule : Rule), text = "a\r\n b\u2028c \rd\n  e".toList ∧ rule.reason = "r".toList ∧
      2 < 12 ∧ 12 ≤ text.length ∧ Lossless rule text 2 12 ∧
      (ofText rule (2 : Nat) (12 : Nat) (Lines.of text)).map (fun f => (f.line, f.literal, f.reason)) =
        [(2, "b\u2028c".toList, "r".toList), (3, "d".toList, "r (continued)".toList)] := by
  refine ⟨_, ⟨[], [], "r".toList⟩, rfl, rfl, by decide, by decide, ?_, by decide +kernel⟩
  exact ofText_lossless _ (by decide) (by decide)

end Finding

end Untranslated
