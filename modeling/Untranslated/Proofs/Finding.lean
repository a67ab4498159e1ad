import Untranslated.Finding
import Untranslated.Proofs.Source.Lines
import Mathlib.Data.List.Forall2

/-!
# Findings show the source

A finding quotes the source at its position. `Finding.Placed` says that the literal is what stands
there, `Finding.OnLine` what holds besides for a text and `Finding.InTag` for an attribute value.

* `placed_ofText`: the findings of a text range are placed and each stays on its line.
* `placed_ofAttribute`: the finding of an attribute value is placed and lies in its opening tag.
* `pairwise_line_ofText`: the findings of a text range stand on different lines, in order, and all but
  the first are marked as continuations (`isContinuation_ofText`).
-/

namespace Untranslated.Finding

variable {text : Text}

/-- The offset of the position of a finding. -/
def offset (text : Text) (f : Finding) : Nat :=
  ((Lines.of text).spanOf f.line.toNat).start + f.character.toNat - 1

/-- The literal of a finding is not empty and stands at its position. -/
structure Placed (text : Text) (f : Finding) : Prop where
  line_pos : 1 ≤ f.line
  line_le : f.line ≤ (Lines.of text).count
  character_pos : 1 ≤ f.character
  literal_ne_nil : f.literal ≠ []
  literal_eq : Text.slice text (f.offset text) (f.offset text + f.literal.length) = f.literal

/-- The literal of a finding is a trimmed part of its line, and the scope is that line. -/
structure OnLine (text : Text) (f : Finding) : Prop where
  no_break : ∀ c ∈ f.literal, c ≠ '\r' ∧ c ≠ '\n'
  trimmed : Text.Trimmed f.literal
  start_le : ((Lines.of text).spanOf f.line.toNat).start ≤ f.offset text
  le_stop : f.offset text + f.literal.length ≤ ((Lines.of text).spanOf f.line.toNat).stop
  scope_eq : f.scope = Text.trim ((Lines.of text).textOf f.line.toNat)
  literal_infix : f.literal <:+: f.scope

/-- The scope of a finding is a part of the source that begins with `<` and the name, letter case
aside, and encloses the literal. -/
def InTag (text name : Text) (f : Finding) : Prop :=
  ∃ a b, f.scope = Text.slice text a b ∧ a ≤ f.offset text ∧
    f.offset text + f.literal.length ≤ b ∧ b ≤ text.length ∧
    ∃ written rest, f.scope = '<' :: written ++ rest ∧
      List.Forall₂ (fun x y => Text.sameLetter x y = true) name written

/-- A finding made at an offset is at that offset. -/
theorem offset_make {o : Nat} (ho : o ≤ text.length) (rule : Rule) (reason literal scope : Text) :
    (make rule reason literal scope ((Lines.of text).locate o)).offset text = o := by
  simpa [offset, make] using Lines.start_add_character text ho

theorem placed_make {o : Nat} (rule : Rule) (reason : Text) {literal : Text} (scope : Text)
    (hne : literal ≠ []) (hle : o ≤ text.length)
    (heq : Text.slice text o (o + literal.length) = literal) :
    (make rule reason literal scope ((Lines.of text).locate o)).Placed text where
  line_pos := by
    have := Lines.one_le_lineOf text o
    simp only [make, Lines.line_locate text hle]
    omega
  line_le := by
    have := Lines.lineOf_le_count text o
    simp only [make, Lines.line_locate text hle]
    omega
  character_pos := by
    simp only [make, Lines.locate]
    omega
  literal_ne_nil := hne
  literal_eq := by
    rw [offset_make hle]
    exact heq

/-- The finding stands at an offset of the text. -/
structure StandsAt (text : Text) (o : Nat) (f : Finding) : Prop where
  le_length : o ≤ text.length
  line : f.line = ((Lines.of text).locate o).line
  character : f.character = ((Lines.of text).locate o).character

/-- A finding that stands earlier has an earlier position. -/
theorem StandsAt.lt {o o' : Nat} {f g : Finding} (hf : f.StandsAt text o) (hg : g.StandsAt text o')
    (h : o < o') : f.le g = true ∧ g.le f = false := by
  have hlt := Lines.locate_lt text h hg.le_length
  have := hf.line
  have := hg.line
  have := hf.character
  have := hg.character
  simp only [le, Bool.or_eq_true, Bool.and_eq_true, decide_eq_true_eq, beq_iff_eq, Bool.or_eq_false_iff,
    Bool.and_eq_false_imp, decide_eq_false_iff_not]
  omega

theorem StandsAt.offset_eq {o : Nat} {f : Finding} (h : f.StandsAt text o) : f.offset text = o := by
  rw [offset, h.line, h.character]
  exact Lines.start_add_character text h.le_length

theorem standsAt_make {o : Nat} (ho : o ≤ text.length) (rule : Rule) (reason literal scope : Text) :
    (make rule reason literal scope ((Lines.of text).locate o)).StandsAt text o := ⟨ho, rfl, rfl⟩

/-! ## Texts -/

/-- The part of a range on a line, as an offset and a text. -/
theorem lineFragment_eq (text : Text) (a b line : Nat) :
    ∃ o, (lineFragment (Lines.of text) a b line).1 = (o : Nat) ∧
      max a ((Lines.of text).spanOf line).start ≤ o ∧
      ((lineFragment (Lines.of text) a b line).2 ≠ [] →
        o + (lineFragment (Lines.of text) a b line).2.length ≤
          min b ((Lines.of text).spanOf line).stop) ∧
      Text.slice text o (o + (lineFragment (Lines.of text) a b line).2.length) =
        (lineFragment (Lines.of text) a b line).2 ∧
      Text.Trimmed (lineFragment (Lines.of text) a b line).2 := by
  generalize hwhole : (Lines.of text).spanOf line = whole
  generalize hfirst : max a whole.start = first
  generalize hlast : min b whole.stop = last
  have hfirst' : max (a : Int) (whole.start : Int) = (first : Nat) := by omega
  have hlast' : min (b : Int) (whole.stop : Int) = (last : Nat) := by omega
  simp only [lineFragment, hwhole, hfirst', hlast']
  rw [show (Lines.of text).text = text from rfl, Text.sliceAt_natCast]
  generalize hfragment : Text.slice text first last = fragment
  have hlength := Text.length_slice text first last
  rw [hfragment] at hlength
  have hleft := Text.length_trimLeft_le fragment
  have htrim := Text.length_trim_le fragment
  refine ⟨first + (fragment.length - (Text.trimLeft fragment).length), by omega, by omega, ?_, ?_,
    Text.trimmed_trim fragment⟩
  · intro hne
    have := List.length_pos_iff.mpr hne
    omega
  · by_cases hne : Text.trim fragment = []
    · rw [hne]
      simp [Text.slice]
    · have := List.length_pos_iff.mpr hne
      rw [Nat.add_assoc, ← Text.slice_slice text first last _ _ (by omega), hfragment,
        ← Text.trim_eq_slice]

/-- The lines that a range touches exist. -/
theorem mem_touchedLines {start stop : Int} {line : Nat}
    (h : line ∈ touchedLines (Lines.of text) start stop) :
    1 ≤ line ∧ line ≤ (Lines.of text).count := by
  obtain ⟨hle, hlt⟩ := List.mem_range'_1.mp h
  have := Lines.one_le_lineOf text start
  have := Lines.lineOf_le_count text (max (stop - 1) start)
  have := Lines.lineOf_le_count text start
  omega

/-- Each finding of a range is made from the fragment of one line that exists. -/
theorem mem_ofText {rule : Rule} {start stop : Int} {f : Finding}
    (h : f ∈ ofText rule start stop (Lines.of text)) :
    ∃ line reason, 1 ≤ line ∧ line ≤ (Lines.of text).count ∧
      (lineFragment (Lines.of text) start stop line).2 ≠ [] ∧
      f = make rule reason (lineFragment (Lines.of text) start stop line).2
        (Text.trim ((Lines.of text).textOf line))
        ((Lines.of text).locate (lineFragment (Lines.of text) start stop line).1) := by
  unfold ofText at h
  obtain ⟨i, hi, rfl⟩ := List.mem_mapIdx.mp h
  have hmem := List.getElem_mem hi
  obtain ⟨line, hline, hshown⟩ := List.mem_filterMap.mp hmem
  generalize hfragment : lineFragment (Lines.of text) start stop line = fragment at hshown
  obtain ⟨first, literal⟩ := fragment
  simp only at hshown
  split at hshown
  · cases hshown
  · rename_i hne
    obtain ⟨hpos, hcount⟩ := mem_touchedLines hline
    refine ⟨line, if i = 0 then rule.reason else rule.reason ++ continuedMark, hpos, hcount, ?_, ?_⟩
    · simpa [hfragment] using hne
    · rw [← Option.some.inj hshown, hfragment]

/-- The findings of a range of the source are placed and each stays on its line. -/
theorem placed_ofText {a b : Nat} (hb : b ≤ text.length) {rule : Rule} {f : Finding}
    (h : f ∈ ofText rule a b (Lines.of text)) :
    f.Placed text ∧ f.OnLine text ∧ f.code = rule.code := by
  obtain ⟨line, reason, hpos, hcount, hne, rfl⟩ := mem_ofText h
  obtain ⟨o, ho, hlo, hhi, hslice, htrimmed⟩ := lineFragment_eq text a b line
  rw [ho]
  generalize (lineFragment (Lines.of text) a b line).2 = literal at *
  have hhi := hhi hne
  have hle : o ≤ text.length := by omega
  have hline : ((Lines.of text).locate o).line = line := by
    rw [Lines.line_locate text hle]
    exact Lines.lineOf_eq text hpos hcount (by omega) (by omega)
  have hwithin : literal <:+: (Lines.of text).textOf line := by
    have hpart := Text.slice_infix_slice text (a := ((Lines.of text).spanOf line).start) (b := o)
      (c := o + literal.length) (d := ((Lines.of text).spanOf line).stop) (by omega) (by omega)
    rwa [hslice] at hpart
  refine ⟨placed_make rule reason _ hne hle hslice, ?_, rfl⟩
  exact {
    no_break := fun c hc => Lines.not_break_of_mem_textOf text hpos hcount c (hwithin.subset hc)
    trimmed := htrimmed
    start_le := by
      rw [offset_make hle]
      simp only [make, hline, Int.toNat_natCast]
      omega
    le_stop := by
      rw [offset_make hle]
      simp only [make, hline, Int.toNat_natCast]
      omega
    scope_eq := by simp only [make, hline, Int.toNat_natCast]
    literal_infix := htrimmed.infix_trim hne hwithin }

/-- What a line shows of a range begins on that line and lies inside the range. -/
theorem line_locate_lineFragment {a b line : Nat} (hb : b ≤ text.length) (hpos : 1 ≤ line)
    (hcount : line ≤ (Lines.of text).count)
    (hne : (lineFragment (Lines.of text) a b line).2 ≠ []) :
    ∃ o, (lineFragment (Lines.of text) a b line).1 = (o : Nat) ∧ a ≤ o ∧ o < b ∧
      o + (lineFragment (Lines.of text) a b line).2.length ≤ b ∧
      ((Lines.of text).locate o).line = line := by
  obtain ⟨o, ho, hlo, hhi, -, -⟩ := lineFragment_eq text a b line
  have hhi := hhi hne
  have hlength := List.length_pos_iff.mpr hne
  refine ⟨o, ho, by omega, by omega, by omega, ?_⟩
  rw [Lines.line_locate text (by omega)]
  exact Lines.lineOf_eq text hpos hcount (by omega) (by omega)

theorem standsAt_of_mem_ofText {a b : Nat} (hb : b ≤ text.length) {rule : Rule} {f : Finding}
    (h : f ∈ ofText rule a b (Lines.of text)) :
    ∃ o, f.StandsAt text o ∧ a ≤ o ∧ o < b ∧ o + f.literal.length ≤ b := by
  obtain ⟨line, reason, hpos, hcount, hne, rfl⟩ := mem_ofText h
  obtain ⟨o, ho, hle, hlt, hstop, -⟩ := line_locate_lineFragment hb hpos hcount hne
  rw [ho]
  exact ⟨o, standsAt_make (by omega) .., hle, hlt, hstop⟩

/-- The findings of a range stand on different lines, in order. -/
theorem pairwise_line_ofText {a b : Nat} (hb : b ≤ text.length) (rule : Rule) :
    (ofText rule a b (Lines.of text)).Pairwise fun f g => f.line < g.line := by
  change List.Pairwise _ (List.mapIdx _ ((touchedLines (Lines.of text) a b).filterMap fun line =>
    if (lineFragment (Lines.of text) a b line).2.isEmpty then none
    else some (line, lineFragment (Lines.of text) a b line)))
  generalize hshown : ((touchedLines (Lines.of text) a b).filterMap fun line =>
    if (lineFragment (Lines.of text) a b line).2.isEmpty then none
    else some (line, lineFragment (Lines.of text) a b line)) = shown
  have hlines : shown.Pairwise fun x y => x.1 < y.1 := by
    rw [← hshown]
    refine List.Pairwise.filterMap _ (fun line line' hlt x hx x' hx' => ?_) List.pairwise_lt_range'
    simp only [Option.ite_none_left_eq_some, Option.some.injEq] at hx hx'
    rw [← hx.2, ← hx'.2]
    exact hlt
  have hplaced : ∀ x ∈ shown, ((Lines.of text).locate x.2.1).line = x.1 := by
    intro x hx
    rw [← hshown] at hx
    obtain ⟨line, hline, hx⟩ := List.mem_filterMap.mp hx
    simp only [Option.ite_none_left_eq_some, Option.some.injEq, List.isEmpty_iff] at hx
    obtain ⟨hne, rfl⟩ := hx
    obtain ⟨hpos, hcount⟩ := mem_touchedLines hline
    obtain ⟨o, ho, -, -, -, hlocate⟩ := line_locate_lineFragment hb hpos hcount hne
    rw [ho, hlocate]
  refine List.pairwise_iff_getElem.mpr fun i j hi hj hij => ?_
  rw [List.length_mapIdx] at hi hj
  simp only [List.getElem_mapIdx, make, hplaced _ (List.getElem_mem hi),
    hplaced _ (List.getElem_mem hj), Int.ofNat_lt]
  exact List.pairwise_iff_getElem.mp hlines i j hi hj hij

/-- Of the findings of a range, all but the first are marked as continuations. -/
theorem isContinuation_ofText {rule : Rule} (hrule : continuedMark.isSuffixOf rule.reason = false)
    {start stop : Int} {lines : Lines} {i : Nat} {f : Finding}
    (h : (ofText rule start stop lines)[i]? = some f) : f.isContinuation = true ↔ i ≠ 0 := by
  unfold ofText at h
  rw [List.getElem?_mapIdx] at h
  obtain ⟨x, -, rfl⟩ := Option.map_eq_some_iff.mp h
  cases i with
  | zero => simp [isContinuation, make, hrule]
  | succ i =>
    have hmark : continuedMark.isSuffixOf (rule.reason ++ continuedMark) = true :=
      List.isSuffixOf_iff_suffix.mpr (List.suffix_append _ _)
    simp [isContinuation, make, hmark]

/-! ## First lines -/

section FirstLine

variable {a b : Nat} (hhead : ∀ c ∈ (Text.slice text a b).head?, Text.isSpace c = false)

include hhead

/-- Of a range that begins with no whitespace, the first line shows all up to its end, whitespace there
aside. -/
theorem lineFragment_first :
    (lineFragment (Lines.of text) a b ((Lines.of text).lineOf a)).2 = Text.trimRight (Text.slice text a
      (min b ((Lines.of text).spanOf ((Lines.of text).lineOf a)).stop)) := by
  have hstart := Lines.start_spanOf_lineOf_le text a
  generalize hwhole : (Lines.of text).spanOf ((Lines.of text).lineOf a) = whole at *
  have hfirst : max (a : Int) (whole.start : Int) = a := by omega
  have hlast : min (b : Int) (whole.stop : Int) = (min b whole.stop : Nat) := by omega
  simp only [lineFragment, hwhole, hfirst, hlast]
  rw [show (Lines.of text).text = text from rfl, Text.sliceAt_natCast]
  refine Text.trim_of_head? fun c hc => hhead c ?_
  obtain ⟨tail, htail⟩ := Text.slice_prefix_slice text a (Nat.min_le_left b whole.stop)
  rw [← htail, List.head?_append, hc]
  rfl

theorem lineFragment_prefix_slice :
    (lineFragment (Lines.of text) a b ((Lines.of text).lineOf a)).2 <+: Text.slice text a b := by
  rw [lineFragment_first hhead]
  exact (Text.trimRight_prefix_self _).trans (Text.slice_prefix_slice text a (Nat.min_le_left _ _))

/-- What is written without whitespace at the beginning of a range is shown by the first line. -/
theorem prefix_lineFragment (hb : b ≤ text.length) {run : Text}
    (hrun : ∀ c ∈ run, Text.isSpace c = false) (h : run <+: Text.slice text a b) :
    run <+: (lineFragment (Lines.of text) a b ((Lines.of text).lineOf a)).2 := by
  rw [lineFragment_first hhead]
  refine Text.prefix_trimRight hrun ?_
  by_cases hne : run = []
  · rw [hne]
    exact List.nil_prefix
  have hpos := List.length_pos_iff.mpr hne
  have hle := h.length_le
  rw [Text.length_slice_of_le hb] at hle
  have hslice : Text.slice text a (a + run.length) = run := by
    have htake := List.prefix_iff_eq_take.mp h
    rw [Text.slice, List.take_take, Nat.min_eq_left hle] at htake
    rw [Text.slice, Nat.add_sub_cancel_left]
    exact htake.symm
  have hstop : a + run.length ≤ ((Lines.of text).spanOf ((Lines.of text).lineOf a)).stop := by
    refine Lines.le_stop_of_not_break text (by omega) (by omega) fun c hc => ?_
    have hspace := hrun c (hslice ▸ hc)
    constructor <;> rintro rfl <;> exact absurd hspace (by decide)
  rw [← hslice]
  exact Text.slice_prefix_slice text a (Nat.le_min.mpr ⟨by omega, hstop⟩)

/-- The first finding of such a range shows its first line. -/
theorem literal_first (hab : a < b) (hb : b ≤ text.length) {rule : Rule} {f : Finding}
    (h : (ofText rule a b (Lines.of text))[0]? = some f) :
    f.literal = (lineFragment (Lines.of text) a b ((Lines.of text).lineOf a)).2 := by
  have hshown : (lineFragment (Lines.of text) a b ((Lines.of text).lineOf a)).2.isEmpty = false := by
    have hne : Text.slice text a b ≠ [] := List.length_pos_iff.mp (by
      rw [Text.length_slice_of_le hb]
      omega)
    obtain ⟨c, rest, hslice⟩ := List.exists_cons_of_ne_nil hne
    have hc : [c] <+: Text.slice text a b := ⟨rest, hslice.symm⟩
    have hspace : ∀ d ∈ [c], Text.isSpace d = false := fun d hd => by
      rw [List.mem_singleton.mp hd]
      exact hhead c (by rw [hslice]; rfl)
    obtain ⟨more, hmore⟩ := prefix_lineFragment hhead hb hspace hc
    rw [← hmore]
    rfl
  have hlines : ∃ n, touchedLines (Lines.of text) a b =
      List.range' ((Lines.of text).lineOf a) (n + 1) := by
    have hmono := Lines.lineOf_mono text (show a ≤ b - 1 by omega)
    have hlast : max ((b : Int) - 1) a = (b - 1 : Nat) := by omega
    unfold touchedLines
    simp only [hlast]
    exact ⟨(Lines.of text).lineOf (b - 1 : Nat) - (Lines.of text).lineOf a, by congr 1; omega⟩
  obtain ⟨n, hlines⟩ := hlines
  unfold ofText at h
  rw [hlines, List.range'_succ, List.filterMap_cons, List.getElem?_mapIdx] at h
  simp only [hshown] at h
  cases h
  rfl

end FirstLine

/-! ## Attributes -/

/-- The finding of an attribute value in an opening tag is placed, and the tag encloses it. -/
theorem placed_ofAttribute {a b start stop : Nat} {name : Text} (hstart : start ≤ a) (hab : a < b)
    (hstop : b ≤ stop) (hlength : stop ≤ text.length) (rule : Rule) {written rest : Text}
    (htag : Text.slice text start stop = '<' :: written ++ rest)
    (hname : List.Forall₂ (fun x y => Text.sameLetter x y = true) name written) :
    (ofAttribute rule a b (some (Text.slice text start stop)) (Lines.of text)).Placed text ∧
      (ofAttribute rule a b (some (Text.slice text start stop)) (Lines.of text)).InTag text name := by
  have hvalue : (Text.slice text a b).length = b - a := Text.length_slice_of_le (by omega)
  have hfinding : ofAttribute rule a b (some (Text.slice text start stop)) (Lines.of text) =
      make rule rule.reason (Text.slice text a b) (Text.slice text start stop)
        ((Lines.of text).locate a) := by
    simp only [ofAttribute, htag, List.cons_append]
    rw [show (Lines.of text).text = text from rfl, Text.sliceAt_natCast]
  rw [hfinding]
  refine ⟨placed_make rule _ _ (List.length_pos_iff.mp (by omega)) (by omega) ?_, start, stop, rfl, ?_⟩
  · rw [hvalue, Nat.add_sub_cancel' (Nat.le_of_lt hab)]
  · rw [offset_make (by omega)]
    refine ⟨hstart, ?_, hlength, written, rest, htag, hname⟩
    simp only [make, hvalue]
    omega

end Untranslated.Finding
