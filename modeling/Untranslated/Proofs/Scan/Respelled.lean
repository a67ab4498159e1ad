import Untranslated.Proofs.Finding
import Untranslated.Proofs.Scan.Reports
import Untranslated.Proofs.Source.Respelled

/-!
# Findings in respelled texts

The findings of a moved range say what the findings of the range say: they stand at the same positions and
break the same rules, and only the line breaks in what they quote are spelled as the text has them
(`Scan.findings_moved`). So they are sorted alike (`Scan.recordsOf_respelled`).
-/

namespace Untranslated

open Text (moved)

namespace Finding

/-- The findings say the same, the spelling of line breaks aside. -/
structure Respelled (f g : Finding) : Prop where
  id : g.id = f.id
  code : g.code = f.code
  reason : g.reason = f.reason
  line : g.line = f.line
  character : g.character = f.character
  literal : Text.Respelled f.literal g.literal
  scope : Text.Respelled f.scope g.scope

theorem Respelled.refl (f : Finding) : f.Respelled f := ⟨rfl, rfl, rfl, rfl, rfl, .refl _, .refl _⟩

theorem respelled_make {rule : Rule} {reason literal literal' scope scope' : Text} {p : Position}
    (hliteral : Text.Respelled literal literal') (hscope : Text.Respelled scope scope') :
    (make rule reason literal scope p).Respelled (make rule reason literal' scope' p) :=
  ⟨rfl, rfl, rfl, rfl, rfl, hliteral, hscope⟩

theorem Respelled.le_eq {f f' g g' : Finding} (hf : f.Respelled f') (hg : g.Respelled g') :
    f'.le g' = f.le g := by
  rw [le, le, hf.line, hg.line, hf.character, hg.character]

/-- What a line shows of a range: the literal, the scope and the position. -/
def shownOn (lines : Lines) (start stop : Int) (line : Nat) : Option (Text × Text × Position) :=
  let fragment := lineFragment lines start stop line
  if fragment.2.isEmpty then none
  else some (fragment.2, Text.trim (lines.textOf line), lines.locate fragment.1)

/-- The findings of a range, made from what its lines show. -/
theorem ofText_eq (rule : Rule) (start stop : Int) (lines : Lines) :
    ofText rule start stop lines =
      ((touchedLines lines start stop).filterMap (shownOn lines start stop)).mapIdx fun i x =>
        make rule (if i = 0 then rule.reason else rule.reason ++ continuedMark) x.1 x.2.1 x.2.2 := by
  have hshown : shownOn lines start stop = fun line =>
      (if (lineFragment lines start stop line).2.isEmpty then none
        else some (line, lineFragment lines start stop line)).map fun x =>
          (x.2.2, Text.trim (lines.textOf x.1), lines.locate x.2.1) := by
    funext line
    unfold shownOn
    split
    · simp_all
    · simp_all
  rw [hshown, ← List.map_filterMap, ofText]
  refine List.ext_getElem? fun i => ?_
  rw [List.getElem?_mapIdx, List.getElem?_mapIdx, List.getElem?_map, Option.map_map]
  rfl

section

variable {text text' : Text} (h : Text.Respelled text text') (hreturn : '\r' ∉ text) {a b : Nat}

include h hreturn

theorem touchedLines_moved (hab : a < b) (hb : b ≤ text.length) :
    touchedLines (Lines.of text') (moved text text' a) (moved text text' b) =
      touchedLines (Lines.of text) a b := by
  have hlt := h.moved_lt_moved hab (by omega)
  have hlast : max ((b : Int) - 1) a = (b : Int) - 1 := by omega
  have hlast' : max ((moved text text' b : Int) - 1) (moved text text' a) =
      (moved text text' b : Int) - 1 := by omega
  unfold touchedLines
  rw [hlast, hlast', Lines.lineOf_moved h hreturn, Lines.lineOf_moved_pred h hreturn hb]

/-- The part of a moved range on a line is the part that was there, moved. -/
theorem lineFragment_moved (ha : a ≤ text.length) {line : Nat} (h1 : 1 ≤ line)
    (h2 : line ≤ (Lines.of text).count) :
    ∃ o : Nat, (lineFragment (Lines.of text) a b line).1 = o ∧ o ≤ text.length ∧
      lineFragment (Lines.of text') (moved text text' a) (moved text text' b) line =
        ((moved text text' o : Int), (lineFragment (Lines.of text) a b line).2) := by
  have hinside := Lines.span_inside text (Lines.spanOf_mem text h1 h2)
  have hline := Lines.not_break_of_mem_textOf text h1 h2
  unfold Lines.textOf at hline
  simp only [lineFragment, Lines.spanOf_respelled h hreturn, Span.moved]
  generalize (Lines.of text).spanOf line = whole at *
  have hfirst : max (a : Int) (whole.start : Int) = (max a whole.start : Nat) := by omega
  have hlast : min (b : Int) (whole.stop : Int) = (min b whole.stop : Nat) := by omega
  have hfirst' : max (moved text text' a : Int) (moved text text' whole.start : Int) =
      (moved text text' (max a whole.start) : Nat) := by
    rw [h.moved_max]
    omega
  have hlast' : min (moved text text' b : Int) (moved text text' whole.stop : Int) =
      (moved text text' (min b whole.stop) : Nat) := by
    rw [h.moved_min]
    omega
  rw [hfirst, hlast, hfirst', hlast', show (Lines.of text).text = text from rfl,
    show (Lines.of text').text = text' from rfl, Text.sliceAt_natCast, Text.sliceAt_natCast]
  have hslice := h.slice (max a whole.start) (min b whole.stop)
  have hlength := Text.length_slice text (max a whole.start) (min b whole.stop)
  have hfeed : '\n' ∉ Text.slice text (max a whole.start) (min b whole.stop) := by
    intro hmem
    have hpart := Text.slice_infix_slice text (Nat.le_max_right a whole.start) (Nat.min_le_right b whole.stop)
    exact (hline _ (hpart.subset hmem)).2 rfl
  rw [hslice.eq_self hfeed]
  generalize hfragment : Text.slice text (max a whole.start) (min b whole.stop) = fragment at *
  generalize hn : fragment.length - (Text.trimLeft fragment).length = n
  have hstart : max a whole.start ≤ text.length :=
    Nat.max_le.mpr ⟨ha, Nat.le_trans hinside.start_le_stop hinside.stop_le⟩
  have hmoved : moved text text' (max a whole.start + n) = moved text text' (max a whole.start) + n := by
    refine h.moved_add_of_not_mem (by omega) fun hmem => hfeed ?_
    rw [← hfragment, Text.slice]
    exact (List.take_prefix_take_left (by omega)).subset hmem
  exact ⟨max a whole.start + n, by omega, by omega, by rw [hmoved]; simp⟩

theorem shownOn_moved (ha : a ≤ text.length) {line : Nat} (h1 : 1 ≤ line)
    (h2 : line ≤ (Lines.of text).count) :
    shownOn (Lines.of text') (moved text text' a) (moved text text' b) line =
      shownOn (Lines.of text) a b line := by
  obtain ⟨o, ho, hle, hfragment⟩ := lineFragment_moved h hreturn (b := b) ha h1 h2
  simp only [shownOn, hfragment, ho, Lines.textOf_respelled h hreturn h1 h2,
    Lines.locate_moved h hreturn hle]

/-- The findings of a moved range are those of the range. -/
theorem ofText_moved (hab : a < b) (hb : b ≤ text.length) (rule : Rule) :
    ofText rule (moved text text' a) (moved text text' b) (Lines.of text') =
      ofText rule a b (Lines.of text) := by
  rw [ofText_eq, ofText_eq, touchedLines_moved h hreturn hab hb]
  congr 1
  refine List.filterMap_congr fun line hline => ?_
  obtain ⟨h1, h2⟩ := mem_touchedLines hline
  exact shownOn_moved h hreturn (by omega) h1 h2

/-- The finding of a moved attribute value. -/
theorem ofAttribute_moved (ha : a ≤ text.length) {scope scope' : Option Text}
    (hscope : Option.Rel Text.Respelled scope scope') (rule : Rule) :
    (ofAttribute rule a b scope (Lines.of text)).Respelled
      (ofAttribute rule (moved text text' a) (moved text text' b) scope' (Lines.of text')) := by
  have hposition := Lines.locate_moved h hreturn ha
  have hliteral : Text.Respelled (Text.sliceAt text a b)
      (Text.sliceAt text' (moved text text' a) (moved text text' b)) := by
    rw [Text.sliceAt_natCast, Text.sliceAt_natCast]
    exact h.slice a b
  have hline : Text.Respelled (Text.trim ((Lines.of text).textOf ((Lines.of text).locate a).line))
      (Text.trim ((Lines.of text').textOf ((Lines.of text).locate a).line)) := by
    rw [Lines.line_locate text ha, Lines.textOf_respelled h hreturn (Lines.one_le_lineOf text a)
      (Lines.lineOf_le_count text a)]
    exact .refl _
  unfold ofAttribute
  rw [hposition]
  refine respelled_make hliteral ?_
  cases hscope with
  | none => exact hline
  | some hscope =>
    cases hscope with
    | nil => exact hline
    | cons c hscope => exact .cons c hscope
    | feed hscope => exact .feed hscope

end

end Finding

namespace Scan

/-- The findings of moved evidence say what the findings of the evidence say. -/
theorem findings_moved {text text' : Text} (h : Text.Respelled text text') (hreturn : '\r' ∉ text) {a b : Nat}
    (hab : a < b) (hb : b ≤ text.length) {scope scope' : Option Text}
    (hscope : Option.Rel Text.Respelled scope scope') (kind : CandidateKind) (rule : Rule) :
    List.Forall₂ Finding.Respelled (findings (Lines.of text) kind rule ⟨a, b, scope⟩)
      (findings (Lines.of text') kind rule ⟨moved text text' a, moved text text' b, scope'⟩) := by
  have ha : a ≤ text.length := by omega
  match kind with
  | .text =>
    simp only [findings]
    rw [Finding.ofText_moved h hreturn hab hb]
    exact List.forall₂_same.mpr fun f _ => .refl f
  | .attribute => exact .cons (Finding.ofAttribute_moved h hreturn ha hscope rule) .nil

/-- Candidates of which each two report the same make the same groups. -/
theorem reports_respelled {src src' : Resolver.Source} {lines lines' : Lines} {d d' : Document}
    {cs cs' : List Candidate}
    (h : List.Forall₂ (fun c c' => ∃ group group', report src lines d c = .ok group ∧
      report src' lines' d' c' = .ok group' ∧ List.Forall₂ Finding.Respelled group group') cs cs') :
    ∃ rs rs', reports src lines d cs = .ok rs ∧ reports src' lines' d' cs' = .ok rs' ∧
      List.Forall₂ (fun r r' => List.Forall₂ Finding.Respelled r.2 r'.2) rs rs' := by
  induction h with
  | nil => exact ⟨[], [], rfl, rfl, .nil⟩
  | cons hc _ ih =>
    obtain ⟨group, group', hgroup, hgroup', hsame⟩ := hc
    obtain ⟨rs, rs', hrs, hrs', hrest⟩ := ih
    rw [reports, reports, hgroup, hgroup', hrs, hrs']
    refine ⟨_, _, rfl, rfl, ?_⟩
    cases hsame with
    | nil => exact hrest
    | cons hf hfs => exact .cons (.cons hf hfs) hrest

/-- Order of groups hangs on their first findings alone. -/
theorem groupLe_respelled {a a' b b' : List Finding} (ha : List.Forall₂ Finding.Respelled a a')
    (hb : List.Forall₂ Finding.Respelled b b') : groupLe a' b' = groupLe a b := by
  cases ha with
  | nil => rfl
  | cons hf _ =>
    cases hb with
    | nil => rfl
    | cons hg _ => exact hf.le_eq hg

/-- Related items that are ordered alike are sorted alike. -/
theorem forall₂_mergeSort {α β : Type} {R : α → β → Prop} {le : α → α → Bool} {le' : β → β → Bool}
    (hle : ∀ a b a' b', R a a' → R b b' → le' a' b' = le a b) {l : List α} {l' : List β}
    (h : List.Forall₂ R l l') : List.Forall₂ R (l.mergeSort le) (l'.mergeSort le') := by
  obtain ⟨zs, rfl, rfl, hzs⟩ : ∃ zs : List (α × β), zs.map Prod.fst = l ∧ zs.map Prod.snd = l' ∧
      ∀ z ∈ zs, R z.1 z.2 := by
    induction h with
    | nil => exact ⟨[], rfl, rfl, by simp⟩
    | @cons a b _ _ hab _ ih =>
      obtain ⟨zs, rfl, rfl, hzs⟩ := ih
      exact ⟨(a, b) :: zs, rfl, rfl, List.forall_mem_cons.mpr ⟨hab, hzs⟩⟩
  have hfst := List.map_mergeSort (r := fun z z' => le z.1 z'.1) (s := le) (f := Prod.fst) (l := zs)
    fun _ _ _ _ => rfl
  have hsnd := List.map_mergeSort (r := fun z z' => le z.1 z'.1) (s := le') (f := Prod.snd) (l := zs)
    fun z hz z' hz' => (hle _ _ _ _ (hzs z hz) (hzs z' hz')).symm
  rw [← hfst, ← hsnd, List.forall₂_map_left_iff, List.forall₂_map_right_iff, List.forall₂_same]
  exact fun z hz => hzs z ((List.mergeSort_perm zs _).mem_iff.mp hz)

/-- Groups that say the same are reported in the same order. -/
theorem recordsOf_respelled {rs rs' : List (Candidate × List Finding)} (label : Text)
    (h : List.Forall₂ (fun r r' => List.Forall₂ Finding.Respelled r.2 r'.2) rs rs') :
    List.Forall₂ (fun r r' => r'.file = r.file ∧ r.finding.Respelled r'.finding)
      (recordsOf label (sorted rs)) (recordsOf label (sorted rs')) := by
  have hsorted : List.Forall₂ (fun r r' => List.Forall₂ Finding.Respelled r.2 r'.2) (sorted rs) (sorted rs') :=
    forall₂_mergeSort (fun a b a' b' ha hb => @groupLe_respelled a.2 a'.2 b.2 b'.2 ha hb) h
  generalize sorted rs = rs at *
  generalize sorted rs' = rs' at *
  induction hsorted with
  | nil => exact .nil
  | cons hr _ ih =>
    rw [recordsOf, recordsOf, List.flatMap_cons, List.flatMap_cons]
    refine List.rel_append ?_ ih
    rw [List.forall₂_map_left_iff, List.forall₂_map_right_iff]
    exact hr.imp fun _ _ hf => ⟨rfl, hf⟩

end Scan

end Untranslated
