import Untranslated.Proofs.Markup.Strings
import Untranslated.Proofs.Scan.Reports

/-!
# Scans of compact markup are exact

A scan of compact markup never fails, and it reports every string from the very range at which it was
written (`scan_renderAll`). The resolver gets there without knowing these ranges: texts repeat, values
look like tags and comments, and comments hold tags, but behind each node that it has located only a
gap stands before the next one (`Resolver.At`).
-/

namespace Untranslated

open Resolver (Source State)
open Markup

namespace Markup

/-- The strings of markup that a scan with the given options collects. -/
def strings (options : Options) (doc : List Markup) : List Written :=
  writtenAll (options.ignoredTags.map Text.lower) (options.attributes.map Text.lower) none 0 0 doc

/-- What the resolver works on in a scan of markup. -/
def source (options : Options) (doc : List Markup) : Source :=
  Scan.source (renderAll doc) options.delimiters

end Markup

namespace Resolver

variable {src : Source} {doc : List Markup} {options : Options} {w : Written}

/-- At the start, all tokens are still to come. -/
theorem at_start (h : WellFormedAll doc) (htext : src.text = renderAll doc) :
    At src (State.start src (treeAll false doc)) [] (tokensAll [] doc) where
  synced := Synced.start src _
  cursor_le := Nat.zero_le _
  rest := by
    rw [renderAll_tokensAll, Token.renderAll_nil, List.nil_append, ← htext]
    rfl
  gap := .nil
  sound := (each_of_wellFormedAll h).spaced

theorem listed_strings (h : WellFormedAll doc) :
    Token.Listed 0 (tokensAll [] doc) (Document.indexed (treeAll false doc)) := by
  rw [← nodeAll_eq_treeAll false h]
  exact Document.listed_nested (fun _ => Token.WellFormed.isLegible) (fun _ h => h.2)
    (each_of_wellFormedAll h)

theorem placed_strings (h : WellFormedAll doc) (htext : src.text = renderAll doc)
    (hw : w ∈ strings options doc) : w.Placed src.text (Token.places 0 0 (tokensAll [] doc)) :=
  placed_writtenAll _ _ none [] h (by rw [List.drop_zero, htext, List.append_nil]) w hw

/-- Alone, a string that is not empty is found where it is written. -/
theorem rawRange_strings (h : WellFormedAll doc) (htext : src.text = renderAll doc)
    (hw : w ∈ strings options doc) (hvalue : w.candidate.value ≠ []) :
    (rawRange src w.candidate (State.start src (treeAll false doc))).1 = .ok (w.span, w.scope) :=
  rawRange_placed (placed_strings h htext hw) hvalue fun _ _ _ hl =>
    advance_places (at_start h htext) (listed_strings h) hl

theorem range?_strings (h : WellFormedAll doc) (htext : src.text = renderAll doc)
    (hw : w ∈ strings options doc) :
    ∃ e, Evidence.range? src.text src.mask w.span.start w.span.stop = .ok e := by
  have hplaced := placed_strings h htext hw
  exact Evidence.range?_ok src.mask hplaced.stop_le
    (by rw [hplaced.slice]; exact Reference.overlong?_eq_none hplaced.plain)

/-- Alone, a string that is not empty is answered with the evidence in its range. -/
theorem resolve_strings (h : WellFormedAll doc) (htext : src.text = renderAll doc)
    (hw : w ∈ strings options doc) (hvalue : w.candidate.value ≠ []) {e : Option Span}
    (he : Evidence.range? src.text src.mask w.span.start w.span.stop = .ok e) :
    (resolve src w.candidate (State.start src (treeAll false doc))).1 =
      .ok (e.map fun e => ⟨e.start, e.stop, w.scope⟩) :=
  resolve_of_rawRange (rawRange_strings h htext hw hvalue) he

/-- The range that a string is found at is the one at which it is written, whichever strings were
asked for before. -/
theorem ranges_strings (h : WellFormedAll doc) (htext : src.text = renderAll doc)
    {asked : List Written} (hasked : asked.Sublist (strings options doc))
    (hvalue : ∀ w ∈ asked, w.candidate.value ≠ []) :
    ranges src (asked.map Written.candidate) (State.start src (treeAll false doc)) =
      asked.map fun w => .ok (w.span, w.scope) := by
  have hpairs : (asked.map Written.candidate).Pairwise fun c c' => c.node ≤ c'.node := by
    have := Document.pairwise_candidates (treeAll false doc) options.ignoredTags options.attributes
    rw [candidates_treeAll] at this
    exact this.sublist (hasked.map Written.candidate)
  have hok : ∀ c ∈ asked.map Written.candidate,
      ∃ r, (resolve src c (State.start src (treeAll false doc))).1 = .ok r := by
    intro c hc
    obtain ⟨w, hw, rfl⟩ := List.mem_map.mp hc
    obtain ⟨e, he⟩ := range?_strings h htext (hasked.subset hw)
    exact ⟨_, resolve_strings h htext (hasked.subset hw) (hvalue w hw) he⟩
  rw [(Reached.start src _).ranges (fun _ _ => Nat.zero_le _) hpairs hok, List.map_map]
  refine List.map_congr_left fun w hw => ?_
  exact rawRange_strings h htext (hasked.subset hw) (hvalue w hw)

end Resolver

namespace Scan

/-- What is reported for a string, judged by the range at which it is written. -/
def groupOf (src : Source) (lines : Lines) (w : Written) : List Finding :=
  match w.candidate.classify src.mask with
  | none => []
  | some rule =>
    match Evidence.range? src.text src.mask w.span.start w.span.stop with
    | .ok (some e) => findings lines w.candidate.kind rule ⟨e.start, e.stop, w.scope⟩
    | _ => []

/-- What is reported for strings, those left out that nothing is reported for. -/
def groupsOf (src : Source) (lines : Lines) (ws : List Written) : List (Candidate × List Finding) :=
  (ws.map fun w => (w.candidate, groupOf src lines w)).filter fun r => !r.2.isEmpty

variable {src : Source} {lines : Lines} {doc : List Markup} {options : Options}

theorem report_strings {w : Written} (h : WellFormedAll doc)
    (htext : src.text = renderAll doc) (hw : w ∈ strings options doc) :
    report src lines (treeAll false doc) w.candidate = .ok (groupOf src lines w) := by
  unfold report groupOf
  by_cases hvalue : w.candidate.value = []
  · rw [Candidate.classify_eq_none (by rw [hvalue]; rfl)]
  · obtain ⟨e, he⟩ := Resolver.range?_strings h htext hw
    rw [Resolver.resolve_strings h htext hw hvalue he, he]
    cases w.candidate.classify src.mask with
    | none => rfl
    | some rule =>
      cases e with
      | none => rfl
      | some e => rfl

theorem reports_strings (h : WellFormedAll doc) (htext : src.text = renderAll doc)
    {ws : List Written} (hws : ws ⊆ strings options doc) :
    reports src lines (treeAll false doc) (ws.map Written.candidate) =
      .ok (groupsOf src lines ws) := by
  induction ws with
  | nil => rfl
  | cons w ws ih =>
    obtain ⟨hw, hrest⟩ := List.cons_subset.mp hws
    rw [List.map_cons, reports, report_strings h htext hw, ih hrest, groupsOf, groupsOf, List.map_cons,
      List.filter_cons]
    cases groupOf src lines w <;> rfl

end Scan

/-- Scanning compact markup never fails. The candidates are the strings that were written, and the
range that the resolver takes for each of them, whichever others it is asked for before, is the range
at which it was written. An empty value breaks no rule, so a scan never asks for it. The records are
those that come of the ranges at which the strings were written. -/
theorem scan_renderAll {doc : List Markup} (h : WellFormedAll doc) (label : Text) (options : Options) :
    Document.parse [] (renderAll doc) = .ok (treeAll false doc) ∧
    Document.candidates (treeAll false doc) options.ignoredTags options.attributes =
      (strings options doc).map Written.candidate ∧
    (∀ w ∈ strings options doc,
      Text.slice (renderAll doc) w.span.start w.span.stop = w.candidate.value ∧
      (w.candidate.value = [] → w.candidate.classify (source options doc).mask = none) ∧
      ∃ e, Evidence.range? (renderAll doc) (source options doc).mask w.span.start w.span.stop =
        .ok e) ∧
    (∀ asked : List Written, asked.Sublist (strings options doc) →
      (∀ w ∈ asked, w.candidate.value ≠ []) →
      Resolver.ranges (source options doc) (asked.map Written.candidate)
          (State.start (source options doc) (treeAll false doc)) =
        asked.map fun w => .ok (w.span, w.scope)) ∧
    (scan (renderAll doc) label options).1 =
      .ok (Scan.recordsOf label (Scan.sorted
        (Scan.groupsOf (source options doc) (Lines.of (renderAll doc)) (strings options doc)))) := by
  have htext : (source options doc).text = renderAll doc := rfl
  have hparse := Document.parse_renderAll h
  have hcandidates := candidates_treeAll options.ignoredTags options.attributes doc
  refine ⟨hparse, hcandidates, fun w hw => ⟨?_, fun hvalue => ?_, ?_⟩, fun asked => ?_, ?_⟩
  · exact (Resolver.placed_strings h htext hw).slice
  · exact Candidate.classify_eq_none (by rw [hvalue]; rfl) _
  · exact Resolver.range?_strings h htext hw
  · exact Resolver.ranges_strings h htext
  · rw [Scan.scan_eq, hparse]
    simp only
    rw [hcandidates, ← strings, ← source, Scan.reports_strings h htext (List.Subset.refl _)]

/-- A value that begins a comment, and a text that is repeated behind a comment that holds it too. -/
theorem scan_renderAll_repeated :
    ∃ (doc : List Markup) (options : Options),
      renderAll doc = "<div title=\"<!-- <p>\"><p>a</p><!--<p>a--><p>a</p></div>".toList ∧
      (strings options doc).map Written.span = [⟨12, 20⟩, ⟨25, 26⟩, ⟨44, 45⟩] ∧
      Resolver.ranges (source options doc) ((strings options doc).map Written.candidate)
          (State.start (source options doc) (treeAll false doc)) =
        (strings options doc).map (fun w => .ok (w.span, w.scope)) ∧
      (scan (renderAll doc) [] options).1 =
        .ok (Scan.recordsOf [] (Scan.sorted
          (Scan.groupsOf (source options doc) (Lines.of (renderAll doc)) (strings options doc)))) := by
  have hdoc : WellFormedAll
      [.element "div".toList [("title".toList, "<!-- <p>".toList)]
        [.element "p".toList [] [.text "a".toList], .comment "<p>a".toList,
          .element "p".toList [] [.text "a".toList]]] := by decide
  obtain ⟨-, -, -, hranges, hscan⟩ := scan_renderAll hdoc [] ⟨["TITLE".toList], none, []⟩
  exact ⟨_, _, by decide, by decide, hranges _ (List.Sublist.refl _) (by decide), hscan⟩

end Untranslated
