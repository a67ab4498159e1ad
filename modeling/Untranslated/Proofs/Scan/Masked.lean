import Untranslated.Proofs.Scan.Order

/-!
# Records leave template expressions out

No record of a scan reaches into a template expression (`scan_outside_expressions`). The evidence of a
candidate lies between the expressions of the source, wherever these begin and end, and the findings of
the evidence, one for each line, are parts of it.
-/

namespace Untranslated

open Resolver (Source)

namespace Scan

variable {src : Source} {d : Document}

/-- What a candidate reports stands in evidence, which meets no expression. -/
theorem report_apart (hspans : Mask.Ordered src.mask.spans) {c : Candidate} {group : List Finding}
    (h : report src (Lines.of src.text) d c = .ok group) :
    ∀ f ∈ group, ∀ s ∈ src.mask.spans,
      f.offset src.text + f.literal.length ≤ s.start ∨ s.stop ≤ f.offset src.text := by
  intro f hf s hs
  obtain ⟨rule, e, range, -, rfl, hstop, hrange⟩ := report_range h (List.ne_nil_of_mem hf)
  obtain ⟨hlt, -⟩ := Evidence.range?_inside hrange
  obtain ⟨o, hstands, hlo, -, hhi⟩ := findings_between c.kind rule hlt hstop f hf
  rw [hstands.offset_eq]
  rcases Evidence.range?_apart hspans hrange s hs with hapart | hapart
  · left
    simp only at hapart
    omega
  · right
    simp only at hapart
    omega

end Scan

/-- In a scan that returns, the literal of every record stands outside all template expressions of the
source. -/
theorem scan_outside_expressions {text label : Text} {options : Options} {records : List Record}
    (h : (scan text label options).1 = .ok records) :
    ∀ r ∈ records, r.finding.Placed text ∧ ∀ s ∈ (Mask.build text options.delimiters).spans,
      r.finding.offset text + r.finding.literal.length ≤ s.start ∨
        s.stop ≤ r.finding.offset text := by
  obtain ⟨d, rs, -, hreports, rfl⟩ := Scan.scan_ok h
  intro r hr
  obtain ⟨⟨c, group⟩, hmem, hr⟩ := List.mem_flatMap.mp hr
  obtain ⟨f, hf, rfl⟩ := List.mem_map.mp hr
  obtain ⟨hc, hreport⟩ := Scan.mem_reports hreports (Scan.mem_sorted.mp hmem)
  exact ⟨(Scan.report_faithful hc hreport hf).placed,
    Scan.report_apart (Mask.ordered_build text options.delimiters) hreport f hf⟩

/-- Expressions inside a value, before a text, across the end of an element, and inside a line of a
text. -/
theorem scan_outside_expressions_scattered :
    ∃ (text : Text) (options : Options) (records : List Record),
      text = "<p title=\"[[a]] b [[c\">]]</p><p>[[d]]e\n f[[g]]</p>".toList ∧
      (Mask.build text options.delimiters).spans = [⟨10, 15⟩, ⟨18, 25⟩, ⟨32, 37⟩, ⟨41, 46⟩] ∧
      (scan text [] options).1 = .ok records ∧
      records.map (fun r => (r.finding.offset text, r.finding.literal)) =
        [(16, "b".toList), (37, "e".toList), (40, "f".toList)] ∧
      ∀ r ∈ records, r.finding.Placed text ∧ ∀ s ∈ (Mask.build text options.delimiters).spans,
        r.finding.offset text + r.finding.literal.length ≤ s.start ∨
          s.stop ≤ r.finding.offset text := by
  have hscan : (scan "<p title=\"[[a]] b [[c\">]]</p><p>[[d]]e\n f[[g]]</p>".toList []
      ⟨["title".toList], some ⟨"[[".toList, "]]".toList⟩, []⟩).1 =
      .ok (List.map (fun f => ⟨[], f⟩) (List.flatten
        [[⟨"(error)".toList, "W002".toList, "Hardcoded 'title' attribute".toList, "b".toList, 1, 17,
            "<p title=\"[[a]] b [[c\">".toList⟩],
          [⟨"(error)".toList, "W001".toList, "Hardcoded <p> tag".toList, "e".toList, 1, 38,
            "<p title=\"[[a]] b [[c\">]]</p><p>[[d]]e".toList⟩,
          ⟨"(error)".toList, "W001".toList, "Hardcoded <p> tag (continued)".toList, "f".toList, 2, 2,
            "f[[g]]</p>".toList⟩]])) :=
    Scan.scan_of_pairwise (by decide +kernel) (by decide)
  exact ⟨_, ⟨["title".toList], some ⟨"[[".toList, "]]".toList⟩, []⟩, _, rfl, by decide +kernel, hscan, by decide,
    scan_outside_expressions hscan⟩

end Untranslated
