import Untranslated.Proofs.Scan.Fidelity

/-!
# Narrower options only leave records out

With fewer attributes to check and more elements to ignore, a scan reports the same but for the
groups of the candidates that are no longer collected (`scan_narrowed`). Two facts carry this: what a
candidate reports does not depend on the other candidates asked for, and sorting is stable.
-/

namespace Untranslated

open Resolver (State)

namespace Scan

/-- Leaving out the groups of some candidates leaves out the records that they are told apart by. -/
theorem filter_recordsOf {label : Text} {rs : List (Candidate × List Finding)} (p : Candidate → Bool)
    (q : Record → Bool) (h : ∀ r ∈ rs, ∀ f ∈ r.2, q ⟨label, f⟩ = p r.1) :
    (recordsOf label rs).filter q = recordsOf label (rs.filter fun r => p r.1) := by
  induction rs with
  | nil => rfl
  | cons r rs ih =>
    obtain ⟨hr, hrs⟩ := List.forall_mem_cons.mp h
    have hgroup : ∀ x ∈ r.2.map fun f => (⟨label, f⟩ : Record), q x = p r.1 := by
      intro x hx
      obtain ⟨f, hf, rfl⟩ := List.mem_map.mp hx
      exact hr f hf
    have hcons : ∀ rs, recordsOf label (r :: rs) =
        (r.2.map fun f => (⟨label, f⟩ : Record)) ++ recordsOf label rs := fun _ => List.flatMap_cons
    rw [hcons, List.filter_append, ih hrs]
    by_cases hp : p r.1 = true
    · rw [List.filter_cons, if_pos hp, hcons,
        List.filter_eq_self.mpr fun x hx => (hgroup x hx).trans hp]
    · rw [List.filter_cons, if_neg hp, List.filter_eq_nil_iff.mpr fun x hx => by rwa [hgroup x hx],
        List.nil_append]

/-- The records of a scan with narrower options, from the groups found with wider ones. -/
theorem scan_filter {text : Text} (label : Text) {delimiters : Option Delimiters} {d : Document}
    {attributes attributes' ignored ignored' : List Text} {rs : List (Candidate × List Finding)}
    (hattributes : ∀ a ∈ attributes, Text.lower a ∈ attributes'.map Text.lower)
    (hignored : ∀ t ∈ ignored', Text.lower t ∈ ignored.map Text.lower)
    (hparse : Document.parse [] text = .ok d)
    (hreports : reports (source text delimiters) (Lines.of text) d
      (d.candidates ignored' attributes') = .ok rs) :
    (scan text label ⟨attributes, delimiters, ignored⟩).1 =
      .ok (recordsOf label
        ((sorted rs).filter fun r => decide (r.1 ∈ d.candidates ignored attributes))) := by
  have hfilter := reports_filter hreports fun c => decide (c ∈ d.candidates ignored attributes)
  rw [Document.filter_candidates d hattributes hignored] at hfilter
  rw [scan_eq, hparse]
  simp only
  rw [hfilter, filter_sorted fun r => decide (r.1 ∈ d.candidates ignored attributes)]

end Scan

/-- A scan depends on which attributes and elements are named, not on the order in which a list or set
names them. -/
theorem scan_congr (text label : Text) (delimiters : Option Delimiters)
    {attributes attributes' ignored ignored' : List Text}
    (hattributes : ∀ a, a ∈ attributes ↔ a ∈ attributes') (hignored : ∀ t, t ∈ ignored ↔ t ∈ ignored') :
    scan text label ⟨attributes, delimiters, ignored⟩ =
      scan text label ⟨attributes', delimiters, ignored'⟩ := by
  unfold scan
  simp only [Document.candidates_congr _ hattributes hignored]

/-- If a scan returns, then so does every scan of the same text that checks no more attributes and
ignores no fewer elements, letter case aside. It reports the groups of the first scan, in their order,
without those of the candidates that it does not collect. A scan without attributes reports exactly
the texts. -/
theorem scan_narrowed {text label : Text} {delimiters : Option Delimiters}
    {attributes attributes' ignored ignored' : List Text} {records : List Record}
    (hattributes : ∀ a ∈ attributes, Text.lower a ∈ attributes'.map Text.lower)
    (hignored : ∀ t ∈ ignored', Text.lower t ∈ ignored.map Text.lower)
    (h : (scan text label ⟨attributes', delimiters, ignored'⟩).1 = .ok records) :
    (∃ d rs, Document.parse [] text = .ok d ∧
      (Scan.labelled (Scan.source text delimiters) (Lines.of text)
        (d.candidates ignored' attributes')
        (State.start (Scan.source text delimiters) d)).1 = .ok rs ∧
      records = Scan.recordsOf label (Scan.sorted rs) ∧
      (scan text label ⟨attributes, delimiters, ignored⟩).1 =
        .ok (Scan.recordsOf label
          ((Scan.sorted rs).filter fun r => decide (r.1 ∈ d.candidates ignored attributes)))) ∧
    (scan text label ⟨[], delimiters, ignored'⟩).1 =
      .ok (records.filter fun r => r.finding.code == "W001".toList) := by
  obtain ⟨d, rs, hparse, hreports, rfl⟩ := Scan.scan_ok h
  refine ⟨⟨d, rs, hparse, ?_, rfl, Scan.scan_filter label hattributes hignored hparse hreports⟩, ?_⟩
  · rw [Scan.labelled_candidates, hreports]
  · have hsame : ∀ t ∈ ignored', Text.lower t ∈ ignored'.map Text.lower :=
      fun t => List.mem_map_of_mem
    rw [Scan.scan_filter label (by simp) hsame hparse hreports]
    congr 1
    refine (Scan.filter_recordsOf (fun c => decide (c ∈ d.candidates ignored' [])) _
      fun r hr f hf => ?_).symm
    obtain ⟨hc, hreport⟩ := Scan.mem_reports hreports (Scan.mem_sorted.mp hr)
    have hcode : f.code = r.1.kind.code := (Scan.report_faithful hc hreport hf).code
    have hkind := Document.mem_candidates_nil hc
    rw [hcode, Bool.eq_iff_iff, decide_eq_true_eq, hkind, beq_iff_eq]
    cases r.1.kind <;> decide

/-- One attribute and one element fewer, named in other letter case. -/
theorem scan_narrowed_title :
    ∃ (text : Text) (records : List Record),
      text = "<p title='t' alt='u'>a</p><i>b</i>".toList ∧ records.length = 4 ∧
      (scan text [] ⟨["TITLE".toList, "alt".toList], none, []⟩).1 = .ok records ∧
      (∃ d rs, Document.parse [] text = .ok d ∧
        (Scan.labelled (Scan.source text none) (Lines.of text)
          (d.candidates [] ["TITLE".toList, "alt".toList])
          (State.start (Scan.source text none) d)).1 = .ok rs ∧
        records = Scan.recordsOf [] (Scan.sorted rs) ∧
        (scan text [] ⟨["title".toList], none, ["I".toList]⟩).1 =
          .ok (Scan.recordsOf [] ((Scan.sorted rs).filter fun r =>
            decide (r.1 ∈ d.candidates ["I".toList] ["title".toList])))) ∧
      (scan text [] ⟨[], none, []⟩).1 =
        .ok (records.filter fun r => r.finding.code == "W001".toList) := by
  have hscan : (scan "<p title='t' alt='u'>a</p><i>b</i>".toList []
      ⟨["TITLE".toList, "alt".toList], none, []⟩).1 =
      .ok (List.map (fun f => ⟨[], f⟩) (List.flatten
        [[⟨"(error)".toList, "W002".toList, "Hardcoded 'title' attribute".toList, "t".toList, 1, 11,
            "<p title='t' alt='u'>".toList⟩],
          [⟨"(error)".toList, "W002".toList, "Hardcoded 'alt' attribute".toList, "u".toList, 1, 19,
            "<p title='t' alt='u'>".toList⟩],
          [⟨"(error)".toList, "W001".toList, "Hardcoded <p> tag".toList, "a".toList, 1, 22,
            "<p title='t' alt='u'>a</p><i>b</i>".toList⟩],
          [⟨"(error)".toList, "W001".toList, "Hardcoded <i> tag".toList, "b".toList, 1, 30,
            "<p title='t' alt='u'>a</p><i>b</i>".toList⟩]])) :=
    Scan.scan_of_pairwise (by decide +kernel) (by decide)
  exact ⟨_, _, rfl, rfl, hscan, scan_narrowed (by decide) (by decide) hscan⟩

end Untranslated
