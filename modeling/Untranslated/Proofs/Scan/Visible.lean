import Untranslated.Proofs.Scan.Order

/-!
# Records show something

What is reported is meant to be visible. Evidence begins with no whitespace and with no reference that
shows nothing, and its first line shows this beginning, so the literal of a record decodes to something
visible (`scan_shows`), with two exceptions. An invisible character that is no whitespace, such as a
zero-width space, is taken for evidence; and a continuation line is trimmed of whitespace only, so that a
line which holds nothing but blank references is reported (`blank_line_reported`).
-/

namespace Untranslated

open Resolver (Source)

/-- The literal begins with a visible character. -/
def Finding.BeginsVisibly (f : Finding) : Prop := ∀ c ∈ f.literal.head?, Text.isInvisible c = false

/-- The reference that the literal begins with, if there is one, shows something. -/
def Finding.LeadShown (f : Finding) : Prop :=
  ∀ r ∈ WrittenReference.lead? f.literal, Text.isBlank (Reference.decode r) = false

instance (f : Finding) : Decidable f.BeginsVisibly :=
  decidable_of_iff ((f.literal.head?.all fun c => !Text.isInvisible c) = true) (by
    simp [Finding.BeginsVisibly, Option.all_eq_true])

instance (f : Finding) : Decidable f.LeadShown :=
  decidable_of_iff
    (((WrittenReference.lead? f.literal).all fun r => !Text.isBlank (Reference.decode r)) = true) (by
    simp [Finding.LeadShown, Option.all_eq_true])

namespace Scan

variable {src : Source} {d : Document}

/-- The first finding of evidence does not begin with a reference that shows nothing. -/
theorem leadShown_of_first {rule : Rule} {mask : Mask} {text : Text} {a b : Nat} {s : Span}
    (hb : b ≤ text.length) (hrange : Evidence.range? text mask s.start s.stop = .ok (some ⟨a, b⟩))
    {f : Finding} (h : (Finding.ofText rule a b (Lines.of text))[0]? = some f) :
    f.LeadShown := by
  obtain ⟨hlt, -⟩ := Evidence.range?_inside hrange
  obtain ⟨hhead, hlead⟩ := Evidence.range?_lead hrange
  have hkeeps : WrittenReference.Keeps (Text.slice text a b) f.literal := by
    rw [Finding.literal_first hhead hlt hb h]
    refine ⟨Finding.lineFragment_prefix_slice hhead, fun r hr => ?_⟩
    obtain ⟨body, semicolon, after, rfl, hslice, hleading⟩ := WrittenReference.lead?_eq_some.mp hr
    refine Finding.prefix_lineFragment hhead hb (List.forall_mem_cons.mpr ⟨by decide, fun c hc => ?_⟩)
      ⟨after, hslice.symm⟩
    exact WrittenReference.isSpace_of_isBodyChar (hleading.isBodyChar c hc)
  intro r hr
  rw [hkeeps.lead?_eq] at hr
  exact hlead r hr

/-- What a candidate reports begins with no reference that shows nothing, unless it is on a continuation
line. -/
theorem report_leadShown {c : Candidate} {group : List Finding}
    (h : report src (Lines.of src.text) d c = .ok group) {f : Finding} (hf : f ∈ group)
    (hfirst : f.isContinuation = false) : f.LeadShown := by
  obtain ⟨rule, e, s, hrule, rfl, hstop, hrange⟩ := report_range h (List.ne_nil_of_mem hf)
  match hkind : c.kind with
  | .text =>
    rw [hkind] at hf
    obtain ⟨i, hi⟩ := List.getElem?_of_mem hf
    obtain rfl : i = 0 := by
      obtain rfl := Candidate.classify_eq hrule
      refine Decidable.byContradiction fun hne => ?_
      rw [(Finding.isContinuation_ofText c.reason_not_continued hi).mpr hne] at hfirst
      cases hfirst
    exact leadShown_of_first hstop hrange hi
  | .attribute =>
    rw [hkind] at hf
    rw [List.mem_singleton.mp hf]
    obtain ⟨-, hlead⟩ := Evidence.range?_lead hrange
    intro r hr
    rw [← Text.sliceAt_natCast] at hlead
    exact hlead r hr

end Scan

/-- In a scan that returns, the literal of a record decodes to something visible, if it begins with a
visible character and, on a continuation line, with no reference that shows nothing. -/
theorem scan_shows {text label : Text} {options : Options} {records : List Record}
    (h : (scan text label options).1 = .ok records) {r : Record} (hr : r ∈ records)
    (hvisible : r.finding.BeginsVisibly)
    (hcontinued : r.finding.isContinuation = true → r.finding.LeadShown) :
    Text.isBlank (Reference.decode r.finding.literal) = false := by
  obtain ⟨d, rs, hparse, hreports, rfl⟩ := Scan.scan_ok h
  obtain ⟨⟨c, group⟩, hmem, hr⟩ := List.mem_flatMap.mp hr
  obtain ⟨f, hf, rfl⟩ := List.mem_map.mp hr
  obtain ⟨hc, hreport⟩ := Scan.mem_reports hreports (Scan.mem_sorted.mp hmem)
  have hlead : f.LeadShown := by
    cases hfirst : f.isContinuation with
    | true => exact hcontinued hfirst
    | false => exact Scan.report_leadShown hreport hf hfirst
  have hne := (Scan.report_faithful hc hreport hf).placed.literal_ne_nil
  obtain ⟨x, rest, hliteral⟩ := List.exists_cons_of_ne_nil hne
  have hhead : f.literal.head? = some x := by rw [hliteral]; rfl
  exact Reference.decode_shows hhead (hvisible x hhead) hlead

/-- A literal that begins with a reference, one behind a blank reference, and a continuation line. -/
theorem scan_shows_reference :
    ∃ (text : Text) (records : List Record),
      text = "<p title='&nbsp;&lt;b'>&nbsp;&amp;\n&lt;a</p>".toList ∧
      (scan text [] ⟨["title".toList], none, []⟩).1 = .ok records ∧
      records.map (fun r => (r.finding.literal, r.finding.isContinuation)) =
        [("&lt;b".toList, false), ("&amp;".toList, false), ("&lt;a".toList, true)] ∧
      ∀ r ∈ records, Text.isBlank (Reference.decode r.finding.literal) = false := by
  let groups : List (List Finding) :=
    [[⟨"(error)".toList, "W002".toList, "Hardcoded 'title' attribute".toList, "&lt;b".toList, 1, 17,
        "<p title='&nbsp;&lt;b'>".toList⟩],
      [⟨"(error)".toList, "W001".toList, "Hardcoded <p> tag".toList, "&amp;".toList, 1, 30,
        "<p title='&nbsp;&lt;b'>&nbsp;&amp;".toList⟩,
      ⟨"(error)".toList, "W001".toList, "Hardcoded <p> tag (continued)".toList, "&lt;a".toList, 2, 1,
        "&lt;a</p>".toList⟩]]
  have hscan : (scan "<p title='&nbsp;&lt;b'>&nbsp;&amp;\n&lt;a</p>".toList []
      ⟨["title".toList], none, []⟩).1 = .ok (groups.flatten.map fun f => ⟨[], f⟩) :=
    Scan.scan_of_pairwise (by decide +kernel) (by decide)
  have hbegins : ∀ f ∈ groups.flatten, f.BeginsVisibly ∧ f.LeadShown := by decide +kernel
  refine ⟨_, _, rfl, hscan, rfl, fun r hr => ?_⟩
  obtain ⟨f, hf, rfl⟩ := List.mem_map.mp hr
  exact scan_shows hscan hr (hbegins f hf).1 fun _ => (hbegins f hf).2

/-- A line that holds nothing but a blank reference is reported. -/
theorem blank_line_reported :
    ∃ (text : Text) (records : List Record) (r : Record),
      text = "<p>a\n&nbsp;\nb</p>".toList ∧ (scan text [] ⟨[], none, []⟩).1 = .ok records ∧
      r ∈ records ∧ r.finding.line = 2 ∧
      Text.isBlank (Reference.decode r.finding.literal) = true := by
  have hscan : (scan "<p>a\n&nbsp;\nb</p>".toList [] ⟨[], none, []⟩).1 =
      .ok (List.map (fun f => ⟨[], f⟩) (List.flatten
        [[⟨"(error)".toList, "W001".toList, "Hardcoded <p> tag".toList, "a".toList, 1, 4, "<p>a".toList⟩,
          ⟨"(error)".toList, "W001".toList, "Hardcoded <p> tag (continued)".toList, "&nbsp;".toList, 2, 1,
            "&nbsp;".toList⟩,
          ⟨"(error)".toList, "W001".toList, "Hardcoded <p> tag (continued)".toList, "b".toList, 3, 1,
            "b</p>".toList⟩]])) :=
    Scan.scan_of_pairwise (by decide +kernel) (by decide)
  exact ⟨_, _, _, rfl, hscan, List.mem_cons_of_mem _ List.mem_cons_self, rfl, by decide +kernel⟩

end Untranslated
