import Untranslated.Proofs.Finding
import Untranslated.Proofs.Scan.Reports

/-!
# Records show the source

Every record of a scan quotes the source at its position (`scan_records_faithful`). The evidence of a
candidate lies in the place of its node, so it lies in the source and, for an attribute, in an opening
tag of the element; what the findings make of it is said in `Untranslated.Proofs.Finding`.
-/

namespace Untranslated

open Resolver (Source State Fits Trail)

variable {src : Source} {d : Document}

/-- The finding shows the source, and shows a text or an attribute value according to its code. -/
structure Finding.Faithful (text : Text) (c : Candidate) (f : Finding) : Prop where
  placed : f.Placed text
  code : f.code = c.kind.code
  onLine : f.code = "W001".toList → f.OnLine text
  inTag : f.code = "W002".toList → f.InTag text c.tag

/-- What a candidate breaks is settled by its kind and its reason. -/
theorem Candidate.classify_eq {c : Candidate} {mask : Mask} {rule : Rule}
    (h : c.classify mask = some rule) : rule = ⟨Rule.errorId, c.kind.code, c.reason⟩ := by
  unfold Candidate.classify at h
  split at h
  · cases h
  · exact (Option.some.inj h).symm

/-- A located tag is written as `<` and the name of its element, letter case aside. -/
theorem Resolver.Fits.written {name : Text} {attributes : Attributes} {children : List Node}
    {t : OpenTag} (h : Fits src (.element name attributes children) (.tag t)) :
    ∃ written rest, Text.slice src.text t.start t.stop = '<' :: written ++ rest ∧
      List.Forall₂ (fun x y => Text.sameLetter x y = true) name written := by
  cases h with
  | @tag _ _ _ o hstarts =>
    have hlength := Resolver.length_of_startsTag hstarts
    rw [List.length_drop] at hlength
    obtain ⟨hle, -⟩ := OpenTag.scan_bounds o (show o + 1 + name.length ≤ src.text.length by omega)
    obtain ⟨head, rest, hdrop, hsame, -⟩ := Resolver.startsTag_iff.mp hstarts
    have hhead := hsame.length_eq
    generalize (OpenTag.scan src.text o (o + 1 + name.length)).stop = stop at hle
    refine ⟨head, rest.take (stop - (o + 1 + name.length)), ?_, hsame⟩
    have hcut : stop - o = 1 + head.length + (stop - (o + 1 + name.length)) := by omega
    rw [OpenTag.scan_start, Text.slice, hdrop, hcut, Nat.add_assoc, Nat.add_comm 1, List.take_succ_cons,
      List.take_length_add_append]
    rfl

namespace Scan

/-- A candidate that is reported breaks a rule and has evidence, and its group comes of both. -/
theorem report_resolved {lines : Lines} {c : Candidate} {group : List Finding}
    (h : report src lines d c = .ok group) (hne : group ≠ []) :
    ∃ rule e st, c.classify src.mask = some rule ∧ group = findings lines c.kind rule e ∧
      Resolver.resolve src c (State.start src d) = (.ok (some e), st) := by
  unfold report at h
  split at h
  · cases h
    exact absurd rfl hne
  · rename_i rule hrule
    generalize hresolve : Resolver.resolve src c (State.start src d) = answered at h
    obtain ⟨r, st⟩ := answered
    match r with
    | .error e => cases h
    | .ok none =>
      cases h
      exact absurd rfl hne
    | .ok (some e) =>
      cases h
      exact ⟨rule, e, st, hrule, rfl, rfl⟩

/-- A candidate that is resolved has been sought and found in a place that fits its node, and its
evidence lies inside that place. -/
theorem resolve_placed {c : Candidate} {e : EvidenceSpan} {st : State}
    (h : Resolver.resolve src c (State.start src d) = (.ok (some e), st)) :
    ∃ node place st, Resolver.seek src c (State.start src d) = (.ok place, st) ∧
      d.nodes[c.node]? = some node ∧ Fits src node place ∧
      place.span.start ≤ e.start ∧ e.start < e.stop ∧ e.stop ≤ place.span.stop ∧
      ((c.kind = .text ∧ e.scope = none) ∨
        (c.kind = .attribute ∧ ∃ t, place = .tag t ∧
          e.scope = some (Text.slice src.text t.start t.stop))) := by
  obtain ⟨place, st₁, -, -, -, hseek, -, -⟩ := Resolver.resolve_ok h
  obtain ⟨htrail, -⟩ := (Trail.start src d).seek (c := c)
  rw [Resolver.seekTraced_fst, hseek] at htrail
  obtain ⟨node, hnode, hfits⟩ := htrail.fits _ (htrail.last _ _ (Resolver.seek_last hseek)).1
  exact ⟨node, place, st₁, hseek, hnode, hfits, Resolver.resolve_inside hseek hfits h⟩

/-- A candidate that is reported has been sought and found in a place that fits its node, and its
group comes of evidence inside that place. -/
theorem report_eq_findings {lines : Lines} {c : Candidate} {group : List Finding}
    (h : report src lines d c = .ok group) (hne : group ≠ []) :
    ∃ rule e node place st, c.classify src.mask = some rule ∧ group = findings lines c.kind rule e ∧
      Resolver.seek src c (State.start src d) = (.ok place, st) ∧
      d.nodes[c.node]? = some node ∧ Fits src node place ∧
      place.span.start ≤ e.start ∧ e.start < e.stop ∧ e.stop ≤ place.span.stop ∧
      ((c.kind = .text ∧ e.scope = none) ∨
        (c.kind = .attribute ∧ ∃ t, place = .tag t ∧
          e.scope = some (Text.slice src.text t.start t.stop))) := by
  obtain ⟨rule, e, st, hrule, hgroup, hresolve⟩ := report_resolved h hne
  obtain ⟨node, place, st₁, hplaced⟩ := resolve_placed hresolve
  exact ⟨rule, e, node, place, st₁, hrule, hgroup, hplaced⟩

/-- The group of a candidate comes of the evidence of a range of the source. -/
theorem report_range {lines : Lines} {c : Candidate} {group : List Finding}
    (h : report src lines d c = .ok group) (hne : group ≠ []) :
    ∃ (rule : Rule) (e : EvidenceSpan) (s : Span), c.classify src.mask = some rule ∧
      group = findings lines c.kind rule e ∧ e.stop ≤ src.text.length ∧
      Evidence.range? src.text src.mask s.start s.stop = .ok (some ⟨e.start, e.stop⟩) := by
  obtain ⟨rule, e, st, hrule, hgroup, hresolve⟩ := report_resolved h hne
  obtain ⟨node, place, st₁, -, -, hfits, -, -, hstop, -⟩ := resolve_placed hresolve
  obtain ⟨s, hrange⟩ := Resolver.resolve_range hresolve
  exact ⟨rule, e, s, hrule, hgroup, Nat.le_trans hstop hfits.inside.stop_le, hrange⟩

/-- What a candidate reports comes of evidence in a place that fits the node it is taken from. -/
theorem report_found {lines : Lines} {ignored wanted : List Text} {c : Candidate} {f : Finding}
    {group : List Finding} (hc : c ∈ d.candidates ignored wanted)
    (h : report src lines d c = .ok group) (hf : f ∈ group) :
    ∃ rule e node place, c.classify src.mask = some rule ∧ f ∈ findings lines c.kind rule e ∧
      c.From node ∧ Fits src node place ∧
      place.span.start ≤ e.start ∧ e.start < e.stop ∧ e.stop ≤ place.span.stop ∧
      ((c.kind = .text ∧ e.scope = none) ∨
        (c.kind = .attribute ∧ ∃ t, place = .tag t ∧
          e.scope = some (Text.slice src.text t.start t.stop))) := by
  obtain ⟨rule, e, node, place, -, hrule, rfl, -, hnode, hfits, hinside⟩ :=
    report_eq_findings h (List.ne_nil_of_mem hf)
  obtain ⟨node', hnode', hfrom⟩ := Document.mem_candidates hc
  obtain rfl : node' = node := Option.some.inj (hnode'.symm.trans hnode)
  exact ⟨rule, e, node', place, hrule, hf, hfrom, hfits, hinside⟩

/-- What a candidate reports shows the source. -/
theorem report_faithful {ignored wanted : List Text} {c : Candidate} {f : Finding}
    {group : List Finding} (hc : c ∈ d.candidates ignored wanted)
    (h : report src (Lines.of src.text) d c = .ok group) (hf : f ∈ group) :
    f.Faithful src.text c := by
  obtain ⟨rule, e, node, place, hrule, hf, hfrom, hfits, hstart, hlt, hstop, hscope⟩ :=
    report_found hc h hf
  have hcode : rule.code = c.kind.code := by rw [Candidate.classify_eq hrule]
  have hlength := hfits.inside.stop_le
  rcases hscope with ⟨hkind, -⟩ | ⟨hkind, t, rfl, hscope⟩
  · rw [hkind] at hf hcode
    obtain ⟨hplaced, honLine, hcode'⟩ := Finding.placed_ofText (by omega) hf
    have hcode'' : f.code = "W001".toList := hcode'.trans hcode
    refine ⟨hplaced, by rw [hcode'', hkind]; rfl, fun _ => honLine, fun hother => ?_⟩
    rw [hcode''] at hother
    exact absurd hother (by decide)
  · rw [hkind] at hf hcode
    simp only [findings, List.mem_singleton] at hf
    subst hf
    have hcode' : (Finding.ofAttribute rule e.start e.stop e.scope (Lines.of src.text)).code =
        "W002".toList := hcode
    match node with
    | .leaf kind s => exact absurd (hkind.symm.trans hfrom.2.1) (by decide)
    | .element name attributes children =>
      obtain ⟨written, rest, htag, hname⟩ := hfits.written
      rw [← hfrom.2.1] at hname
      obtain ⟨hplaced, hinTag⟩ :=
        Finding.placed_ofAttribute hstart hlt hstop hlength rule htag hname
      rw [hscope] at hcode' ⊢
      refine ⟨hplaced, by rw [hcode', hkind]; rfl, fun hother => ?_, fun _ => hinTag⟩
      rw [hcode'] at hother
      exact absurd hother (by decide)

end Scan

/-- Every record of a scan that returns belongs to what one candidate reports, and shows the source: its
literal stands at its position, a text's on one line with the line as its scope, an attribute value's
inside its scope, which is written as an opening tag of the candidate's element. -/
theorem scan_records_faithful {text label : Text} {options : Options} {records : List Record}
    (h : (scan text label options).1 = .ok records) :
    ∃ d, Document.parse [] text = .ok d ∧ ∀ r ∈ records, r.file = label ∧
      ∃ c ∈ d.candidates options.ignoredTags options.attributes,
        (∃ group, Scan.report (Scan.source text options.delimiters) (Lines.of text) d c = .ok group ∧
          r.finding ∈ group) ∧ r.finding.Faithful text c := by
  obtain ⟨d, rs, hparse, hreports, rfl⟩ := Scan.scan_ok h
  refine ⟨d, hparse, fun r hr => ?_⟩
  obtain ⟨⟨c, group⟩, hmem, hr⟩ := List.mem_flatMap.mp hr
  obtain ⟨f, hf, rfl⟩ := List.mem_map.mp hr
  obtain ⟨hc, hreport⟩ := Scan.mem_reports hreports (Scan.mem_sorted.mp hmem)
  exact ⟨rfl, c, hc, ⟨group, hreport, hf⟩, Scan.report_faithful hc hreport hf⟩

/-- Two kinds of line breaks, a reference, and a quoted value behind a template expression. -/
theorem scan_records_faithful_breaks :
    ∃ (text : Text) (records : List Record),
      text = "<p>\r\n  Hello\rworld &amp; </p><IMG ALT='[[x]] a>b'>".toList ∧
      records.map (fun r => (r.finding.line, r.finding.character)) = [(2, 3), (3, 1), (3, 33)] ∧
      (scan text [] ⟨["alt".toList], some ⟨"[[".toList, "]]".toList⟩, []⟩).1 = .ok records ∧
      ∃ d, Document.parse [] text = .ok d ∧ ∀ r ∈ records, r.file = [] ∧
        ∃ c ∈ d.candidates [] ["alt".toList],
          (∃ group, Scan.report (Scan.source text (some ⟨"[[".toList, "]]".toList⟩)) (Lines.of text) d c =
            .ok group ∧ r.finding ∈ group) ∧ r.finding.Faithful text c := by
  have hscan : (scan "<p>\r\n  Hello\rworld &amp; </p><IMG ALT='[[x]] a>b'>".toList []
      ⟨["alt".toList], some ⟨"[[".toList, "]]".toList⟩, []⟩).1 =
      .ok (List.map (fun f => ⟨[], f⟩) (List.flatten
        [[⟨"(error)".toList, "W001".toList, "Hardcoded <p> tag".toList, "Hello".toList, 2, 3,
            "Hello".toList⟩,
          ⟨"(error)".toList, "W001".toList, "Hardcoded <p> tag (continued)".toList,
            "world &amp;".toList, 3, 1, "world &amp; </p><IMG ALT='[[x]] a>b'>".toList⟩],
        [⟨"(error)".toList, "W002".toList, "Hardcoded 'alt' attribute".toList, "a>b".toList, 3, 33,
          "<IMG ALT='[[x]] a>b'>".toList⟩]])) :=
    Scan.scan_of_pairwise (by decide +kernel) (by decide)
  exact ⟨_, _, rfl, rfl, hscan, scan_records_faithful hscan⟩

end Untranslated
