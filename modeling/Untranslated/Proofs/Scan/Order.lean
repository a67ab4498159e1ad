import Untranslated.Proofs.Scan.Fidelity

/-!
# Records come in source order

Only whole groups of findings are sorted, by their first findings; yet all records of a scan come in
source order (`scan_in_order`). The reason is that the resolver finds different nodes in different
places, one behind the other in document order (`Resolver.seek_stop_le_start`). So two groups never
interleave: either all findings of the one stand before all findings of the other, or both are single
findings of attributes of the same element (`Scan.apart_report`).
-/

namespace Untranslated

open Resolver (Source State)

variable {src : Source} {d : Document}

/-- The reason of a candidate is not marked as a continuation. -/
theorem Candidate.reason_not_continued (c : Candidate) :
    Finding.continuedMark.isSuffixOf c.reason = false := by
  refine Bool.eq_false_iff.mpr fun h => ?_
  obtain ⟨before, hbefore⟩ := List.isSuffixOf_iff_suffix.mp h
  have hlast : c.reason.getLast? = some ')' := by
    rw [← hbefore, List.getLast?_append]
    rfl
  unfold Candidate.reason at hlast
  split at hlast
  · rw [List.getLast?_append] at hlast
    cases hlast
  · rw [List.getLast?_append] at hlast
    cases hlast

namespace Scan

/-! ## One group -/

/-- The findings of a group stand on different lines, in order, and all but the first are marked as
continuations. -/
structure Connected (group : List Finding) : Prop where
  lines : group.Pairwise fun f g => f.line < g.line
  continued : ∀ i f, group[i]? = some f → (f.isContinuation = true ↔ i ≠ 0)

/-- The group is the one finding of an attribute. -/
def Single (group : List Finding) : Prop := ∃ f, group = [f] ∧ f.code = CandidateKind.attribute.code

theorem findings_connected {text : Text} (kind : CandidateKind) {rule : Rule}
    (hreason : Finding.continuedMark.isSuffixOf rule.reason = false) {e : EvidenceSpan}
    (he : e.stop ≤ text.length) : Connected (findings (Lines.of text) kind rule e) := by
  match kind with
  | .text =>
    exact ⟨Finding.pairwise_line_ofText he rule, fun i f => Finding.isContinuation_ofText hreason⟩
  | .attribute =>
    refine ⟨List.pairwise_singleton _ _, fun i f hf => ?_⟩
    obtain ⟨rfl, rfl⟩ : i = 0 ∧ Finding.ofAttribute rule e.start e.stop e.scope (Lines.of text) = f := by
      simpa [findings, List.getElem?_singleton] using hf
    simp [Finding.isContinuation, Finding.ofAttribute, Finding.make, hreason]

/-- All findings stand between the two given offsets. -/
def Between (text : Text) (lo hi : Nat) (group : List Finding) : Prop :=
  ∀ f ∈ group, ∃ o, f.StandsAt text o ∧ lo ≤ o ∧ o < hi ∧ o + f.literal.length ≤ hi

theorem findings_between {text : Text} (kind : CandidateKind) (rule : Rule) {e : EvidenceSpan}
    (hlt : e.start < e.stop) (he : e.stop ≤ text.length) :
    Between text e.start e.stop (findings (Lines.of text) kind rule e) := by
  intro f hf
  match kind with
  | .text => exact Finding.standsAt_of_mem_ofText he hf
  | .attribute =>
    rw [List.mem_singleton.mp hf]
    refine ⟨e.start, Finding.standsAt_make (by omega) .., Nat.le_refl _, hlt, ?_⟩
    have hliteral : Text.sliceAt text e.start e.stop = Text.slice text e.start e.stop :=
      Text.sliceAt_natCast ..
    simp only [Finding.ofAttribute, Finding.make]
    rw [show (Lines.of text).text = text from rfl, hliteral, Text.length_slice_of_le he]
    omega

/-- What a candidate reports is connected and stands in the place at which its node is found. -/
theorem report_place {c : Candidate} {group : List Finding}
    (h : report src (Lines.of src.text) d c = .ok group) (hne : group ≠ []) :
    ∃ place st, Resolver.seek src c (State.start src d) = (.ok place, st) ∧
      Between src.text place.span.start place.span.stop group ∧ Connected group ∧
      (c.kind = .attribute → Single group) := by
  obtain ⟨rule, e, node, place, st, hrule, rfl, hseek, -, hfits, hstart, hlt, hstop, -⟩ :=
    report_eq_findings h hne
  obtain rfl := Candidate.classify_eq hrule
  have hlength : e.stop ≤ src.text.length := Nat.le_trans hstop hfits.inside.stop_le
  refine ⟨place, st, hseek, fun f hf => ?_, findings_connected _ c.reason_not_continued hlength,
    fun hkind => ?_⟩
  · obtain ⟨o, hstands, hlo, hhi, hend⟩ := findings_between c.kind _ hlt hlength f hf
    exact ⟨o, hstands, by omega, by omega, by omega⟩
  · rw [hkind]
    exact ⟨_, rfl, rfl⟩

/-! ## Two groups -/

/-- All findings of the first group stand before all findings of the second one. -/
def Before (group group' : List Finding) : Prop :=
  ∀ f ∈ group, ∀ g ∈ group', f.le g = true ∧ g.le f = false

/-- The groups do not interleave, whichever of them comes first. -/
def Apart (group group' : List Finding) : Prop :=
  Before group group' ∨ Before group' group ∨ Single group ∧ Single group'

theorem Apart.symm {group group' : List Finding} (h : Apart group group') : Apart group' group := by
  rcases h with h | h | ⟨h, h'⟩
  · exact .inr (.inl h)
  · exact .inl h
  · exact .inr (.inr ⟨h', h⟩)

theorem Between.before {text : Text} {lo hi lo' hi' : Nat} {group group' : List Finding}
    (h : Between text lo hi group) (h' : Between text lo' hi' group') (hle : hi ≤ lo') :
    Before group group' := by
  intro f hf g hg
  obtain ⟨o, hf, -, ho, -⟩ := h f hf
  obtain ⟨o', hg, ho', -⟩ := h' g hg
  exact hf.lt hg (by omega)

/-- Of two candidates, the later one reports behind the earlier one, or both report attributes of the
same element. -/
theorem apart_report {c c' : Candidate} (hc : c.Precedes c') {group group' : List Finding}
    (h : report src (Lines.of src.text) d c = .ok group) (hne : group ≠ [])
    (h' : report src (Lines.of src.text) d c' = .ok group') (hne' : group' ≠ []) :
    Apart group group' := by
  obtain ⟨place, st, hseek, hbetween, -, hsingle⟩ := report_place h hne
  obtain ⟨place', st', hseek', hbetween', -, hsingle'⟩ := report_place h' hne'
  rcases hc with hlt | ⟨-, hkind, hkind'⟩
  · exact .inl (hbetween.before hbetween' (Resolver.seek_stop_le_start hseek hseek' hlt))
  · exact .inr (.inr ⟨hsingle hkind, hsingle' hkind'⟩)

/-- The first finding comes no later than the second one, and only attributes share a position. -/
def Follows (f g : Finding) : Prop :=
  f.le g = true ∧ (f.code = CandidateKind.text.code → g.code = CandidateKind.text.code →
    ¬(f.line = g.line ∧ f.character = g.character))

theorem follows_of_not_le {f g : Finding} (h : f.le g = true) (h' : g.le f = false) :
    Follows f g := by
  refine ⟨h, fun _ _ heq => ?_⟩
  simp [Finding.le, heq.1, heq.2] at h'

/-- Groups that do not interleave follow each other in the order of their first findings. -/
theorem Apart.follows {group group' : List Finding} (h : Apart group group')
    (hle : groupLe group group' = true) {f g : Finding} (hf : f ∈ group) (hg : g ∈ group') :
    Follows f g := by
  rcases h with h | h | ⟨⟨f', rfl, hcode⟩, g', rfl, -⟩
  · exact follows_of_not_le (h f hf g hg).1 (h f hf g hg).2
  · obtain ⟨f', fs, rfl⟩ := List.exists_cons_of_ne_nil (List.ne_nil_of_mem hf)
    obtain ⟨g', gs, rfl⟩ := List.exists_cons_of_ne_nil (List.ne_nil_of_mem hg)
    exact absurd hle (Bool.eq_false_iff.mp (h g' List.mem_cons_self f' List.mem_cons_self).2)
  · rw [List.mem_singleton.mp hf, List.mem_singleton.mp hg]
    refine ⟨hle, fun htext _ => ?_⟩
    rw [hcode] at htext
    exact absurd htext (by decide)

theorem Connected.follows {group : List Finding} (h : Connected group) : group.Pairwise Follows := by
  refine h.lines.imp fun {f g} hlt => follows_of_not_le ?_ ?_
  · simp [Finding.le, hlt]
  · simp only [Finding.le, Bool.or_eq_false_iff, Bool.and_eq_false_imp, decide_eq_false_iff_not,
      beq_iff_eq]
    omega

/-! ## All groups -/

/-- Whether the first finding of the group is at a position. -/
def beginsAt (line character : Int) (group : List Finding) : Bool :=
  group.head?.any fun f => f.line == line && f.character == character

/-- The records are those of the groups `rs`, rearranged to `gs`, in source order. -/
structure InOrder (label : Text) (rs gs : List (Candidate × List Finding)) (records : List Record) :
    Prop where
  perm : gs.Perm rs
  /-- The records of a candidate stand together. -/
  records_eq : records = recordsOf label gs
  nonempty : ∀ r ∈ gs, r.2 ≠ []
  connected : ∀ r ∈ gs, Connected r.2
  ascending : records.Pairwise fun r r' => r.finding.le r'.finding = true
  distinct : records.Pairwise fun r r' => r.finding.code = "W001".toList →
    r'.finding.code = "W001".toList →
    ¬(r.finding.line = r'.finding.line ∧ r.finding.character = r'.finding.character)
  /-- Groups that begin at the same position keep their order. -/
  stable : ∀ line character, gs.filter (fun r => beginsAt line character r.2) =
    rs.filter fun r => beginsAt line character r.2

theorem reports_nonempty {lines : Lines} {cs : List Candidate} {rs : List (Candidate × List Finding)}
    (h : reports src lines d cs = .ok rs) : ∀ r ∈ rs, r.2 ≠ [] := by
  induction cs generalizing rs with
  | nil => cases h; simp
  | cons c cs ih =>
    obtain ⟨group, more, -, hmore, rfl⟩ := reports_cons h
    split
    · exact ih hmore
    · rename_i hempty
      exact List.forall_mem_cons.mpr ⟨by simpa using hempty, ih hmore⟩

theorem reports_sublist {lines : Lines} {cs : List Candidate} {rs : List (Candidate × List Finding)}
    (h : reports src lines d cs = .ok rs) : (rs.map Prod.fst).Sublist cs := by
  induction cs generalizing rs with
  | nil => cases h; exact List.Sublist.refl []
  | cons c cs ih =>
    obtain ⟨group, more, -, hmore, rfl⟩ := reports_cons h
    split
    · exact (ih hmore).cons c
    · exact (ih hmore).cons_cons c

/-- The groups of a run do not interleave. -/
theorem apart_reports {cs : List Candidate} (hcs : cs.Pairwise Candidate.Precedes)
    {rs : List (Candidate × List Finding)} (h : reports src (Lines.of src.text) d cs = .ok rs) :
    rs.Pairwise fun r r' => Apart r.2 r'.2 := by
  have horder := List.pairwise_map.mp (hcs.sublist (reports_sublist h))
  refine List.Pairwise.imp_of_mem (fun {r r'} hr hr' hprecedes => ?_) horder
  exact apart_report hprecedes (mem_reports h hr).2 (reports_nonempty h r hr) (mem_reports h hr').2
    (reports_nonempty h r' hr')

/-- Sorting does not change the order of groups that begin at the same position. -/
theorem filter_beginsAt_sorted (line character : Int) (rs : List (Candidate × List Finding)) :
    (sorted rs).filter (fun r => beginsAt line character r.2) =
      rs.filter fun r => beginsAt line character r.2 := by
  rw [filter_sorted]
  refine List.mergeSort_of_pairwise (List.pairwise_of_forall_mem_list fun r hr r' hr' => ?_)
  have hbegins := (List.mem_filter.mp hr).2
  have hbegins' := (List.mem_filter.mp hr').2
  obtain ⟨c, group⟩ := r
  obtain ⟨c', group'⟩ := r'
  match group, group' with
  | [], _ => rfl
  | _ :: _, [] => cases hbegins'
  | f :: _, g :: _ =>
    simp only [beginsAt, List.head?_cons, Option.any_some, Bool.and_eq_true, beq_iff_eq]
      at hbegins hbegins'
    simp [groupLe, Finding.le, hbegins, hbegins']

theorem pairwise_recordsOf (label : Text) {gs : List (Candidate × List Finding)}
    {R : Finding → Finding → Prop} (hgroup : ∀ r ∈ gs, r.2.Pairwise R)
    (hgroups : gs.Pairwise fun r r' => ∀ f ∈ r.2, ∀ g ∈ r'.2, R f g) :
    (recordsOf label gs).Pairwise fun r r' => R r.finding r'.finding := by
  refine List.pairwise_flatMap.mpr ⟨fun r hr => List.pairwise_map.mpr (hgroup r hr), ?_⟩
  refine hgroups.imp fun {r r'} h record hrecord record' hrecord' => ?_
  obtain ⟨f, hf, rfl⟩ := List.mem_map.mp hrecord
  obtain ⟨g, hg, rfl⟩ := List.mem_map.mp hrecord'
  exact h f hf g hg

/-- The groups that a run finds are in order once they are sorted. -/
theorem inOrder_sorted (label : Text) {cs : List Candidate}
    (hcs : cs.Pairwise Candidate.Precedes) {rs : List (Candidate × List Finding)}
    (h : reports src (Lines.of src.text) d cs = .ok rs) :
    InOrder label rs (sorted rs) (recordsOf label (sorted rs)) := by
  have hperm : (sorted rs).Perm rs := List.mergeSort_perm rs _
  have hnonempty : ∀ r ∈ sorted rs, r.2 ≠ [] := fun r hr => reports_nonempty h r (mem_sorted.mp hr)
  have hconnected : ∀ r ∈ sorted rs, Connected r.2 := by
    intro r hr
    obtain ⟨-, -, -, -, hconnected, -⟩ :=
      report_place (mem_reports h (mem_sorted.mp hr)).2 (hnonempty r hr)
    exact hconnected
  have hapart : (sorted rs).Pairwise fun r r' => Apart r.2 r'.2 :=
    (hperm.pairwise_iff fun h => h.symm).mpr (apart_reports hcs h)
  have hfollows : (recordsOf label (sorted rs)).Pairwise fun r r' => Follows r.finding r'.finding := by
    refine pairwise_recordsOf label (fun r hr => (hconnected r hr).follows) ?_
    exact hapart.imp₂ (fun r r' hapart hle f hf g hg => hapart.follows hle hf hg) (pairwise_sorted rs)
  exact {
    perm := hperm
    records_eq := rfl
    nonempty := hnonempty
    connected := hconnected
    ascending := hfollows.imp fun h => h.1
    distinct := hfollows.imp fun h => h.2
    stable := fun line character => filter_beginsAt_sorted line character rs }

end Scan

/-- The records of a scan that returns are in source order, all of them and not only the first ones of
each candidate: the groups `rs` that the candidates give in document order are reported one after the
other, and texts never share a position. -/
theorem scan_in_order {text label : Text} {options : Options} {records : List Record}
    (h : (scan text label options).1 = .ok records) :
    ∃ d rs gs, Document.parse [] text = .ok d ∧
      (Scan.labelled (Scan.source text options.delimiters) (Lines.of text)
        (d.candidates options.ignoredTags options.attributes)
        (State.start (Scan.source text options.delimiters) d)).1 = .ok rs ∧
      (rs.map Prod.fst).Sublist (d.candidates options.ignoredTags options.attributes) ∧
      Scan.InOrder label rs gs records := by
  obtain ⟨d, rs, hparse, hreports, rfl⟩ := Scan.scan_ok h
  refine ⟨d, rs, Scan.sorted rs, hparse, ?_, Scan.reports_sublist hreports, ?_⟩
  · rw [Scan.labelled_candidates]
    exact hreports
  · exact Scan.inOrder_sorted label (d.precedes_candidates _ _) hreports

/-- An attribute written twice is found where it is written last, so the walk meets it before the
attribute that stands before it in the source. A text runs over two lines. -/
theorem scan_in_order_repeated_attribute :
    ∃ (text : Text) (records : List Record),
      text = "<p alt=\"\" title=\"b\" alt=\"a\">x\r\n y<i>z</i></p>".toList ∧
      records.map (fun r => (r.finding.literal, r.finding.line, r.finding.character)) =
        [(['b'], 1, 18), (['a'], 1, 26), (['x'], 1, 29), (['y'], 2, 2), (['z'], 2, 6)] ∧
      (scan text [] ⟨["alt".toList, "title".toList], none, []⟩).1 = .ok records ∧
      ∃ d rs gs, Document.parse [] text = .ok d ∧
        (Scan.labelled (Scan.source text none) (Lines.of text)
          (d.candidates [] ["alt".toList, "title".toList])
          (State.start (Scan.source text none) d)).1 = .ok rs ∧
        (rs.map Prod.fst).Sublist (d.candidates [] ["alt".toList, "title".toList]) ∧
        Scan.InOrder [] rs gs records := by
  let tag := "<p alt=\"\" title=\"b\" alt=\"a\">".toList
  let alt : Finding :=
    ⟨"(error)".toList, "W002".toList, "Hardcoded 'alt' attribute".toList, ['a'], 1, 26, tag⟩
  let title : Finding :=
    ⟨"(error)".toList, "W002".toList, "Hardcoded 'title' attribute".toList, ['b'], 1, 18, tag⟩
  let x : Finding :=
    ⟨"(error)".toList, "W001".toList, "Hardcoded <p> tag".toList, ['x'], 1, 29, tag ++ ['x']⟩
  let y : Finding := ⟨"(error)".toList, "W001".toList, "Hardcoded <p> tag (continued)".toList, ['y'],
    2, 2, "y<i>z</i></p>".toList⟩
  let z : Finding := ⟨"(error)".toList, "W001".toList, "Hardcoded <i> tag".toList, ['z'], 2, 6,
    "y<i>z</i></p>".toList⟩
  have hsort : [[alt], [title], [x, y], [z]].mergeSort Scan.groupLe =
      [[title], [alt], [x, y], [z]] := by
    have hswap : Scan.groupLe [alt] [title] = false := by decide
    have htitle : Scan.groupLe [title] [x, y] = true := by decide
    have halt : Scan.groupLe [alt] [x, y] = true := by decide
    have hz : Scan.groupLe [x, y] [z] = true := by decide
    simp [List.mergeSort, List.MergeSort.Internal.splitInTwo, hswap, htitle, halt, hz]
  have hscan : (scan (tag ++ "x\r\n y<i>z</i></p>".toList) []
      ⟨["alt".toList, "title".toList], none, []⟩).1 =
      .ok (List.map (fun f => ⟨[], f⟩) (List.flatten [[title], [alt], [x, y], [z]])) := by
    rw [← hsort]
    exact Scan.scan_of_groups (by decide +kernel)
  exact ⟨_, _, rfl, rfl, hscan, scan_in_order hscan⟩

end Untranslated
