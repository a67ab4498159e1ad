import Untranslated.Proofs.Locate.Respelled
import Untranslated.Proofs.Markup.RespelledTree
import Untranslated.Proofs.Scan.Respelled

/-!
# Line endings

Where each text is found where it is written, a scan does not hang on how line breaks are spelled
(`scan_line_endings`): carriage returns before line feeds leave the records as they are, at the same lines and
columns. Related candidates are sought in step, the one at the place to which the other's is moved, and what is
reported of them says the same (`Scan.report_respelled`).

Elsewhere line endings do make a difference (`line_endings_differ`). A line feed between tags is kept as it is
and consumed, whereas a carriage return and a line feed shrink to a line feed, which is not found.
-/

namespace Untranslated

open Resolver (Source State)
open Markup
open Text (moved)

/-- The sources are the same, line breaks aside, and no delimiter holds one. -/
structure Resolver.Source.Respelled (src src' : Source) : Prop where
  text : Text.Respelled src.text src'.text
  spans : ∀ s ∈ src.mask.spans, s.Inside 0 src.text.length
  mask : src'.mask = ⟨src.mask.spans.map (Span.moved src.text src'.text), src.mask.delimiters⟩
  breakless : ∀ d ∈ src.mask.delimiters, d.Breakless

theorem Scan.source_respelled {text text' : Text} (h : Text.Respelled text text')
    {delimiters : Option Delimiters} (hd : ∀ d ∈ delimiters, d.Breakless) :
    (source text delimiters).Respelled (source text' delimiters) where
  text := h
  spans := Mask.inside_build text delimiters
  mask := Mask.build_respelled hd h
  breakless d hmem := hd d ((Mask.delimiters_build text delimiters).symm ▸ hmem)

namespace Candidate.Respelled

variable {c c' : Candidate}

theorem reason_eq (h : c.Respelled c') : c'.reason = c.reason := by
  rw [reason, reason, h.kind, h.tag, h.attributeName]

/-- Candidates that come from the same place break the same rule. -/
theorem classify_eq (h : c.Respelled c') {src src' : Source} (hsrc : src.Respelled src') :
    c'.classify src'.mask = c.classify src.mask := by
  have hstripped : Text.Respelled (src.mask.stripExpressions c.value)
      (src'.mask.stripExpressions c'.value) := by
    unfold Mask.stripExpressions
    rw [hsrc.mask]
    cases hdelimiters : src.mask.delimiters with
    | none => exact h.value
    | some d => exact Mask.strip_respelled (hsrc.breakless d hdelimiters) h.value
  rw [classify, classify, hstripped.isBlank_eq, h.kind, h.reason_eq]

end Candidate.Respelled

namespace Resolver

variable {src src' : Source} {d : Document} {ts : List Token} {c c' : Candidate} {l : Located}
  {places : List (Nat × Located)}

/-- Where no end tag says a text, a candidate that shows something is found where it is written. -/
theorem seek_clear (h : Token.Spaced Token.IsTame ts) (hclear : ∀ t ∈ ts, ∀ u ∈ ts, ¬ t.SaidIn u)
    (htext : src.text = Token.renderAll ts) (hlisted : Token.Listed 0 ts d.indexed)
    {ignored wanted : List Text} (hc : c ∈ d.candidates ignored wanted)
    (hvalue : Text.isBlank c.value = false) :
    ∃ l st, Sits src.text (Token.places 0 0 ts) c l ∧ Found (Exactly src) l l ∧
      seek src c (State.start src d) = (.ok l, st) := by
  have hsoup : Token.Spaced (Token.IsSoup (fun name => .closing name ∈ ts) fun s => .text s ∈ ts) ts :=
    h.imp fun t ht htame => htame.isSoup (fun _ heq => heq ▸ ht) fun _ heq => heq ▸ ht
  obtain ⟨l, hsits⟩ :=
    sits_of_mem_candidates (fun t ht => (h.of_mem t ht).isLegible) htext hlisted hc hvalue
  obtain ⟨l', st, hseek, hfound⟩ :=
    seek_sits (fun _ => id) (leaves_clear src hclear) hsoup htext hlisted hsits hvalue
  obtain rfl := hfound.eq_of_exact
  exact ⟨l', st, hsits, hfound, hseek⟩

/-- The range taken for a candidate at a moved place is the moved range. -/
theorem rangeIn_moved (h : Text.Respelled src.text src'.text) (hc : c.Respelled c')
    (hsits : Sits src.text places c l) (hfound : Found (Exactly src) l l)
    (hvalue : Text.isBlank c.value = false) (st st' : State) :
    ∃ r scope scope', rangeIn src c l st = (.ok (r, scope), st) ∧
      rangeIn src' c' (l.moved src.text src'.text) st' = (.ok (r.moved src.text src'.text, scope'), st') ∧
      Option.Rel Text.Respelled scope scope' ∧ r.start ≤ r.stop ∧ Readable src r := by
  cases hsits with
  | @text o rest hkind htext _ =>
    cases hfound with
    | text hexact =>
      refine ⟨_, none, none, ?_, ?_, .none, Nat.le_add_right _ _, hexact.2⟩
      · simp only [rangeIn, hkind]
      · simp only [rangeIn, hc.kind, hkind, Located.moved]
  | @value k v name rest attributes o hkind hname htag hlast hdecoded htext _ =>
    obtain ⟨a, hattribute, hlt, hread⟩ := attribute_sits htag hlast htext (hdecoded ▸ hvalue)
    have hmoved : ((OpenTag.writtenAt o name attributes).moved src.text src'.text).attribute? k =
        some ⟨a.name, a.value.moved src.text src'.text⟩ := by
      rw [OpenTag.attribute?_moved, hattribute, Option.map_some]
    have hlt' := h.moved_lt_moved hlt (Nat.lt_of_lt_of_le hlt hread.1)
    exact ⟨a.value, _, _, rangeIn_attribute st hkind hname hattribute (Nat.ne_of_lt hlt),
      rangeIn_attribute st' (hc.kind.trans hkind) (hc.attributeName.trans hname) hmoved (Nat.ne_of_lt hlt'),
      .some (h.slice _ _), Nat.le_of_lt hlt, hread⟩

/-- The evidence of a candidate that is found at a moved place is the moved evidence. -/
theorem resolve_moved (h : src.Respelled src') (hc : c.Respelled c') (hsits : Sits src.text places c l)
    (hfound : Found (Exactly src) l l) (hvalue : Text.isBlank c.value = false) {st st₁ st' st₁' : State}
    (hseek : seek src c st = (.ok l, st₁))
    (hseek' : seek src' c' st' = (.ok (l.moved src.text src'.text), st₁')) :
    ∃ (e : Option Span) (scope scope' : Option Text),
      (resolve src c st).1 = .ok (e.map fun e => ⟨e.start, e.stop, scope⟩) ∧
      (resolve src' c' st').1 =
        .ok (e.map fun e => ⟨moved src.text src'.text e.start, moved src.text src'.text e.stop, scope'⟩) ∧
      Option.Rel Text.Respelled scope scope' ∧ ∀ x ∈ e, x.start < x.stop ∧ x.stop ≤ src.text.length := by
  obtain ⟨r, scope, scope', hrange, hrange', hscope, hle, hstop, hread⟩ :=
    rangeIn_moved h.text hc hsits hfound hvalue st₁ st₁'
  obtain ⟨e, he⟩ := Evidence.range?_ok src.mask hstop hread
  have he' : Evidence.range? src'.text src'.mask (moved src.text src'.text r.start)
      (moved src.text src'.text r.stop) = .ok (e.map (Span.moved src.text src'.text)) := by
    rw [h.mask, Evidence.range?_moved h.text h.spans hle hstop hread, he]
    rfl
  have hraw : (rawRange src c st).1 = .ok (r, scope) := by
    rw [rawRange_of_seek hseek, hrange]
  have hraw' : (rawRange src' c' st').1 = .ok (r.moved src.text src'.text, scope') := by
    rw [rawRange_of_seek hseek', hrange']
  refine ⟨e, scope, scope', resolve_of_rawRange hraw he, ?_, hscope, fun x hx => ?_⟩
  · rw [resolve_of_rawRange hraw' he', Option.map_map]
    rfl
  · obtain rfl := hx
    obtain ⟨hlt, hinside⟩ := Evidence.range?_inside he
    exact ⟨hlt, Nat.le_trans hinside.stop_le hstop⟩

end Resolver

namespace Scan

variable {src src' : Source} {ts ts' : List Token} {d d' : Document} {c c' : Candidate}
  {ignored wanted : List Text}

/-- Candidates that come from the same place report the same. -/
theorem report_respelled (hspaced : Token.Spaced Token.IsTame ts)
    (hclear : ∀ t ∈ ts, ∀ u ∈ ts, ¬ t.SaidIn u) (hts : List.Forall₂ Token.Respelled ts ts')
    (hsrc : src.text = Token.renderAll ts) (hsrc' : src'.text = Token.renderAll ts')
    (hsources : src.Respelled src') (hreturn : '\r' ∉ src.text) (hlisted : Token.Listed 0 ts d.indexed)
    (hlisted' : Token.Listed 0 ts' d'.indexed) (hc : c ∈ d.candidates ignored wanted)
    (hc' : c' ∈ d'.candidates ignored wanted) (h : c.Respelled c') :
    ∃ group group', report src (Lines.of src.text) d c = .ok group ∧
      report src' (Lines.of src'.text) d' c' = .ok group' ∧
      List.Forall₂ Finding.Respelled group group' := by
  unfold report
  rw [h.classify_eq hsources]
  cases hrule : c.classify src.mask with
  | none => exact ⟨[], [], rfl, rfl, .nil⟩
  | some rule =>
    have hvalue := shown_of_classify hrule
    have hvalue' : Text.isBlank c'.value = false := by rw [h.value.isBlank_eq, hvalue]
    obtain ⟨l, st, hsits, hfound, hseek⟩ :=
      Resolver.seek_clear hspaced hclear hsrc hlisted hc hvalue
    obtain ⟨l', st', hsits', -, hseek'⟩ :=
      Resolver.seek_clear (hspaced.respelled hts) (Token.clear_respelled hts hclear) hsrc' hlisted' hc' hvalue'
    -- Both places are those of one token, and a node has one place.
    obtain rfl : l' = l.moved src.text src'.text := by
      refine Token.places_unique hsits'.mem_places ?_
      have hplaces := Token.places_moved hsources.text hts 0 (by rw [List.drop_zero, hsrc])
        (by rw [Text.moved_zero, List.drop_zero, hsrc'])
      rw [Text.moved_zero] at hplaces
      rw [h.node, hplaces]
      exact List.mem_map_of_mem hsits.mem_places
    obtain ⟨e, scope, scope', hresolve, hresolve', hscope, hinside⟩ :=
      Resolver.resolve_moved hsources h hsits hfound hvalue hseek hseek'
    simp only [hresolve, hresolve']
    cases e with
    | none => exact ⟨[], [], rfl, rfl, .nil⟩
    | some e =>
      obtain ⟨hlt, hstop⟩ := hinside e rfl
      refine ⟨_, _, rfl, rfl, ?_⟩
      rw [h.kind]
      exact findings_moved hsources.text hreturn hlt hstop hscope c.kind rule

end Scan

/-- A scan of tokens without references in texts, of which no end tag says a text, does not hang on how line
breaks are spelled. Both scans return, and their records agree one by one. -/
theorem scan_line_endings {ts : List Token} (h : Token.Spaced Token.IsTame ts)
    (hclear : ∀ t ∈ ts, ∀ u ∈ ts, ¬ t.SaidIn u) (hreturn : '\r' ∉ Token.renderAll ts) {text : Text}
    (htext : Text.Respelled (Token.renderAll ts) text) (label : Text) (options : Options)
    (hd : ∀ d ∈ options.delimiters, d.Breakless) :
    ∃ records records', (scan (Token.renderAll ts) label options).1 = .ok records ∧
      (scan text label options).1 = .ok records' ∧
      List.Forall₂ (fun r r' => r'.file = r.file ∧ r.finding.Respelled r'.finding) records records' := by
  obtain ⟨ts', rfl, hts⟩ := Token.exists_respelled h.of_mem htext
  obtain ⟨d, d', hparse, hlisted, hparse', hlisted', hnodes⟩ := Document.parse_respelled h hts
  have hcandidates := Document.candidates_respelled hnodes options.ignoredTags options.attributes
  have hreports : List.Forall₂ (fun c c' => ∃ group group',
      Scan.report (Scan.source (Token.renderAll ts) options.delimiters) (Lines.of (Token.renderAll ts)) d c =
        .ok group ∧
      Scan.report (Scan.source (Token.renderAll ts') options.delimiters) (Lines.of (Token.renderAll ts')) d' c' =
        .ok group' ∧
      List.Forall₂ Finding.Respelled group group')
      (d.candidates options.ignoredTags options.attributes)
      (d'.candidates options.ignoredTags options.attributes) := by
    refine List.forall₂_iff_zip.mpr ⟨hcandidates.length_eq, fun {c c'} hmem => ?_⟩
    obtain ⟨hc, hc'⟩ := List.of_mem_zip hmem
    exact Scan.report_respelled h hclear hts rfl rfl (Scan.source_respelled htext hd) hreturn hlisted hlisted'
      hc hc' ((List.forall₂_iff_zip.mp hcandidates).2 hmem)
  obtain ⟨rs, rs', hrs, hrs', hsame⟩ := Scan.reports_respelled hreports
  refine ⟨Scan.recordsOf label (Scan.sorted rs), Scan.recordsOf label (Scan.sorted rs'), ?_, ?_,
    Scan.recordsOf_respelled label hsame⟩
  · rw [Scan.scan_eq, hparse]
    simp only [hrs]
  · rw [Scan.scan_eq, hparse']
    simp only [hrs']

/-- Line breaks between tags, inside a value with a reference, and inside a text with expressions. -/
theorem scan_line_endings_returns :
    ∃ (text : Text) (options : Options) (records records' : List Record),
      text.withReturns =
        "<div title=\"a&lt;\r\nb\">\r\n<p>[[w]]x\r\ny [[z]]</p>\r\n</div>".toList ∧
      (scan text [] options).1 = .ok records ∧ (scan text.withReturns [] options).1 = .ok records' ∧
      records.map (fun r => (r.finding.line, r.finding.character)) = [(1, 13), (3, 9), (4, 1)] ∧
      List.Forall₂ (fun r r' => r'.file = r.file ∧ r.finding.Respelled r'.finding) records records' := by
  have h : Token.Spaced Token.IsTame
      [.opening "div".toList [("title".toList, "a&lt;\nb".toList)], .text "\n".toList,
        .opening "p".toList [], .text "[[w]]x\ny [[z]]".toList, .closing "p".toList, .text "\n".toList,
        .closing "div".toList] := by decide
  have hscan : (scan "<div title=\"a&lt;\nb\">\n<p>[[w]]x\ny [[z]]</p>\n</div>".toList []
      ⟨["title".toList], some ⟨"[[".toList, "]]".toList⟩, []⟩).1 =
      .ok (List.map (fun f => ⟨[], f⟩) (List.flatten
        [[⟨"(error)".toList, "W002".toList, "Hardcoded 'title' attribute".toList, "a&lt;\nb".toList, 1, 13,
            "<div title=\"a&lt;\nb\">".toList⟩],
          [⟨"(error)".toList, "W001".toList, "Hardcoded <p> tag".toList, "x".toList, 3, 9,
            "<p>[[w]]x".toList⟩,
          ⟨"(error)".toList, "W001".toList, "Hardcoded <p> tag (continued)".toList, "y".toList, 4, 1,
            "y [[z]]</p>".toList⟩]])) :=
    Scan.scan_of_pairwise (by decide +kernel) (by decide)
  obtain ⟨records, records', hrecords, hrecords', hsame⟩ := scan_line_endings h (by decide) (by decide)
    (Text.Respelled.withReturns _) [] ⟨["title".toList], some ⟨"[[".toList, "]]".toList⟩, []⟩
    (by rintro d ⟨⟩; exact ⟨by decide, by decide⟩)
  obtain rfl := Except.ok.inj (hrecords.symm.trans hscan)
  exact ⟨_, _, _, records', by decide, hscan, hrecords', by decide, hsame⟩

/-- A text that moves when line feeds become carriage returns and line feeds. The line break before the end tag
then shrinks and is not found, and the end tag says the text behind it. -/
theorem line_endings_differ :
    ∃ (text : Text) (r r' : Record), text = "<div><b>\n</b>b</div>".toList ∧ '\r' ∉ text ∧
      (scan text [] ⟨[], none, []⟩).1 = .ok [r] ∧ (scan text.withReturns [] ⟨[], none, []⟩).1 = .ok [r'] ∧
      (r.finding.line, r.finding.character) = (2, 5) ∧ (r'.finding.line, r'.finding.character) = (2, 3) := by
  have hscan : (scan "<div><b>\n</b>b</div>".toList [] ⟨[], none, []⟩).1 =
      .ok (List.map (fun f => ⟨[], f⟩) (List.flatten
        [[⟨"(error)".toList, "W001".toList, "Hardcoded <div> tag".toList, "b".toList, 2, 5,
          "</b>b</div>".toList⟩]])) :=
    Scan.scan_of_pairwise (by decide +kernel) (by decide)
  have hscan' : (scan (Text.withReturns "<div><b>\n</b>b</div>".toList) [] ⟨[], none, []⟩).1 =
      .ok (List.map (fun f => ⟨[], f⟩) (List.flatten
        [[⟨"(error)".toList, "W001".toList, "Hardcoded <div> tag".toList, "b".toList, 2, 3,
          "</b>b</div>".toList⟩]])) :=
    Scan.scan_of_pairwise (by decide +kernel) (by decide)
  exact ⟨_, _, _, rfl, by decide, hscan, hscan', rfl, rfl⟩

end Untranslated
