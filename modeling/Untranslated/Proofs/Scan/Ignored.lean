import Untranslated.Proofs.Markup.Extent
import Untranslated.Proofs.Scan.Order
import Untranslated.Proofs.Scan.Soup

/-!
# Ignored content is not reported

In nested markup without references, of which no end tag says a text, every text is found where it is
written, although the whitespace between tags shrinks when the document is built. What is reported is then
written outside of all ignored elements (`scan_ignored`).

End tags do say texts. Whitespace inside an ignored element may shrink to something that is not written
there; the resolver then stays behind, and the text behind the element is found in the element's end tag
(`ignored_reported`).
-/

namespace Untranslated

open Resolver (Source State)
open Markup

namespace Markup

/-- The text shows something, and the end tag has all of it. -/
def Token.SaidIn : Token → Token → Prop
  | .text s, .closing name => Text.isBlank s = false ∧ Text.squash s <:+: closeTag name
  | _, _ => False

instance : DecidableRel Token.SaidIn
  | .text s, .closing name =>
    inferInstanceAs (Decidable (Text.isBlank s = false ∧ Text.squash s <:+: closeTag name))
  | .text _, .opening _ _ | .text _, .comment _ | .text _, .text _ => instDecidableFalse
  | .opening _ _, _ | .closing _, _ | .comment _, _ => instDecidableFalse

/-- No end tag of the document says one of its texts. -/
def Clear (doc : List Markup) : Prop :=
  ∀ t ∈ tokensAll [] doc, ∀ u ∈ tokensAll [] doc, ¬ t.SaidIn u

instance (doc : List Markup) : Decidable (Clear doc) :=
  inferInstanceAs (Decidable (∀ t ∈ tokensAll [] doc, ∀ u ∈ tokensAll [] doc, ¬ t.SaidIn u))

end Markup

namespace Resolver

/-- The text is found where it is written, and can be read there. -/
def Exactly (src : Source) (s r : Span) : Prop := r = s ∧ Readable src r

/-- Where no end tag says a text, each text is found where it is written. -/
theorem leaves_exact (src : Source) {Q T : Text → Prop}
    (hsaid : ∀ s name, T s → Q name → Text.isBlank s = false → ¬ Text.squash s <:+: closeTag name) :
    Leaves (fun c => Text.isInvisible c = true) Q T src (Exactly src) := by
  intro st st' lag s ts r h hs hmeets hl
  obtain ⟨-, hplain, hT⟩ := h.soup.1
  obtain ⟨rfl, hnext⟩ := h.leave_exact hs (fun name hQ => hsaid s name hT hQ hs) hl hmeets
  refine ⟨⟨rfl, ?_, ?_⟩, hnext⟩
  · have hlength := h.length_eq
    rw [Token.renderAll_cons, List.length_append, Token.render] at hlength
    simp only
    omega
  · simp only
    rw [Text.slice_of_drop h.drop_text]
    exact Reference.overlong?_eq_none fun c hc => (hplain c hc).2.2

theorem leaves_clear (src : Source) {ts : List Token} (h : ∀ t ∈ ts, ∀ u ∈ ts, ¬ t.SaidIn u) :
    Leaves (fun c => Text.isInvisible c = true) (fun name => .closing name ∈ ts) (fun s => .text s ∈ ts) src
      (Exactly src) := by
  refine leaves_exact src fun s name hs hname hshown hpart => ?_
  have hsaid : Token.SaidIn (.text s) (.closing name) := ⟨hshown, hpart⟩
  exact h _ hs _ hname hsaid

/-- A node that is found exactly is found at its place. -/
theorem Found.eq_of_exact {src : Source} {l l' : Located} (h : Found (Exactly src) l l') : l' = l := by
  cases h with
  | tag => rfl
  | text h => rw [h.1]

end Resolver

namespace Scan

variable {src : Source} {d : Document} {c : Candidate} {ignored wanted : List Text}
  {Q T : Text → Prop} {ts : List Token}

/-- Where each text is found where it is written, what a candidate reports stands at a place of the
tokens. -/
theorem report_exact
    (hleaves : Resolver.Leaves (fun c => Text.isInvisible c = true) Q T src (Resolver.Exactly src))
    (hlegible : ∀ t ∈ ts, t.IsLegible) (hsoup : Token.Spaced (Token.IsSoup Q T) ts)
    (htext : src.text = Token.renderAll ts) (hlisted : Token.Listed 0 ts d.indexed)
    (hc : c ∈ d.candidates ignored wanted) {group : List Finding}
    (h : report src (Lines.of src.text) d c = .ok group) (hne : group ≠ []) :
    ∃ l, (c.node, l) ∈ Token.places 0 0 ts ∧
      Between src.text l.span.start l.span.stop group := by
  obtain ⟨rule, e, node, place, st, hrule, -, hseek, -⟩ := report_eq_findings h hne
  obtain ⟨place', st', hplace, hbetween, -⟩ := report_place h hne
  have hvalue := shown_of_classify hrule
  obtain ⟨l, hsits⟩ := sits_of_mem_candidates hlegible htext hlisted hc hvalue
  obtain ⟨l', st'', hfound, hexact⟩ :=
    Resolver.seek_sits (fun _ => id) hleaves hsoup htext hlisted hsits hvalue
  obtain rfl := hexact.eq_of_exact
  obtain ⟨rfl, -⟩ : place' = l' ∧ st' = st'' := by
    rw [hfound] at hplace
    simpa [eq_comm] using hplace
  exact ⟨place', hsits.mem_places, hbetween⟩

end Scan

/-- A scan of nested markup without references, of which no end tag says a text, returns, and no record is
in the extent of an ignored element. -/
theorem scan_ignored {doc : List Markup} (h : EachAll Token.IsTame doc) (hclear : Clear doc)
    (label : Text) (options : Options) :
    ∃ records, (scan (renderAll doc) label options).1 = .ok records ∧
      ∀ r ∈ records, ∀ e ∈ extentsAll (options.ignoredTags.map Text.lower) 0 doc,
        r.finding.offset (renderAll doc) + r.finding.literal.length ≤ e.start ∨
          e.stop ≤ r.finding.offset (renderAll doc) := by
  have htext : (Scan.source (renderAll doc) options.delimiters).text =
      Token.renderAll (tokensAll [] doc) := (renderAll_tokensAll doc).symm
  have hparse := Document.parse_nested (fun _ => Token.IsTame.isLegible) (fun _ ht => ht.2) h
  have hlisted := Document.listed_nested (fun _ => Token.IsTame.isLegible) (fun _ ht => ht.2) h
  have hlegible : ∀ t ∈ tokensAll [] doc, t.IsLegible := fun t ht => (h.spaced.of_mem t ht).isLegible
  have hsoup : Token.Spaced (Token.IsSoup (fun name => .closing name ∈ tokensAll [] doc)
      fun s => .text s ∈ tokensAll [] doc) (tokensAll [] doc) :=
    h.spaced.imp fun t ht htame => htame.isSoup (fun _ heq => heq ▸ ht) fun _ heq => heq ▸ ht
  have hleaves := Resolver.leaves_clear (Scan.source (renderAll doc) options.delimiters) hclear
  obtain ⟨records, hscan⟩ := Scan.scan_returns hparse (fun c hc =>
    Scan.report_soup (fun _ => id) hleaves (fun _ _ hr => hr.2) hlegible hsoup htext hlisted hc) label
  refine ⟨records, hscan, fun r hr e he => ?_⟩
  obtain ⟨d, rs, hparsed, hreports, rfl⟩ := Scan.scan_ok hscan
  obtain rfl := Except.ok.inj (hparse.symm.trans hparsed)
  obtain ⟨⟨c, group⟩, hmem, hr⟩ := List.mem_flatMap.mp hr
  obtain ⟨f, hf, rfl⟩ := List.mem_map.mp hr
  obtain ⟨hc, hreport⟩ := Scan.mem_reports hreports (Scan.mem_sorted.mp hmem)
  obtain ⟨l, hl, hbetween⟩ := Scan.report_exact hleaves hlegible hsoup htext hlisted hc hreport
    (List.ne_nil_of_mem hf)
  obtain ⟨o, hstands, hlo, -, hhi⟩ := hbetween f hf
  have hoffset : f.offset (renderAll doc) = o := hstands.offset_eq
  rcases outside_extentsAll hc hl e he with hapart | hapart
  · left
    simp only
    omega
  · right
    simp only
    omega

/-- A text that is repeated behind an ignored element, which begins with space that shrinks. -/
theorem scan_ignored_repeated :
    ∃ (doc : List Markup) (options : Options) (records : List Record),
      renderAll doc = "<div>\n  <b> \n<i>Bob</i></b>Bob</div>".toList ∧
      EachAll Token.IsTame doc ∧ Clear doc ∧
      extentsAll (options.ignoredTags.map Text.lower) 0 doc = [⟨8, 27⟩] ∧
      (scan (renderAll doc) [] options).1 = .ok records ∧
      records.map (fun r => (r.finding.offset (renderAll doc), r.finding.literal)) =
        [(27, "Bob".toList)] ∧
      ∀ r ∈ records, ∀ e ∈ extentsAll (options.ignoredTags.map Text.lower) 0 doc,
        r.finding.offset (renderAll doc) + r.finding.literal.length ≤ e.start ∨
          e.stop ≤ r.finding.offset (renderAll doc) := by
  have hdoc : EachAll Token.IsTame
      [.element "div".toList []
        [.text "\n  ".toList,
          .element "b".toList [] [.text " \n".toList, .element "i".toList [] [.text "Bob".toList]],
          .text "Bob".toList]] := by decide
  have hscan : (scan "<div>\n  <b> \n<i>Bob</i></b>Bob</div>".toList [] ⟨[], none, ["B".toList]⟩).1 =
      .ok (List.map (fun f => ⟨[], f⟩) (List.flatten
        [[⟨"(error)".toList, "W001".toList, "Hardcoded <div> tag".toList, "Bob".toList, 3, 15,
          "<i>Bob</i></b>Bob</div>".toList⟩]])) :=
    Scan.scan_of_pairwise (by decide +kernel) (by decide)
  obtain ⟨records, hrecords, hall⟩ := scan_ignored hdoc (by decide) [] ⟨[], none, ["B".toList]⟩
  obtain rfl := Except.ok.inj (hrecords.symm.trans hscan)
  exact ⟨_, _, _, by decide, hdoc, by decide, by decide, hscan, by decide, hall⟩

/-- A record in the extent of an ignored element. The element holds space that shrinks, and its end tag
says the text behind it. -/
theorem ignored_reported :
    ∃ (doc : List Markup) (options : Options) (r : Record),
      renderAll doc = "<div><b> \n</b>b</div>".toList ∧ EachAll Token.IsTame doc ∧
      (scan (renderAll doc) [] options).1 = .ok [r] ∧
      extentsAll (options.ignoredTags.map Text.lower) 0 doc = [⟨5, 14⟩] ∧
      r.finding.offset (renderAll doc) = 12 ∧ r.finding.literal = "b".toList := by
  have hscan : (scan "<div><b> \n</b>b</div>".toList [] ⟨[], none, ["b".toList]⟩).1 =
      .ok (List.map (fun f => ⟨[], f⟩) (List.flatten
        [[⟨"(error)".toList, "W001".toList, "Hardcoded <div> tag".toList, "b".toList, 2, 3,
          "</b>b</div>".toList⟩]])) :=
    Scan.scan_of_pairwise (by decide +kernel) (by decide)
  exact ⟨[.element "div".toList []
      [.element "b".toList [] [.text " \n".toList], .text "b".toList]], ⟨[], none, ["b".toList]⟩, _,
    by decide, by decide, hscan, by decide, by decide, rfl⟩

end Untranslated
