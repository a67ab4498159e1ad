import Untranslated.Proofs.Markup.Lagging
import Untranslated.Proofs.Markup.Strings
import Untranslated.Proofs.Scan.Reports

/-!
# Scans of tag soup return

Markup need not fit together for a scan to return (`scan_soup`). Tags may stand in any order, attributes
may be repeated and hold references, and whitespace may stand anywhere. What does abort a scan is a text
that begins with a reference, and more (`malformed_aborts`).

A candidate that breaks a rule is the text or an attribute of a token (`Sits`). Its node is located
(`Resolver.advance_found`), and what stands at the range taken for it can be read, so that there is
evidence in it or none, but no error.
-/

namespace Untranslated

open Resolver (Source State)
open Markup

/-- The candidate is the text, or an attribute, that is written at the place. -/
inductive Sits (text : Text) (places : List (Nat × Located)) : Candidate → Located → Prop
  | text {c : Candidate} {o : Nat} {rest : Text} (hkind : c.kind = .text)
      (htext : text.drop o = c.value ++ rest)
      (hplace : (c.node, .text ⟨o, o + c.value.length⟩) ∈ places) :
      Sits text places c (.text ⟨o, o + c.value.length⟩)
  | value {c : Candidate} {k v name rest : Text} {attributes : List (Text × Text)} {o : Nat}
      (hkind : c.kind = .attribute) (hname : c.attributeName = some k) (htag : IsOpening name attributes)
      (hlast : attributes.reverse.find? (fun p => p.1 == k) = some (k, v))
      (hvalue : c.value = Reference.decode v) (htext : text.drop o = openTag name attributes ++ rest)
      (hplace : (c.node, .tag (OpenTag.writtenAt o name attributes)) ∈ places) :
      Sits text places c (.tag (OpenTag.writtenAt o name attributes))

/-- The last of the attributes of one name, before its value is decoded. -/
theorem Markup.find?_of_decoded {attributes : List (Text × Text)} {k w : Text}
    (h : (decoded attributes).reverse.find? (fun p => p.1 == k) = some (k, w)) :
    ∃ v, attributes.reverse.find? (fun p => p.1 == k) = some (k, v) ∧ w = Reference.decode v := by
  rw [decoded, ← List.map_reverse, List.find?_map] at h
  obtain ⟨⟨k', v⟩, hfind, heq⟩ := Option.map_eq_some_iff.mp h
  obtain ⟨rfl, rfl⟩ := Prod.mk.inj heq
  exact ⟨v, hfind, rfl⟩

/-- A candidate that shows something is written at one of the places. -/
theorem sits_of_mem_candidates {text : Text} {d : Document} {ts : List Token} {c : Candidate}
    {ignored wanted : List Text} (hlegible : ∀ t ∈ ts, t.IsLegible) (htext : text = Token.renderAll ts)
    (hlisted : Token.Listed 0 ts d.indexed) (hc : c ∈ d.candidates ignored wanted)
    (hvalue : Text.isBlank c.value = false) : ∃ l, Sits text (Token.places 0 0 ts) c l := by
  obtain ⟨node, hnode, hfrom⟩ := Document.mem_candidates hc
  obtain ⟨t, ht, o, rest, hdenotes, hdrop, hplace⟩ := Token.place_of_listed hlisted
    (show text.drop 0 = _ from htext) (Document.mem_indexed.mpr hnode)
  cases hdenotes with
  | @opening name attributes children =>
    obtain ⟨hkind, -, k, v, hmem, hname, hv⟩ := hfrom
    obtain ⟨⟨k', w⟩, hw, heq⟩ := List.mem_map.mp hmem
    obtain ⟨rfl, rfl⟩ := Prod.mk.inj heq
    obtain ⟨u, hlast, hdecoded⟩ := find?_of_decoded (Document.find?_of_mem_mergeAttributes hw)
    exact ⟨_, .value hkind hname (hlegible _ ht) hlast (hv.trans hdecoded) hdrop (hplace _ rfl)⟩
  | comment => cases hfrom.1
  | @text s =>
    obtain ⟨-, hkind, -, rfl⟩ := hfrom
    exact ⟨_, .text hkind hdrop (hplace _ rfl)⟩
  | space h =>
    rw [hfrom.2.2.2, Document.isBlank_shrinkSpace h] at hvalue
    cases hvalue

namespace Sits

variable {src : Source} {places : List (Nat × Located)} {c : Candidate} {l : Located}

theorem mem_places (h : Sits src.text places c l) : (c.node, l) ∈ places := by
  cases h with
  | text _ _ hplace => exact hplace
  | value _ _ _ _ _ _ hplace => exact hplace

theorem shows (h : Sits src.text places c l) (hvalue : Text.isBlank c.value = false) :
    Resolver.Shows src l := by
  cases h with
  | text _ htext _ => rwa [Resolver.Shows, Text.slice_of_drop htext]
  | value => trivial

end Sits

namespace Resolver

variable {src : Source} {P : Char → Prop} {Q T : Text → Prop} {R : Span → Span → Prop} {d : Document}
  {ts : List Token} {c : Candidate} {l l' : Located} {st : State}

/-- At the start, nothing is left behind. -/
theorem behind_start (h : Token.Spaced (Token.IsSoup Q T) ts) (htext : src.text = Token.renderAll ts)
    (d : Document) : Behind P Q T src (State.start src d) [] ts where
  synced := Synced.start src d
  cursor_le := Nat.zero_le _
  rest := by rw [List.nil_append, ← htext]; rfl
  isLag := .nil
  ends _ _ _ := .inl rfl
  soup := h

/-- A range of the source that can be read. -/
def Readable (src : Source) (r : Span) : Prop :=
  r.stop ≤ src.text.length ∧ Reference.overlong? (Text.slice src.text r.start r.stop) = none

/-- The attribute that a candidate comes from has a value, which can be read. -/
theorem attribute_sits {k v name rest : Text} {attributes : List (Text × Text)} {o : Nat}
    (htag : IsOpening name attributes)
    (hlast : attributes.reverse.find? (fun p => p.1 == k) = some (k, v))
    (htext : src.text.drop o = openTag name attributes ++ rest)
    (hvalue : Text.isBlank (Reference.decode v) = false) :
    ∃ a, (OpenTag.writtenAt o name attributes).attribute? k = some a ∧ a.value.start < a.value.stop ∧
      Readable src a.value := by
  obtain ⟨a, ha, hattribute, hslice⟩ := OpenTag.attribute?_last htag.attribute_name htext hlast
  have hstop := (OpenTag.attributesFrom_written (OpenTag.drop_openTag htext)).2 a ha
  have hmem : (k, v) ∈ attributes := List.mem_reverse.mp (List.mem_of_find?_eq_some hlast)
  have hlt : a.value.start < a.value.stop := by
    refine Nat.lt_of_not_le fun hle => ?_
    rw [Text.slice, Nat.sub_eq_zero_of_le hle, List.take_zero] at hslice
    rw [← hslice] at hvalue
    simp [Reference.decode, Text.isBlank] at hvalue
  exact ⟨a, hattribute, hlt, hstop, by rw [hslice]; exact htag.readable _ hmem⟩

/-- The range that is taken for a candidate can be read. -/
theorem rangeIn_sits (hR : ∀ s r, R s r → Readable src r) (h : Sits src.text (Token.places 0 0 ts) c l)
    (hvalue : Text.isBlank c.value = false) (hfound : Found R l l') (st : State) :
    ∃ r scope, (rangeIn src c l' st).1 = .ok (r, scope) ∧ Readable src r := by
  cases h with
  | text hkind _ _ =>
    cases hfound with
    | @text _ r hr =>
      refine ⟨r, none, ?_, hR _ _ hr⟩
      simp only [rangeIn, hkind]
  | @value k v name rest attributes o hkind hname htag hlast hdecoded htext _ =>
    cases hfound
    obtain ⟨a, hattribute, hlt, hread⟩ := attribute_sits htag hlast htext (hdecoded ▸ hvalue)
    exact ⟨a.value, _, by rw [rangeIn_attribute st hkind hname hattribute (Nat.ne_of_lt hlt)], hread⟩

/-- A candidate that shows something is sought with success. -/
theorem seek_sits (hP : ∀ c, Text.isInvisible c = true → P c) (hleaves : Leaves P Q T src R)
    (hsoup : Token.Spaced (Token.IsSoup Q T) ts) (htext : src.text = Token.renderAll ts)
    (hlisted : Token.Listed 0 ts d.indexed) (h : Sits src.text (Token.places 0 0 ts) c l)
    (hvalue : Text.isBlank c.value = false) :
    ∃ l' st, seek src c (State.start src d) = (.ok l', st) ∧ Found R l l' := by
  exact advance_found hP hleaves (behind_start hsoup htext d) hlisted h.mem_places (h.shows hvalue)

/-- Once its node is found, a candidate is answered. -/
theorem resolve_sits (hR : ∀ s r, R s r → Readable src r) (h : Sits src.text (Token.places 0 0 ts) c l)
    (hvalue : Text.isBlank c.value = false) {st₁ : State} (hseek : seek src c st = (.ok l', st₁))
    (hfound : Found R l l') : ∃ r, (resolve src c st).1 = .ok r := by
  obtain ⟨r, scope, hrange, hstop, hread⟩ := rangeIn_sits hR h hvalue hfound st₁
  obtain ⟨e, he⟩ := Evidence.range?_ok src.mask hstop hread
  exact ⟨_, resolve_of_rawRange (by rw [rawRange_of_seek hseek, hrange]) he⟩

/-- In tag soup a text is found where no reference stands. -/
theorem leaves_soup (src : Source) (Q T : Text → Prop) :
    Leaves (fun _ => True) Q T src fun _ r => Readable src r := by
  intro st st' lag s ts r h _ hmeets hl
  obtain ⟨⟨hstop, hamp⟩, hnext⟩ := h.leave_any (fun _ => trivial) hl hmeets
  exact ⟨⟨hstop, Reference.overlong?_eq_none hamp⟩, hnext⟩

end Resolver

namespace Scan

variable {src : Source} {lines : Lines} {d : Document} {ts : List Token} {c : Candidate}
  {ignored wanted : List Text} {P : Char → Prop} {Q T : Text → Prop} {R : Span → Span → Prop}

/-- Every candidate of tag soup is answered. -/
theorem report_soup (hP : ∀ c, Text.isInvisible c = true → P c) (hleaves : Resolver.Leaves P Q T src R)
    (hR : ∀ s r, R s r → Resolver.Readable src r) (hlegible : ∀ t ∈ ts, t.IsLegible)
    (hsoup : Token.Spaced (Token.IsSoup Q T) ts) (htext : src.text = Token.renderAll ts)
    (hlisted : Token.Listed 0 ts d.indexed)
    (hc : c ∈ d.candidates ignored wanted) : ∃ group, report src lines d c = .ok group := by
  unfold report
  cases hrule : c.classify src.mask with
  | none => exact ⟨[], rfl⟩
  | some rule =>
    have hvalue := shown_of_classify hrule
    obtain ⟨l, hsits⟩ := sits_of_mem_candidates hlegible htext hlisted hc hvalue
    obtain ⟨l', st, hseek, hfound⟩ :=
      Resolver.seek_sits hP hleaves hsoup htext hlisted hsits hvalue
    obtain ⟨r, hr⟩ := Resolver.resolve_sits hR hsits hvalue hseek hfound
    simp only [hr]
    cases r with
    | none => exact ⟨[], rfl⟩
    | some e => exact ⟨_, rfl⟩

/-- A scan whose candidates are all answered returns. -/
theorem scan_returns {text : Text} {options : Options} (hparse : Document.parse [] text = .ok d)
    (h : ∀ c ∈ d.candidates options.ignoredTags options.attributes,
      ∃ group, report (source text options.delimiters) (Lines.of text) d c = .ok group) (label : Text) :
    ∃ records, (scan text label options).1 = .ok records := by
  obtain ⟨rs, hrs⟩ := reports_ok h
  rw [scan_eq, hparse]
  simp only [hrs]
  exact ⟨_, rfl⟩

end Scan

/-- A scan of tag soup returns. -/
theorem scan_soup {ts : List Token} (h : Token.Spaced Token.IsTame ts) (label : Text)
    (options : Options) :
    ∃ records, (scan (Token.renderAll ts) label options).1 = .ok records := by
  have hsoup : Token.Spaced (Token.IsSoup (fun _ => True) fun _ => True) ts :=
    h.imp fun t _ ht => ht.isSoup (fun _ _ => trivial) fun _ _ => trivial
  obtain ⟨d, hparse, hlisted⟩ := Document.parse_soup (fun _ => Token.IsTame.isLegible) (fun _ ht => ht.2) h
  refine Scan.scan_returns hparse (fun c hc => ?_) label
  exact Scan.report_soup (fun _ _ => trivial) (Resolver.leaves_soup _ _ _) (fun _ _ => id)
    (fun t ht => (h.of_mem t ht).isLegible) hsoup rfl hlisted hc

/-- A stray end tag, an element that is never closed, a void element, a repeated attribute with a
reference, and plain space. -/
theorem scan_soup_unclosed :
    ∃ ts : List Token, Token.renderAll ts =
        "</b><p title=\"x\" title=\"a&lt;b\"> \n<br>hi<i>x</p>i".toList ∧
      Token.Spaced Token.IsTame ts ∧
      ∃ records, (scan (Token.renderAll ts) [] ⟨["title".toList], none, []⟩).1 = .ok records := by
  have h : Token.Spaced Token.IsTame
      [.closing "b".toList,
        .opening "p".toList [("title".toList, "x".toList), ("title".toList, "a&lt;b".toList)],
        .text " \n".toList, .opening "br".toList [], .text "hi".toList, .opening "i".toList [],
        .text "x".toList, .closing "p".toList, .text "i".toList] := by decide
  exact ⟨_, by decide, h, scan_soup h [] _⟩

/-- Not every text is scanned. A text that begins with a reference is not found again; texts on both
sides of an end tag that has no name, or that is of a void element, become one text, which is written
nowhere; and a marked section of an unknown kind is not read. -/
theorem malformed_aborts :
    (scan "<p>&#65;</p>".toList [] ⟨[], none, []⟩).1 = .error (.locate (.notFound "A".toList 3)) ∧
    (scan "<p>a</>b</p>".toList [] ⟨[], none, []⟩).1 = .error (.locate (.notFound "ab".toList 3)) ∧
    (scan "<p><br>a</br>b</p>".toList [] ⟨[], none, []⟩).1 =
      .error (.locate (.notFound "ab".toList 7)) ∧
    (scan "<![foo]>".toList [] ⟨[], none, []⟩).1 = .error (.markup (.unknownSection "foo".toList)) := by
  decide +kernel

end Untranslated
