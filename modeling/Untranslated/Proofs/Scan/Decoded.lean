import Untranslated.Proofs.Locate.ValuePattern
import Untranslated.Proofs.Scan.Reports

/-!
# Texts are written where they are found

The source says a value where its references are decoded and its whitespace collapsed (`Says`). A text is
found in one of two ways (`Resolver.locateText_taken`): its value stands at the cursor or behind the gap
there, as it is; or the visible places behind the cursor at which the value may be written are tried one
by one, and the first that says the value is taken, or the first of all if none does.

So the range that a scan takes for a text says its value just if one of these ways comes to a place that
does (`IsSaid`), and always if the range holds no reference (`scan_texts_said`). That the search falls
back on a place that says something else shows where it reads on past the end of a text
(`bracket_taken_unsaid`).
-/

namespace Untranslated

namespace Resolver

variable {src : Source} {d : Document}

/-! ## One text -/

/-- The range of the source says the value, references decoded and whitespace collapsed. -/
def Says (text value : Text) (s : Span) : Prop :=
  Text.squash (Reference.decode (Text.slice text s.start s.stop)) = Text.squash value

instance (text value : Text) (s : Span) : Decidable (Says text value s) :=
  inferInstanceAs (Decidable (_ = _))

/-- The places behind the cursor at which the value may be written, those in hidden ranges left out. -/
def visiblePlaces (text value : Text) (cursor : Nat) : List Span :=
  ((ValuePattern.ofValue value).findAll cursor 0 (text.drop cursor)).filter fun s =>
    !(Hidden.spans text cursor).any fun r => r.contains s.start

/-- The value stands, as it is, where a text is looked for first. -/
def Stands (src : Source) (value : Text) (cursor : Nat) : Prop :=
  Text.startsWith value (src.text.drop (textStart src value cursor)) = true

instance (src : Source) (value : Text) (cursor : Nat) : Decidable (Stands src value cursor) :=
  inferInstanceAs (Decidable (_ = true))

/-- The value is said where a text is looked for: it stands there as it is and says itself, or else a
visible place behind the cursor says it. -/
def IsSaid (src : Source) (value : Text) (cursor : Nat) : Prop :=
  if Stands src value cursor then Text.squash (Reference.decode value) = Text.squash value
  else ∃ p ∈ visiblePlaces src.text value cursor, Says src.text value p

instance (src : Source) (value : Text) (cursor : Nat) : Decidable (IsSaid src value cursor) :=
  inferInstanceAs (Decidable (if Stands src value cursor
    then Text.squash (Reference.decode value) = Text.squash value
    else ∃ p ∈ visiblePlaces src.text value cursor, Says src.text value p))

/-- The range is one that looking for the value from the cursor comes to. -/
structure Taken (src : Source) (value : Text) (cursor : Nat) (s : Span) : Prop where
  standing : Stands src value cursor → Text.slice src.text s.start s.stop = value
  mem : ¬ Stands src value cursor → s ∈ visiblePlaces src.text value cursor
  said : ¬ Stands src value cursor → (∃ p ∈ visiblePlaces src.text value cursor, Says src.text value p) →
    Says src.text value s

namespace Taken

variable {value : Text} {cursor : Nat} {s : Span}

/-- What is taken says the value just if something does. -/
theorem says_iff (h : Taken src value cursor s) : Says src.text value s ↔ IsSaid src value cursor := by
  unfold IsSaid
  split
  · rename_i hstands
    rw [Says, h.standing hstands]
  · rename_i hstands
    exact ⟨fun hsays => ⟨s, h.mem hstands, hsays⟩, h.said hstands⟩

/-- What is taken and holds no reference has the words of the value. -/
theorem says_of_no_reference (h : Taken src value cursor s)
    (hamp : '&' ∉ Text.slice src.text s.start s.stop) : Says src.text value s := by
  rw [Says, Reference.decode_eq_self fun c hc => ne_of_mem_of_not_mem hc hamp]
  by_cases hstands : Stands src value cursor
  · rw [h.standing hstands]
  · obtain ⟨j, n, hn, rfl⟩ := ValuePattern.mem_findAll (List.mem_filter.mp (h.mem hstands)).1
    have hreads := (ValuePattern.matchLength?_reads hn).2
    rw [List.drop_drop, show ((src.text.drop (cursor + j)).take n) =
      Text.slice src.text (cursor + j) (cursor + j + n) by rw [Text.slice, Nat.add_sub_cancel_left]]
      at hreads
    rw [Text.squash, Text.squash, (ValuePattern.words_of_reads hreads hamp).1]

end Taken

theorem saysWanted_ok {value piece : Text} {same : Bool}
    (h : saysWanted (Text.squash value) piece = .ok same) :
    same = true ↔ Text.squash (Reference.decode piece) = Text.squash value := by
  unfold saysWanted at h
  split at h
  · cases h
  · cases h
    exact beq_iff_eq

/-- The best place is a visible one that says the value, unless there is none: then it is the fallback, or
else the first visible one. -/
theorem bestPlace_says {value : Text} {fallback : Option Span} {places : List Span} {st : State}
    {s : Span} (h : (bestPlace src (Text.squash value) fallback places st).1 = .ok (some s)) :
    (s ∈ places.filter (fun p => !st.hides src p.start) ∧ Says src.text value s) ∨
      fallback.or (places.filter fun p => !st.hides src p.start).head? = some s ∧
        ∀ p ∈ places.filter fun p => !st.hides src p.start, ¬ Says src.text value p := by
  induction places generalizing fallback st with
  | nil => exact .inr ⟨by simpa using Except.ok.inj h, by simp⟩
  | cons p places ih =>
    simp only [bestPlace, isHidden_eq] at h
    cases hhides : st.hides src p.start with
    | true =>
      rw [hhides] at h
      simpa [hhides] using ih h
    | false =>
      rw [hhides] at h
      rw [List.filter_cons_of_pos (by simp [hhides]), List.head?_cons]
      simp only at h
      split at h
      · cases h
      · rename_i hsays
        cases h
        exact .inl ⟨List.mem_cons_self, (saysWanted_ok hsays).mp rfl⟩
      · rename_i hsays
        have hnot : ¬ Says src.text value p := fun hsaid => by cases (saysWanted_ok hsays).mpr hsaid
        have hrest := ih h
        simp only [State.hides_refresh] at hrest
        rcases hrest with ⟨hmem, hsaid⟩ | ⟨hfirst, hrest⟩
        · exact .inl ⟨List.mem_cons_of_mem p hmem, hsaid⟩
        · refine .inr ⟨?_, List.forall_mem_cons.mpr ⟨hnot, hrest⟩⟩
          cases fallback <;> simpa using hfirst

/-- A text is found where it stands as it is, or by trying the visible places. -/
theorem locateText_taken {value : Text} {strict : Bool} {st : State} {l : Located}
    (hsync : Synced src st) (h : (locateText src value strict st).1 = .ok (some l)) :
    ∃ s, l = .text s ∧ Taken src value st.cursor s := by
  obtain ⟨_, -, he⟩ := locateText_eq src value strict st
  rw [he] at h
  simp only [textResult] at h
  split at h
  · rename_i hstarts
    cases h
    refine ⟨_, rfl, fun _ => ?_, fun hnot => absurd hstarts hnot, fun hnot => absurd hstarts hnot⟩
    obtain ⟨rest, hrest⟩ := Text.startsWith_iff.mp hstarts
    simp [Text.slice, ← hrest]
  · rename_i hstarts
    split at h
    · cases h
    · split at h
      · cases h
      · rename_i s hsearch
        cases h
        have hplaces : ((ValuePattern.ofValue value).findAll st.cursor 0
            (src.text.drop st.cursor)).filter (fun p => !st.hides src p.start) =
              visiblePlaces src.text value st.cursor := by
          refine List.filter_congr fun p hp => ?_
          rw [hsync.hides (ValuePattern.findAll_inside p hp).lo_le]
        rw [search, searchFrom_eq_bestPlace, List.take_length] at hsearch
        have hbest := bestPlace_says hsearch
        rw [hplaces] at hbest
        refine ⟨s, rfl, fun hstands => absurd hstands hstarts, fun _ => ?_, fun _ => ?_⟩
        · rcases hbest with ⟨hmem, -⟩ | ⟨hfirst, -⟩
          · exact hmem
          · exact List.mem_of_head? (by simpa using hfirst)
        · rintro ⟨p, hp, hsays⟩
          rcases hbest with ⟨-, hsaid⟩ | ⟨-, hnone⟩
          · exact hsaid
          · exact absurd hsays (hnone p hp)
      · split at h <;> cases h

/-! ## The cursor before a node -/

/-- Where the cursor stands behind the places found so far. -/
def endOf (found : List (Nat × Located)) (start : Nat) : Nat :=
  (found.getLast?.map fun p => p.2.span.stop).getD start

/-- A node that is found is looked for from the end of the place found last before it. -/
theorem advanceTraced_found {target : Nat} {missing : Nat → LocateError} {nodes : List (Nat × Node)}
    {st st' : State} {l : Located} (hsync : Synced src st) (hle : st.cursor ≤ src.text.length)
    (h : (advanceTraced src target missing nodes st).1 = (.ok l, st')) :
    ∃ before node st₁, (advanceTraced src target missing nodes st).2 = before ++ [(target, l)] ∧
      (target, node) ∈ nodes ∧ Synced src st₁ ∧ st₁.cursor = endOf before st.cursor ∧
      (locate src true st₁ node).1 = .ok (some l) := by
  induction nodes generalizing st with
  | nil => cases h
  | cons n rest ih =>
    obtain ⟨i, node⟩ := n
    obtain ⟨asked, hlooked, hstate⟩ :=
      locate_state src (i == target) { st with remaining := rest } node
    have hsync' : Synced src { st with remaining := rest } := hsync
    have hnext := hsync'.locate hle (i == target) node
    have hcursor := (locate_cursor (show State.cursor { st with remaining := rest } ≤ _ from hle)
      (i == target) node).2
    rw [advanceTraced] at h ⊢
    generalize hlocate : locate src (i == target) { st with remaining := rest } node = located at *
    obtain ⟨r, st₁⟩ := located
    simp only at hstate hnext hcursor
    rcases r with e | m
    · cases h
    rcases m with - | m
    · -- A node that is passed over leaves the cursor where it is.
      have hsame : st₁.cursor = st.cursor := by rw [hstate]; exact hlooked.cursor
      obtain ⟨before, node', st₂, htrace, hmem, hsync₂, hend, hfound⟩ :=
        ih (show Synced src { st₁ with last := some (i, none) } from hnext) hcursor h
      refine ⟨before, node', st₂, htrace, List.mem_cons_of_mem _ hmem, hsync₂, ?_, hfound⟩
      rw [hend, ← hsame]
    · simp only at h ⊢
      split at h
      · rename_i htarget
        rw [if_pos htarget]
        rw [beq_iff_eq] at htarget
        subst htarget
        cases h
        refine ⟨[], node, { st with remaining := rest }, rfl, List.mem_cons_self, hsync', rfl, ?_⟩
        rw [beq_self_eq_true] at hlocate
        rw [hlocate]
      · rename_i htarget
        rw [if_neg htarget]
        obtain ⟨before, node', st₂, htrace, hmem, hsync₂, hend, hfound⟩ :=
          ih (show Synced src { st₁ with last := some (i, some m) } from hnext) hcursor h
        refine ⟨(i, m) :: before, node', st₂, by simp [htrace], List.mem_cons_of_mem _ hmem, hsync₂, ?_,
          hfound⟩
        rw [hend, hstate]
        cases before with
        | nil => rfl
        | cons b before => simp [endOf, List.getLast?_cons]

/-- A text that is sought from the start and found is taken behind the place found last before it. -/
theorem seek_taken {c : Candidate} {place : Located} {st : State} {value : Text}
    (hnode : d.nodes[c.node]? = some (.leaf .text value))
    (h : seek src c (State.start src d) = (.ok place, st)) :
    ∃ s before, place = .text s ∧
      (seekTraced src c (State.start src d)).2 = before ++ [(c.node, .text s)] ∧
      Taken src value (endOf before 0) s := by
  rw [← seekTraced_fst] at h
  have hadvance : (advanceTraced src c.node (missing c) d.indexed (State.start src d)).1 =
      (.ok place, st) := h
  obtain ⟨before, node, st₁, htrace, hmem, hsync, hcursor, hfound⟩ :=
    advanceTraced_found (Synced.start src d) (Nat.zero_le _) hadvance
  obtain rfl : node = .leaf .text value :=
    Option.some.inj ((Document.mem_indexed.mp hmem).symm.trans hnode)
  obtain ⟨s, rfl, htaken⟩ := locateText_taken hsync hfound
  refine ⟨s, before, rfl, htrace, ?_⟩
  rwa [show endOf before 0 = st₁.cursor from hcursor.symm]

end Resolver

open Resolver (Source State)

namespace Scan

/-- The candidates that break a rule. -/
def accepted (src : Source) (cs : List Candidate) : List Candidate :=
  cs.filter fun c => (c.classify src.mask).isSome

/-- In a run that returns, every candidate that breaks a rule is resolved. -/
theorem resolve_of_mem_accepted {src : Source} {lines : Lines} {d : Document} {cs : List Candidate}
    {rs : List (Candidate × List Finding)} (h : reports src lines d cs = .ok rs) {c : Candidate}
    (hc : c ∈ accepted src cs) : ∃ r, (Resolver.resolve src c (State.start src d)).1 = .ok r := by
  obtain ⟨hmem, hrule⟩ := List.mem_filter.mp hc
  obtain ⟨group, hgroup⟩ := report_of_mem h hmem
  obtain ⟨rule, hrule⟩ := Option.isSome_iff_exists.mp hrule
  rw [report, hrule] at hgroup
  cases hresolve : (Resolver.resolve src c (State.start src d)).1 with
  | error e => rw [hresolve] at hgroup; cases hgroup
  | ok r => exact ⟨r, rfl⟩

/-- In a run that returns, the candidates take the ranges that each takes alone. -/
theorem ranges_accepted {src : Source} {lines : Lines} {d : Document} {ignored wanted : List Text}
    {rs : List (Candidate × List Finding)}
    (h : reports src lines d (d.candidates ignored wanted) = .ok rs) :
    Resolver.ranges src (accepted src (d.candidates ignored wanted)) (State.start src d) =
      (accepted src (d.candidates ignored wanted)).map fun c =>
        (Resolver.rawRange src c (State.start src d)).1 :=
  (Resolver.Reached.start src d).ranges (fun _ _ => Nat.zero_le _)
    ((d.pairwise_candidates ignored wanted).sublist List.filter_sublist)
    fun _ => resolve_of_mem_accepted h

end Scan

/-- In a scan that returns, take a text that breaks a rule, and the place found last before it. The range
taken for the text says its value, decoded and up to whitespace, just if the value is said where it is
looked for behind that place. A range without references always says the value. -/
theorem scan_texts_said {text label : Text} {options : Options} {records : List Record} {d : Document}
    (hparse : Document.parse [] text = .ok d) (h : (scan text label options).1 = .ok records) {i : Nat}
    {c : Candidate}
    (hc : (Scan.accepted (Scan.source text options.delimiters)
      (d.candidates options.ignoredTags options.attributes))[i]? = some c) (hkind : c.kind = .text) :
    ∃ s before,
      (Resolver.ranges (Scan.source text options.delimiters)
        (Scan.accepted (Scan.source text options.delimiters)
          (d.candidates options.ignoredTags options.attributes))
        (State.start (Scan.source text options.delimiters) d))[i]? = some (.ok (s, none)) ∧
      (Resolver.seekTraced (Scan.source text options.delimiters) c
        (State.start (Scan.source text options.delimiters) d)).2 = before ++ [(c.node, .text s)] ∧
      (Resolver.Says text c.value s ↔ Resolver.IsSaid (Scan.source text options.delimiters) c.value
        (Resolver.endOf before 0)) ∧
      ('&' ∉ Text.slice text s.start s.stop → Resolver.Says text c.value s) := by
  obtain ⟨d', rs, hparse', hreports, -⟩ := Scan.scan_ok h
  obtain rfl : d' = d := Except.ok.inj (hparse'.symm.trans hparse)
  have hmem := List.mem_of_getElem? hc
  obtain ⟨r, hresolve⟩ := Scan.resolve_of_mem_accepted hreports hmem
  obtain ⟨place, st₁, s, scope, st₂, hseek, hrange, -⟩ :=
    Resolver.resolve_ok (Prod.ext hresolve rfl)
  obtain ⟨node, hnode, hfrom⟩ := Document.mem_candidates (List.mem_filter.mp hmem).1
  match node with
  | .element name attributes children => exact absurd (hkind.symm.trans hfrom.1) (by decide)
  | .leaf kind value =>
    obtain ⟨rfl, -, -, rfl⟩ := hfrom
    obtain ⟨s', before, rfl, htrace, htaken⟩ := Resolver.seek_taken hnode hseek
    refine ⟨s', before, ?_, htrace, htaken.says_iff, htaken.says_of_no_reference⟩
    rw [Scan.ranges_accepted hreports, List.getElem?_map, hc, Option.map_some, Resolver.rawRange, hseek]
    simp only [Resolver.rangeIn, hkind]

/-- A text with a reference and a line break, found by searching for it behind the text `x`. -/
theorem scan_texts_said_reference :
    ∃ (text : Text) (d : Document) (records : List Record) (c : Candidate) (s : Span),
      text = "<b>x</b><p>a &lt;\n b</p>".toList ∧ Document.parse [] text = .ok d ∧
      (scan text [] ⟨[], none, []⟩).1 = .ok records ∧
      (Scan.accepted (Scan.source text none) (d.candidates [] []))[1]? = some c ∧
      c.kind = .text ∧ c.value = "a <\n b".toList ∧
      (Resolver.ranges (Scan.source text none)
        (Scan.accepted (Scan.source text none) (d.candidates [] []))
        (State.start (Scan.source text none) d))[1]? = some (.ok (s, none)) ∧
      Resolver.Says text c.value s := by
  let text := "<b>x</b><p>a &lt;\n b</p>".toList
  let c : Candidate := ⟨.text, "a <\n b".toList, "<p>".toList, "p".toList, none, 3⟩
  have hrun : (Document.parse [] text).toOption.map (fun d =>
      ((Scan.accepted (Scan.source text none) (d.candidates [] []))[1]?,
        Resolver.endOf (Resolver.seekTraced (Scan.source text none) c
          (State.start (Scan.source text none) d)).2.dropLast 0)) = some (some c, 11) := by
    decide +kernel
  obtain ⟨d, hparse, hfound⟩ := Scan.parsed_of_map hrun
  obtain ⟨hc, hend⟩ := Prod.mk.inj hfound
  have hscan : (scan text [] ⟨[], none, []⟩).1 = .ok (List.map (fun f => ⟨[], f⟩) (List.flatten
      [[⟨"(error)".toList, "W001".toList, "Hardcoded <b> tag".toList, "x".toList, 1, 4,
          "<b>x</b><p>a &lt;".toList⟩],
        [⟨"(error)".toList, "W001".toList, "Hardcoded <p> tag".toList, "a &lt;".toList, 1, 12,
          "<b>x</b><p>a &lt;".toList⟩,
        ⟨"(error)".toList, "W001".toList, "Hardcoded <p> tag (continued)".toList, "b".toList, 2, 2,
          "b</p>".toList⟩]])) :=
    Scan.scan_of_pairwise (by decide +kernel) (by decide)
  obtain ⟨s, before, hrange, htrace, hsays, -⟩ := scan_texts_said hparse hscan hc rfl
  rw [htrace, List.dropLast_concat] at hend
  refine ⟨text, d, _, c, s, rfl, hparse, hscan, hc, rfl, rfl, hrange, hsays.mpr ?_⟩
  rw [hend]
  decide +kernel

/-- The references with which every text can be written. -/
def Reference.basic : List Text := ["&amp;".toList, "&lt;".toList, "&gt;".toList, "&quot;".toList]

/-- The blank in a value takes the reference behind it for whitespace, and the bracket of the end tag is
then taken for the one that the reference stands for. No other place is tried, so the range that is taken
says something else. -/
theorem bracket_taken_unsaid :
    ∃ (text : Text) (d : Document) (records : List Record) (c : Candidate) (s : Span),
      text = "<p>a &lt;</p>".toList ∧
      (∀ rest ∈ text.tails, rest.head? = some '&' → ∃ r ∈ Reference.basic, r <+: rest) ∧
      Document.parse [] text = .ok d ∧ (scan text [] ⟨[], none, []⟩).1 = .ok records ∧
      (Scan.accepted (Scan.source text none) (d.candidates [] []))[0]? = some c ∧
      c.kind = .text ∧ c.tag = "p".toList ∧ c.value = "a <".toList ∧
      (Resolver.ranges (Scan.source text none)
        (Scan.accepted (Scan.source text none) (d.candidates [] []))
        (State.start (Scan.source text none) d))[0]? = some (.ok (s, none)) ∧
      Text.slice text s.start s.stop = "a &lt;<".toList ∧ ¬ Resolver.Says text c.value s := by
  let text := "<p>a &lt;</p>".toList
  have hrun : (Document.parse [] text).toOption.map (fun d =>
      ((Scan.accepted (Scan.source text none) (d.candidates [] []))[0]?,
        decide ((Resolver.ranges (Scan.source text none)
          (Scan.accepted (Scan.source text none) (d.candidates [] []))
          (State.start (Scan.source text none) d))[0]? = some (.ok (⟨3, 10⟩, none))))) =
      some (some ⟨.text, "a <".toList, "<p>".toList, "p".toList, none, 1⟩, true) := by
    decide +kernel
  obtain ⟨d, hparse, hfound⟩ := Scan.parsed_of_map hrun
  obtain ⟨hc, hrange⟩ := Prod.mk.inj hfound
  have hscan : (scan text [] ⟨[], none, []⟩).1 =
      .ok (List.map (fun f => ⟨[], f⟩) (List.flatten
        [[⟨"(error)".toList, "W001".toList, "Hardcoded <p> tag".toList, "a &lt;<".toList, 1, 4,
          text⟩]])) :=
    Scan.scan_of_pairwise (by decide +kernel) (by decide)
  exact ⟨text, d, _, _, _, rfl, by decide, hparse, hscan, hc, rfl, rfl, rfl, of_decide_eq_true hrange,
    rfl, by decide +kernel⟩

end Untranslated
