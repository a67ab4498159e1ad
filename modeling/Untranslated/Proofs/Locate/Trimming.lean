import Mathlib.Data.List.TakeWhile
import Untranslated.Proofs.Locate.Respelled
import Untranslated.Proofs.Reference.Grammar

/-!
# Exact trimming

Spacing is a text of whitespace and of blank references (`Evidence.Spacing`). Trimming a text takes spacing
off both of its ends (`exists_trimStart`, `exists_trimEnd`), although at the beginning it looks for the
longest reference and at the end only for one from the last ampersand on: no reference goes on with
whitespace or with an ampersand, so spacing can be read in one way only (`trimStart_append`,
`trimEnd_append`), and nothing is left of a text just if the text is spacing (`trimStart_eq_nil_iff`).

What is left has ends that show something (`Shown`) and is not trimmed any further, so a second search finds
the same evidence. The search for evidence takes what is left of the first part outside the template
expressions that is not spacing, unless a reference at one of its ends has too many digits
(`range?_trims`).
-/

namespace Untranslated

open WrittenReference (IsReference IsLongest lead? isBodyChar isBlank)

namespace WrittenReference

/-- The reference can be read, and stands for something visible. -/
def Shows (r : Text) : Prop := Reference.overlong? r = none ∧ Text.isBlank (Reference.decode r) = false

theorem Shows.isBlank_eq {r : Text} (h : Shows r) : isBlank r = false := by
  rw [isBlank, h.2, Bool.and_false]

theorem shows_of_isBlank {r : Text} (hread : Reference.overlong? r = none) (h : isBlank r = false) :
    Shows r := by
  rw [isBlank, hread, Option.isNone_none, Bool.true_and] at h
  exact ⟨hread, h⟩

theorem isBlank_of_overlong? {r : Text} (h : Reference.overlong? r ≠ none) : isBlank r = false := by
  rw [isBlank, Option.isNone_eq_false_iff.mpr (Option.isSome_iff_ne_none.mpr h), Bool.false_and]

theorem isBodyChar_of_isSpace {c : Char} (h : Text.isSpace c = true) : isBodyChar c = false := by
  refine Bool.eq_false_iff.mpr fun hbody => ?_
  rw [isSpace_of_isBodyChar hbody] at h
  cases h

end WrittenReference

/-- A range outside all expressions is one part. -/
theorem Mask.outside_eq_singleton {mask : Mask} (hspans : Ordered mask.spans) {a b : Int} (hlt : a < b)
    (h : ∀ s ∈ mask.spans, b ≤ s.start ∨ s.stop ≤ a) : mask.outside a b = [(a, b)] := by
  rw [outside_eq_gaps hspans]
  clear hspans
  generalize mask.spans = spans at h
  induction spans with
  | nil => rw [gaps, if_pos hlt]
  | cons s spans ih =>
    obtain ⟨hs, hspans⟩ := List.forall_mem_cons.mp h
    by_cases hbefore : b ≤ s.start
    · rw [gaps, if_pos hbefore, if_pos hlt]
    · rw [gaps, if_neg hbefore, if_pos (by omega), ih hspans]

namespace Evidence

/-! ## Spacing -/

/-- Whitespace and blank references, in any order. -/
inductive Spacing : Text → Prop
  | nil : Spacing []
  | space {c : Char} {s : Text} (hc : Text.isSpace c = true) (hs : Spacing s) : Spacing (c :: s)
  | reference {r s : Text} (hr : IsReference r) (hblank : isBlank r = true) (hs : Spacing s) :
      Spacing (r ++ s)

variable {s t r : Text}

theorem Spacing.append (hs : Spacing s) (ht : Spacing t) : Spacing (s ++ t) := by
  induction hs with
  | nil => exact ht
  | space hc _ ih => exact .space hc ih
  | reference hr hblank _ ih =>
    rw [List.append_assoc]
    exact .reference hr hblank ih

/-- No reference goes on with spacing. -/
theorem Spacing.head (hs : Spacing s) (ht : ∀ c ∈ t.head?, isBodyChar c = false) :
    ∀ c ∈ (s ++ t).head?, isBodyChar c = false := by
  cases hs with
  | nil => exact ht
  | space hc =>
    intro c hhead
    rw [← Option.some.inj hhead]
    exact WrittenReference.isBodyChar_of_isSpace hc
  | reference hr =>
    obtain ⟨u, rfl, -⟩ := hr.eq_cons
    intro c hhead
    rw [← Option.some.inj hhead]
    decide

/-! ## The beginning -/

theorem trimStart_reference (hlead : lead? (r ++ s) = some r) (hblank : isBlank r = true) :
    trimStart (r ++ s) = trimStart s := by
  obtain ⟨u, hu, -⟩ := (WrittenReference.isReference_of_lead? hlead).eq_cons
  have hcons : r ++ s = '&' :: (u ++ s) := by rw [hu, List.cons_append]
  rw [hcons, trimStart_cons, if_neg (by decide), ← hcons, hlead]
  simp only [hblank, if_true, List.drop_left]

theorem trimStart_eq_self (hhead : ∀ c ∈ s.head?, Text.isSpace c = false)
    (hlead : ∀ r ∈ lead? s, isBlank r = false) : trimStart s = s := by
  cases s with
  | nil => rw [trimStart]
  | cons c rest =>
    rw [trimStart_cons, if_neg (by simp [hhead c rfl])]
    split
    · rename_i r hr
      rw [if_neg (by simp [hlead r hr])]
    · rfl

/-- Spacing in front of a text is taken off. -/
theorem trimStart_append (hs : Spacing s) (ht : ∀ c ∈ t.head?, isBodyChar c = false) :
    trimStart (s ++ t) = trimStart t := by
  induction hs with
  | nil => rfl
  | space hc _ ih => rw [List.cons_append, trimStart_cons, if_pos hc, ih]
  | reference hr hblank hs ih =>
    rw [List.append_assoc, trimStart_reference (hr.lead?_append (hs.head ht)) hblank, ih]

/-- Induction on a text the way that its beginning is taken off. -/
theorem trimStart_induction {motive : Text → Prop} (s : Text)
    (space : ∀ c rest, Text.isSpace c = true → motive rest → motive (c :: rest))
    (reference : ∀ r rest, lead? (r ++ rest) = some r → isBlank r = true → motive rest → motive (r ++ rest))
    (trimmed : ∀ s, trimStart s = s → motive s) : motive s := by
  induction hn : s.length using Nat.strongRecOn generalizing s with
  | ind n ih =>
  subst hn
  by_cases hblank : ∃ r, lead? s = some r ∧ isBlank r = true
  · obtain ⟨r, hr, hblank⟩ := hblank
    obtain ⟨-, -, after, -, rfl, -⟩ := WrittenReference.lead?_eq_some.mp hr
    have hpos := List.length_pos_of_mem (WrittenReference.isReference_of_lead? hr).mem
    exact reference r after hr hblank (ih after.length (by rw [List.length_append]; omega) after rfl)
  · have hlead : ∀ r ∈ lead? s, isBlank r = false := by simpa using hblank
    cases s with
    | nil => exact trimmed [] (trimStart_eq_self (by simp) hlead)
    | cons c rest =>
      by_cases hc : Text.isSpace c = true
      · exact space c rest hc (ih rest.length (Nat.lt_succ_self _) rest rfl)
      · exact trimmed (c :: rest) (trimStart_eq_self (by simpa using hc) hlead)

/-- What is taken off the beginning is spacing. -/
theorem exists_trimStart (s : Text) : ∃ cut, s = cut ++ trimStart s ∧ Spacing cut := by
  induction s using trimStart_induction with
  | space c rest hc ih =>
    obtain ⟨cut, hcut, hspacing⟩ := ih
    refine ⟨c :: cut, ?_, .space hc hspacing⟩
    rw [trimStart_cons, if_pos hc, List.cons_append, ← hcut]
  | reference r rest hlead hblank ih =>
    obtain ⟨cut, hcut, hspacing⟩ := ih
    refine ⟨r ++ cut, ?_, .reference (WrittenReference.isReference_of_lead? hlead) hblank hspacing⟩
    rw [trimStart_reference hlead hblank, List.append_assoc, ← hcut]
  | trimmed s hs => exact ⟨[], hs.symm, .nil⟩

/-- Nothing is left of spacing, and of no other text. -/
theorem trimStart_eq_nil_iff : trimStart s = [] ↔ Spacing s := by
  constructor
  · intro h
    obtain ⟨cut, hcut, hspacing⟩ := exists_trimStart s
    rw [hcut, h, List.append_nil]
    exact hspacing
  · intro hs
    have h := trimStart_append (t := []) hs (by simp)
    rwa [List.append_nil, trimStart] at h

/-! ## The end -/

theorem cutAtLastAmpersand?_append (u : Text) (ht : '&' ∉ t) :
    cutAtLastAmpersand? (u ++ '&' :: t) = some (u, '&' :: t) := by
  induction u with
  | nil =>
    cases hcut : cutAtLastAmpersand? t with
    | none => rw [List.nil_append, cutAtLastAmpersand?, hcut]; rfl
    | some cut =>
      obtain ⟨rest, hrest, -⟩ := cutAtLastAmpersand?_eq hcut
      rw [← append_of_cutAtLastAmpersand? hcut, hrest] at ht
      simp at ht
  | cons c u ih => rw [List.cons_append, cutAtLastAmpersand?, ih]

/-- A reference at the end of a text is what stands there from the last ampersand on. -/
theorem cutAtLastAmpersand?_reference (h : IsReference r) (u : Text) :
    cutAtLastAmpersand? (u ++ r) = some (u, r) := by
  obtain ⟨v, rfl, hv⟩ := h.eq_cons
  exact cutAtLastAmpersand?_append u fun hmem => absurd (hv _ hmem) (by decide)

theorem not_any_isSpace {o : Option Char} :
    ¬ o.any Text.isSpace = true ↔ ∀ c ∈ o, Text.isSpace c = false := by
  cases o <;> simp

theorem isSpace_getLast?_reference (h : IsReference r) (u : Text) :
    ∀ c ∈ (u ++ r).getLast?, Text.isSpace c = false := by
  obtain ⟨v, rfl, hv⟩ := h.eq_cons
  intro c hc
  rw [List.getLast?_append, Option.or_of_isSome (by simp)] at hc
  rcases List.mem_cons.mp (List.mem_of_getLast? hc) with rfl | hmem
  · decide
  · exact WrittenReference.isSpace_of_isBodyChar (hv c hmem)

theorem trimEnd_reference (hr : IsReference r) (hblank : isBlank r = true) (s : Text) :
    trimEnd (s ++ r) = trimEnd s := by
  rw [trimEnd_eq, if_neg (not_any_isSpace.mpr (isSpace_getLast?_reference hr s)),
    cutAtLastAmpersand?_reference hr s]
  simp only [WrittenReference.isWhole_iff_isReference.mpr hr, hblank, and_self, if_true]

/-- Spacing behind a text is taken off. -/
theorem trimEnd_append (ht : Spacing t) (s : Text) : trimEnd (s ++ t) = trimEnd s := by
  induction ht generalizing s with
  | nil => rw [List.append_nil]
  | space hc _ ih => rw [List.append_cons, ih, trimEnd_space hc]
  | reference hr hblank _ ih => rw [← List.append_assoc, ih, trimEnd_reference hr hblank]

/-- What is taken off the end is spacing. -/
theorem exists_trimEnd (s : Text) : ∃ cut, s = trimEnd s ++ cut ∧ Spacing cut := by
  fun_induction trimEnd s with
  | case1 s hlast ih =>
    obtain ⟨cut, hcut, hspacing⟩ := ih
    obtain rfl | ⟨init, c, hconcat⟩ := List.eq_nil_or_concat s
    · cases hlast
    · rw [List.concat_eq_append] at hconcat
      subst hconcat
      rw [List.dropLast_concat] at hcut ⊢
      refine ⟨cut ++ [c], by rw [← List.append_assoc, ← hcut], hspacing.append (.space ?_ .nil)⟩
      simpa using hlast
  | case2 s _ before reference hcut hblank ih =>
    obtain ⟨cut, hbefore, hspacing⟩ := ih
    refine ⟨cut ++ reference, ?_, hspacing.append ?_⟩
    · rw [← List.append_assoc, ← hbefore, append_of_cutAtLastAmpersand? hcut]
    · rw [← List.append_nil reference]
      exact .reference (WrittenReference.isWhole_iff_isReference.mp hblank.2.1) hblank.2.2 .nil
  | case3 => exact ⟨[], (List.append_nil _).symm, .nil⟩
  | case4 => exact ⟨[], (List.append_nil _).symm, .nil⟩

/-- What is left ends with no whitespace and with no blank reference. -/
theorem trimEnd_tail (s : Text) :
    (∀ c ∈ (trimEnd s).getLast?, Text.isSpace c = false) ∧
      ∀ r, IsReference r → r <:+ trimEnd s → isBlank r = false := by
  fun_induction trimEnd s with
  | case1 s _ ih => exact ih
  | case2 s _ before reference _ _ ih => exact ih
  | case3 s hlast before reference hcut hnot =>
    refine ⟨not_any_isSpace.mp hlast, fun r hr => ?_⟩
    rintro ⟨u, rfl⟩
    rw [cutAtLastAmpersand?_reference hr u] at hcut
    obtain ⟨rfl, rfl⟩ := Prod.mk.inj (Option.some.inj hcut)
    have hlength : u.length < (u ++ r).length := by
      have := List.length_pos_of_mem hr.mem
      rw [List.length_append]
      omega
    exact Bool.eq_false_iff.mpr fun hblank =>
      hnot ⟨hlength, WrittenReference.isWhole_iff_isReference.mpr hr, hblank⟩
  | case4 s hlast hcut =>
    refine ⟨not_any_isSpace.mp hlast, fun r hr => ?_⟩
    rintro ⟨u, rfl⟩
    rw [cutAtLastAmpersand?_reference hr u] at hcut
    cases hcut

theorem trimEnd_eq_self (hlast : ∀ c ∈ s.getLast?, Text.isSpace c = false)
    (htail : ∀ r, IsReference r → r <:+ s → isBlank r = false) : trimEnd s = s := by
  rw [trimEnd_eq, if_neg (not_any_isSpace.mpr hlast)]
  split
  · rename_i before reference hcut
    refine if_neg ?_
    rintro ⟨hwhole, hblank⟩
    rw [htail reference (WrittenReference.isWhole_iff_isReference.mp hwhole)
      ⟨before, append_of_cutAtLastAmpersand? hcut⟩] at hblank
    cases hblank
  · rfl

/-! ## Texts that are trimmed -/

/-- Both ends of the text show something. -/
structure Shown (s : Text) : Prop where
  head : ∀ c ∈ s.head?, Text.isSpace c = false
  last : ∀ c ∈ s.getLast?, Text.isSpace c = false
  lead : ∀ r, IsLongest r s → WrittenReference.Shows r
  tail : ∀ r, IsReference r → r <:+ s → WrittenReference.Shows r

theorem Shown.trimStart_eq (h : Shown s) : trimStart s = s :=
  trimStart_eq_self h.head fun r hr => (h.lead r (WrittenReference.isLongest_iff.mpr hr)).isBlank_eq

theorem Shown.trimEnd_eq (h : Shown s) : trimEnd s = s :=
  trimEnd_eq_self h.last fun r hr hsuffix => (h.tail r hr hsuffix).isBlank_eq

theorem Shown.readable (h : Shown s) :
    (∀ r, lead? s = some r → Reference.overlong? r = none) ∧
      ∀ r, IsReference r → r <:+ trimEnd s → Reference.overlong? r = none := by
  rw [h.trimEnd_eq]
  exact ⟨fun r hr => (h.lead r (WrittenReference.isLongest_iff.mpr hr)).1,
    fun r hr hsuffix => (h.tail r hr hsuffix).1⟩

theorem shown_nil : Shown [] where
  head := by simp
  last := by simp
  lead r hr := by
    have hmem := hr.reference.mem
    rw [List.prefix_nil.mp hr.begins] at hmem
    cases hmem
  tail r hr hsuffix := by
    have hmem := hr.mem
    rw [List.suffix_nil.mp hsuffix] at hmem
    cases hmem

/-- A reference with too many digits stands at an end of the text, but for spacing. -/
def Unreadable (s : Text) : Prop :=
  ∃ u r v, s = u ++ (r ++ v) ∧ IsReference r ∧ Reference.overlong? r ≠ none ∧ (Spacing u ∨ Spacing v)

theorem lead?_trimEnd (s : Text) : lead? (trimEnd (trimStart s)) = lead? (trimStart s) :=
  (keeps_trimEnd (trimStart_lead s).2).lead?_eq

/-- Where the references at the ends can be read, what is left shows something at both ends. -/
theorem shown_trim (h : ¬ Unreadable s) : Shown (trimEnd (trimStart s)) := by
  obtain ⟨cut, hcut, hspacing⟩ := exists_trimStart s
  obtain ⟨cut', hcut', hspacing'⟩ := exists_trimEnd (trimStart s)
  obtain ⟨hhead, hlead⟩ := trimStart_lead s
  obtain ⟨hlast, htail⟩ := trimEnd_tail (trimStart s)
  refine ⟨fun c hc => hhead c ?_, hlast, fun r hr => ?_, fun r hr hsuffix => ?_⟩
  · obtain ⟨rest, hrest⟩ := List.head?_eq_some_iff.mp hc
    rw [hcut', hrest]
    rfl
  · have hlongest : lead? (trimStart s) = some r := lead?_trimEnd s ▸ WrittenReference.isLongest_iff.mp hr
    refine WrittenReference.shows_of_isBlank (Classical.not_not.mp fun hread => h ?_) (hlead r hlongest)
    obtain ⟨v, hv⟩ := (WrittenReference.isLongest_iff.mpr hlongest).begins
    exact ⟨cut, r, v, by rw [hv, ← hcut], hr.reference, hread, .inl hspacing⟩
  · refine WrittenReference.shows_of_isBlank (Classical.not_not.mp fun hread => h ?_) (htail r hr hsuffix)
    obtain ⟨u, hu⟩ := hsuffix
    refine ⟨cut ++ u, r, cut', ?_, hr, hread, .inr hspacing'⟩
    rw [List.append_assoc, ← List.append_assoc u, hu, ← hcut', ← hcut]

/-- A reference that is not blank, and what stands behind it, are kept. -/
theorem suffix_trimStart {v : Text} (hr : IsReference r) (hblank : isBlank r = false)
    (hv : ∀ c ∈ v.head?, isBodyChar c = false) (h : r ++ v <:+ s) : r ++ v <:+ trimStart s := by
  obtain ⟨u, hu, -⟩ := hr.eq_cons
  induction s using trimStart_induction with
  | space c rest hc ih =>
    rw [trimStart_cons, if_pos hc]
    rcases List.suffix_cons_iff.mp h with heq | h
    · rw [hu] at heq
      rw [← (List.cons.inj heq).1] at hc
      cases hc
    · exact ih h
  | reference r' rest hlead hblank' ih =>
    rw [trimStart_reference hlead hblank']
    obtain ⟨w, hw⟩ := h
    obtain ⟨u', hu', hbody⟩ := (WrittenReference.isReference_of_lead? hlead).eq_cons
    rcases List.append_eq_append_iff.mp hw with ⟨x, hx, hrest⟩ | ⟨x, rfl, hrest⟩
    · cases w with
      | nil =>
        -- The two references are the same one.
        rw [List.nil_append] at hw
        rw [← hw, hr.lead?_append hv] at hlead
        rw [Option.some.inj hlead, hblank'] at hblank
        cases hblank
      | cons d w =>
        cases x with
        | nil => exact ih ⟨[], hrest⟩
        | cons e x =>
          -- No reference begins within another one.
          rw [hu, List.cons_append, List.cons_append] at hrest
          rw [hu', List.cons_append] at hx
          have he := hbody e ((List.cons.inj hx).2 ▸ List.mem_append_right _ List.mem_cons_self)
          rw [← (List.cons.inj hrest).1] at he
          cases he
    · exact ih ⟨x, hrest.symm⟩
  | trimmed s hs => rwa [hs]

/-- Behind spacing, what is left begins with a reference that has too many digits. It may be a longer one
than the one in question. -/
theorem lead?_of_overlong {u : Text} (hr : IsReference r) (hoverlong : Reference.overlong? r ≠ none)
    (hu : Spacing u) (v : Text) :
    ∃ r', lead? (trimStart (u ++ (r ++ v))) = some r' ∧ Reference.overlong? r' ≠ none := by
  obtain ⟨r', hlead, hprefix⟩ := hr.prefix_lead (List.prefix_append r v)
  have hoverlong' : Reference.overlong? r' ≠ none := fun h =>
    hoverlong (Reference.overlong?_of_infix hprefix.isInfix h)
  obtain ⟨w, rfl, -⟩ := hr.eq_cons
  have hkept : trimStart ('&' :: w ++ v) = '&' :: w ++ v := by
    refine trimStart_eq_self (by simp; decide) fun r'' hr'' => ?_
    rw [Option.mem_def, hlead] at hr''
    rw [← Option.some.inj hr'']
    exact WrittenReference.isBlank_of_overlong? hoverlong'
  rw [trimStart_append hu (by simp; decide), hkept]
  exact ⟨r', hlead, hoverlong'⟩

/-- Before spacing, a reference that has too many digits is what is left at the end. -/
theorem suffix_of_overlong {v : Text} (hr : IsReference r) (hoverlong : Reference.overlong? r ≠ none)
    (hv : Spacing v) (u : Text) : r <:+ trimEnd (trimStart (u ++ (r ++ v))) := by
  have hblank := WrittenReference.isBlank_of_overlong? hoverlong
  have hhead : ∀ c ∈ v.head?, isBodyChar c = false := by
    have h := hv.head (t := []) (by simp)
    rwa [List.append_nil] at h
  obtain ⟨x, hx⟩ := suffix_trimStart hr hblank hhead ⟨u, rfl⟩
  have hend : trimEnd (x ++ r) = x ++ r := by
    refine trimEnd_eq_self (isSpace_getLast?_reference hr x) ?_
    rintro r' hr' ⟨y, hy⟩
    have hcut := cutAtLastAmpersand?_reference hr' y
    rw [hy, cutAtLastAmpersand?_reference hr x] at hcut
    rw [← (Prod.mk.inj (Option.some.inj hcut)).2]
    exact hblank
  rw [← hx, ← List.append_assoc, trimEnd_append hv, hend]
  exact List.suffix_append x r

/-! ## Ranges -/

variable {text : Text} {start stop : Nat}

/-- A range is trimmed if the references at the ends of what is left can be read. -/
theorem obstacle?_eq_none_iff_ends (hstop : stop ≤ text.length) :
    obstacle? text start stop = none ↔
      (∀ r, lead? (trimStart (Text.slice text start stop)) = some r → Reference.overlong? r = none) ∧
        ∀ r, IsReference r → r <:+ trimEnd (trimStart (Text.slice text start stop)) →
          Reference.overlong? r = none := by
  unfold obstacle?
  generalize trimStart (Text.slice text start stop) = kept
  have hlead : ((WrittenReference.longest? kept).bind fun after =>
      Reference.overlong? (kept.take (kept.length - after.length))) =
        (lead? kept).bind Reference.overlong? := by
    rw [lead?, Option.bind_map]
    rfl
  have htail : ((cutAtLastAmpersand? (trimEnd kept)).bind fun cut =>
      if WrittenReference.isWhole cut.2 then Reference.overlong? cut.2 else none) = none ↔
        ∀ r, IsReference r → r <:+ trimEnd kept → Reference.overlong? r = none := by
    rw [Option.bind_eq_none_iff]
    constructor
    · rintro h r hr ⟨u, hu⟩
      have hread := h (u, r) (hu ▸ cutAtLastAmpersand?_reference hr u)
      rwa [if_pos (WrittenReference.isWhole_iff_isReference.mpr hr)] at hread
    · rintro h ⟨before, reference⟩ hcut
      refine ite_eq_right_iff.mpr fun hwhole => ?_
      exact h reference (WrittenReference.isWhole_iff_isReference.mp hwhole)
        ⟨before, append_of_cutAtLastAmpersand? hcut⟩
  simp only [hlead]
  rw [← htail, ← Option.bind_eq_none_iff]
  cases (lead? kept).bind Reference.overlong? with
  | some reference => simp
  | none =>
    simp only [true_and]
    rw [if_neg (by omega), Option.map_eq_none_iff]

/-- Nothing but a reference with too many digits at one of its ends keeps a range from being trimmed. -/
theorem obstacle?_eq_none_iff (hstop : stop ≤ text.length) :
    obstacle? text start stop = none ↔ ¬ Unreadable (Text.slice text start stop) := by
  rw [obstacle?_eq_none_iff_ends hstop]
  constructor
  · rintro ⟨hlead, htail⟩ ⟨u, r, v, hs, hr, hoverlong, hspacing | hspacing⟩
    · obtain ⟨r', hlead', hoverlong'⟩ := lead?_of_overlong hr hoverlong hspacing v
      rw [hs] at hlead
      exact hoverlong' (hlead r' hlead')
    · rw [hs] at htail
      exact hoverlong (htail r hr (suffix_of_overlong hr hoverlong hspacing u))
  · intro h
    have hshown := shown_trim h
    have hread := hshown.readable
    rwa [hshown.trimEnd_eq, lead?_trimEnd] at hread

theorem Shown.obstacle?_eq (h : Shown (Text.slice text start stop)) (hstop : stop ≤ text.length) :
    obstacle? text start stop = none := by
  rw [obstacle?_eq_none_iff_ends hstop, h.trimStart_eq]
  exact h.readable

/-- A range whose ends show something is not trimmed. -/
theorem Shown.trim_eq (h : Shown (Text.slice text start stop)) (hle : start ≤ stop)
    (hstop : stop ≤ text.length) : trim text start stop = ⟨start, stop⟩ := by
  have hlength := Text.length_slice_of_le (a := start) hstop
  simp only [trim, h.trimStart_eq, h.trimEnd_eq, hlength, Span.mk.injEq]
  omega

/-- What is cut off a range at its beginning and at its end is spacing. -/
theorem spacing_trim (hle : start ≤ stop) (hstop : stop ≤ text.length) :
    Spacing (Text.slice text start (trim text start stop).start) ∧
      Spacing (Text.slice text (trim text start stop).stop stop) := by
  have hlength := Text.length_slice_of_le (a := start) hstop
  have hdrop := Text.slice_append_drop (s := text) hle
  simp only [trim]
  generalize Text.slice text start stop = fragment at *
  obtain ⟨cut, hcut, hspacing⟩ := exists_trimStart fragment
  obtain ⟨cut', hcut', hspacing'⟩ := exists_trimEnd (trimStart fragment)
  generalize trimStart fragment = kept at *
  have hfirst : fragment.length - kept.length = cut.length := by
    rw [hcut, List.length_append, Nat.add_sub_cancel]
  have hstart : text.drop start = cut ++ (kept ++ text.drop stop) := by
    rw [← hdrop, hcut, List.append_assoc]
  have hbehind : text.drop (start + cut.length) = trimEnd kept ++ (cut' ++ text.drop stop) := by
    rw [Text.drop_of_drop hstart, ← List.append_assoc, ← hcut']
  have hend : start + cut.length + (trimEnd kept).length + cut'.length = stop := by
    have hsum := congrArg List.length hcut
    have hsum' := congrArg List.length hcut'
    rw [List.length_append] at hsum hsum'
    omega
  have hslice := Text.slice_of_drop (Text.drop_of_drop hbehind)
  rw [hend] at hslice
  rw [hfirst, Text.slice_of_drop hstart, hslice]
  exact ⟨hspacing, hspacing'⟩

/-- The range `e` is what trimming leaves of the range from `start` to `stop`. -/
structure Trims (text : Text) (start stop : Nat) (e : Span) : Prop where
  nonempty : e.start < e.stop
  inside : e.Inside start stop
  before : Spacing (Text.slice text start e.start)
  behind : Spacing (Text.slice text e.stop stop)
  shown : Shown (Text.slice text e.start e.stop)

theorem trims_trim (hle : start ≤ stop) (hstop : stop ≤ text.length)
    (hshows : ¬ Spacing (Text.slice text start stop)) (hread : ¬ Unreadable (Text.slice text start stop)) :
    Trims text start stop (trim text start stop) := by
  have hinside : (trim text start stop).Inside start stop := trim_inside hle
  obtain ⟨hbefore, hbehind⟩ := spacing_trim hle hstop
  refine ⟨Nat.lt_of_le_of_ne hinside.start_le_stop fun hempty => hshows ?_, hinside, hbefore, hbehind, ?_⟩
  · -- Spacing on both sides of nothing is spacing.
    rw [← hempty] at hbehind
    rw [← Text.slice_append hinside.lo_le (Nat.le_trans hinside.start_le_stop hinside.stop_le)]
    exact hbefore.append hbehind
  · rw [slice_trim hle]
    exact shown_trim hread

/-! ## Evidence -/

/-- Ranges of spacing are passed over. -/
theorem firstOf_append {before : List (Int × Int)} (ranges : List (Int × Int))
    (h : ∀ r ∈ before, r.2 ≤ text.length ∧ Spacing (Text.slice text r.1.toNat r.2.toNat)) :
    firstOf text (before ++ ranges) = firstOf text ranges := by
  induction before with
  | nil => rfl
  | cons r before ih =>
    obtain ⟨a, b⟩ := r
    obtain ⟨⟨hb, hspacing⟩, hbefore⟩ := List.forall_mem_cons.mp h
    have hnil := trimStart_eq_nil_iff.mpr hspacing
    have hobstacle : obstacle? text a.toNat b.toNat = none := by
      rw [obstacle?_eq_none_iff_ends (by omega), hnil]
      exact shown_nil.readable
    rw [List.cons_append, firstOf, hobstacle]
    simp only [trim, hnil, shown_nil.trimEnd_eq, List.length_nil]
    rw [if_neg (by omega)]
    exact ih hbefore

/-- The range from `a` to `b` is the first of the ranges that holds more than spacing. -/
def IsFirst (text : Text) (ranges : List (Int × Int)) (a b : Int) : Prop :=
  ∃ before after, ranges = before ++ (a, b) :: after ∧
    (∀ r ∈ before, Spacing (Text.slice text r.1.toNat r.2.toNat)) ∧
    ¬ Spacing (Text.slice text a.toNat b.toNat)

theorem exists_isFirst (text : Text) (ranges : List (Int × Int)) :
    (∀ r ∈ ranges, Spacing (Text.slice text r.1.toNat r.2.toNat)) ∨ ∃ a b, IsFirst text ranges a b := by
  induction ranges with
  | nil => exact .inl (by simp)
  | cons r ranges ih =>
    obtain ⟨a, b⟩ := r
    by_cases hr : Spacing (Text.slice text a.toNat b.toNat)
    · rcases ih with h | ⟨a', b', before, after, rfl, hbefore, hshows⟩
      · exact .inl (List.forall_mem_cons.mpr ⟨hr, h⟩)
      · exact .inr ⟨a', b', (a, b) :: before, after, rfl, List.forall_mem_cons.mpr ⟨hr, hbefore⟩, hshows⟩
    · exact .inr ⟨a, b, [], ranges, rfl, by simp, hr⟩

section Ranges

variable {ranges : List (Int × Int)}
  (hranges : ∀ r ∈ ranges, 0 ≤ r.1 ∧ r.1 < r.2 ∧ r.2 ≤ text.length)

include hranges

/-- The first range that holds more than spacing decides: it has evidence, unless a reference at one of its
ends has too many digits. -/
theorem firstOf_isFirst {a b : Int} (h : IsFirst text ranges a b) :
    Unreadable (Text.slice text a.toNat b.toNat) ∧ (∃ error, firstOf text ranges = .error error) ∨
      ¬ Unreadable (Text.slice text a.toNat b.toNat) ∧
        Trims text a.toNat b.toNat (trim text a.toNat b.toNat) ∧
          firstOf text ranges = .ok (some (trim text a.toNat b.toNat)) := by
  obtain ⟨before, after, rfl, hbefore, hshows⟩ := h
  obtain ⟨-, hlt, hb⟩ := hranges (a, b) (by simp)
  have hpassed : firstOf text (before ++ (a, b) :: after) = firstOf text ((a, b) :: after) :=
    firstOf_append _ fun r hr => ⟨(hranges r (by simp [hr])).2.2, hbefore r hr⟩
  rw [hpassed, firstOf]
  by_cases hread : Unreadable (Text.slice text a.toNat b.toNat)
  · cases hobstacle : obstacle? text a.toNat b.toNat with
    | none => exact absurd hread ((obstacle?_eq_none_iff (by omega)).mp hobstacle)
    | some error => exact .inl ⟨hread, error, rfl⟩
  · have htrims := trims_trim (show a.toNat ≤ b.toNat by omega) (by omega) hshows hread
    rw [(obstacle?_eq_none_iff (by omega)).mpr hread]
    exact .inr ⟨hread, htrims, if_pos htrims.nonempty⟩

theorem firstOf_eq_none_iff :
    firstOf text ranges = .ok none ↔ ∀ r ∈ ranges, Spacing (Text.slice text r.1.toNat r.2.toNat) := by
  constructor
  · intro hnone
    rcases exists_isFirst text ranges with hall | ⟨a, b, hfirst⟩
    · exact hall
    · rcases firstOf_isFirst hranges hfirst with ⟨-, error, herror⟩ | ⟨-, -, hok⟩
      · rw [hnone] at herror
        cases herror
      · rw [hnone] at hok
        cases hok
  · intro hall
    have hpassed : firstOf text (ranges ++ []) = firstOf text [] :=
      firstOf_append [] fun r hr => ⟨(hranges r hr).2.2, hall r hr⟩
    rwa [List.append_nil] at hpassed

/-- There is evidence, or a failure to find it, only in the first range that holds more than spacing. -/
theorem isFirst_of_firstOf (h : firstOf text ranges ≠ .ok none) : ∃ a b, IsFirst text ranges a b := by
  rcases exists_isFirst text ranges with hall | hfirst
  · exact absurd ((firstOf_eq_none_iff hranges).mpr hall) h
  · exact hfirst

theorem trims_of_firstOf {e : Span} (h : firstOf text ranges = .ok (some e)) :
    ∃ a b, IsFirst text ranges a b ∧ Trims text a.toNat b.toNat e := by
  obtain ⟨a, b, hfirst⟩ := isFirst_of_firstOf hranges (by simp [h])
  refine ⟨a, b, hfirst, ?_⟩
  rcases firstOf_isFirst hranges hfirst with ⟨-, error, herror⟩ | ⟨-, htrims, hok⟩
  · rw [h] at herror
    cases herror
  · rw [h] at hok
    rw [Option.some.inj (Except.ok.inj hok)]
    exact htrims

theorem firstOf_error_iff :
    (∃ error, firstOf text ranges = .error error) ↔
      ∃ a b, IsFirst text ranges a b ∧ Unreadable (Text.slice text a.toNat b.toNat) := by
  constructor
  · rintro ⟨error, herror⟩
    obtain ⟨a, b, hfirst⟩ := isFirst_of_firstOf hranges (by simp [herror])
    refine ⟨a, b, hfirst, ?_⟩
    rcases firstOf_isFirst hranges hfirst with ⟨hread, -⟩ | ⟨-, -, hok⟩
    · exact hread
    · rw [herror] at hok
      cases hok
  · rintro ⟨a, b, hfirst, hread⟩
    rcases firstOf_isFirst hranges hfirst with ⟨-, herror⟩ | ⟨hnot, -⟩
    · exact herror
    · exact absurd hread hnot

end Ranges

/-- Evidence is its own evidence. -/
theorem range?_again {mask : Mask} (hspans : Mask.Ordered mask.spans) {e : Span} (hlt : e.start < e.stop)
    (hstop : e.stop ≤ text.length) (happart : ∀ s ∈ mask.spans, e.stop ≤ s.start ∨ s.stop ≤ e.start)
    (hshown : Shown (Text.slice text e.start e.stop)) :
    range? text mask e.start e.stop = .ok (some e) := by
  have houtside : mask.outside e.start e.stop = [((e.start : Int), (e.stop : Int))] :=
    Mask.outside_eq_singleton hspans (by omega) fun s hs => by
      have := happart s hs
      omega
  rw [range?, houtside, firstOf]
  simp only [Int.toNat_natCast]
  rw [hshown.obstacle?_eq hstop]
  simp only [hshown.trim_eq (Nat.le_of_lt hlt) hstop]
  rw [if_pos hlt]

/-- The search for evidence is exact trimming: there is none just if all parts outside the expressions are
spacing, and otherwise it is what trimming leaves of the first one that is not, and its own evidence. The
search fails just if a reference at an end of that part has too many digits. -/
theorem range?_trims (text : Text) (delimiters : Option Delimiters) {start stop : Nat}
    (hstop : stop ≤ text.length) :
    let mask := Mask.build text delimiters
    let ranges := mask.outside start stop
    (range? text mask start stop = .ok none ↔
      ∀ r ∈ ranges, Spacing (Text.slice text r.1.toNat r.2.toNat)) ∧
    (∀ e, range? text mask start stop = .ok (some e) →
      (∃ a b, IsFirst text ranges a b ∧ Trims text a.toNat b.toNat e) ∧
        range? text mask e.start e.stop = .ok (some e)) ∧
    ((∃ error, range? text mask start stop = .error error) ↔
      ∃ a b, IsFirst text ranges a b ∧ Unreadable (Text.slice text a.toNat b.toNat)) := by
  intro mask ranges
  have hordered := Mask.ordered_build text delimiters
  have hranges : ∀ r ∈ ranges, 0 ≤ r.1 ∧ r.1 < r.2 ∧ r.2 ≤ text.length := by
    rintro ⟨a, b⟩ hr
    have := Mask.outside_inside hr
    simp only
    omega
  refine ⟨firstOf_eq_none_iff hranges, fun e he => ?_, firstOf_error_iff hranges⟩
  obtain ⟨a, b, hfirst, htrims⟩ := trims_of_firstOf hranges he
  refine ⟨⟨a, b, hfirst, htrims⟩, ?_⟩
  have hend := Nat.le_trans (range?_inside he).2.stop_le hstop
  exact range?_again hordered htrims.nonempty hend (range?_apart hordered he) htrims.shown

/-- References without semicolons, and one that ends at an expression. -/
theorem range?_trims_bare :
    ∃ (text : Text) (d : Delimiters) (e : Span),
      text = "[[a]]&#32 &#x20[[b]] &#9&lt;b&#32;\t&#160[[c]]d".toList ∧ d = ⟨"[[".toList, "]]".toList⟩ ∧
      46 ≤ text.length ∧ range? text (Mask.build text (some d)) 0 46 = .ok (some e) ∧
      Text.slice text e.start e.stop = "&lt;b".toList ∧
      (∃ a b, IsFirst text ((Mask.build text (some d)).outside (0 : Nat) (46 : Nat)) a b ∧
        Trims text a.toNat b.toNat e) ∧
      range? text (Mask.build text (some d)) e.start e.stop = .ok (some e) := by
  let text := "[[a]]&#32 &#x20[[b]] &#9&lt;b&#32;\t&#160[[c]]d".toList
  let d : Delimiters := ⟨"[[".toList, "]]".toList⟩
  have hstop : 46 ≤ text.length := by decide
  have hrange : range? text (Mask.build text (some d)) 0 46 = .ok (some ⟨24, 29⟩) := by decide +kernel
  obtain ⟨-, hevidence, -⟩ := range?_trims text (some d) hstop
  obtain ⟨htrims, hagain⟩ := hevidence ⟨24, 29⟩ hrange
  exact ⟨text, d, ⟨24, 29⟩, rfl, rfl, hstop, hrange, by decide, htrims, hagain⟩

/-- A letter that is written as a reference with too many digits is not spacing, and has no evidence. -/
theorem overlong_reference_fails :
    ∃ text : Text, text = "&#".toList ++ (List.replicate 4299 '0' ++ "65".toList) ∧ ¬ Spacing text ∧
      ∃ error, range? text (Mask.build text none) 0 text.length = .error error := by
  obtain ⟨digits, hdef⟩ : ∃ digits, digits = List.replicate 4299 '0' ++ "65".toList := ⟨_, rfl⟩
  have hlength : digits.length = 4301 := by rw [hdef, List.length_append, List.length_replicate]; rfl
  have hdigits : ∀ c ∈ digits, Text.isDigit c = true := by
    rw [hdef]
    refine List.forall_mem_append.mpr ⟨fun c hc => ?_, List.all_eq_true.mp (by decide)⟩
    rw [List.eq_of_mem_replicate hc]
    decide
  have hne : digits ≠ [] := List.length_pos_iff.mp (by omega)
  have hreference : IsReference ('&' :: '#' :: digits) :=
    ⟨'#' :: digits, [], by simp, .decimal hne hdigits, .inl rfl⟩
  have hoverlong : Reference.overlong? ('&' :: '#' :: digits) ≠ none := by
    rw [Reference.overlong?, Reference.overlongNumber?, List.takeWhile_eq_self_iff.mpr hdigits, hlength]
    simp [Numeral.digitLimit]
  refine ⟨'&' :: '#' :: digits, by rw [hdef]; rfl, fun hspacing => ?_, ?_⟩
  · have hkept : '&' :: '#' :: digits ++ [] <:+ trimStart ('&' :: '#' :: digits) :=
      suffix_trimStart hreference (WrittenReference.isBlank_of_overlong? hoverlong) (by simp) (by simp)
    rw [trimStart_eq_nil_iff.mpr hspacing] at hkept
    simp at hkept
  · have hpos := List.length_pos_of_mem hreference.mem
    generalize '&' :: '#' :: digits = text at *
    have houtside : (Mask.build text none).outside 0 text.length = [(0, (text.length : Int))] :=
      Mask.outside_eq_singleton (Mask.ordered_build text none) (by omega) (by simp [Mask.build, Mask.empty])
    have hunreadable : Unreadable (Text.slice text 0 text.length) := by
      rw [Text.slice, List.drop_zero, Nat.sub_zero, List.take_length]
      exact ⟨[], text, [], by simp, hreference, hoverlong, .inl .nil⟩
    cases hobstacle : obstacle? text 0 text.length with
    | none => exact absurd hunreadable ((obstacle?_eq_none_iff (Nat.le_refl _)).mp hobstacle)
    | some error =>
      refine ⟨error, ?_⟩
      rw [range?, Int.natCast_zero, houtside, firstOf]
      simp only [Int.toNat_zero, Int.toNat_natCast, hobstacle]

end Evidence

end Untranslated
