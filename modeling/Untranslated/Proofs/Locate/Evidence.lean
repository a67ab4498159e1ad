import Untranslated.Locate.Evidence
import Untranslated.Proofs.Reference.Visible
import Untranslated.Proofs.Source.Mask

/-!
# Where evidence lies

Trimming cuts only the ends off (`trim_inside`). So the evidence of a range is a non-empty part of it
(`range?_inside`) that meets no template expression (`range?_apart`) and begins neither with whitespace nor
with a blank reference (`range?_lead`). Only references can be in the way of it: a range that can be read is
never an error (`range?_ok`).
-/

namespace Untranslated

namespace Evidence

/-! ## Trimming -/

theorem trimStart_suffix_self (s : Text) : trimStart s <:+ s := by
  fun_induction trimStart s with
  | case1 => exact List.suffix_refl _
  | case2 c rest _ ih => exact ih.trans (List.suffix_cons c rest)
  | case3 c rest _ after hafter _ ih =>
    obtain ⟨reference, hreference, -⟩ := WrittenReference.mem_rests (List.mem_of_mem_head? hafter)
    rw [hreference]
    exact ih.trans (List.suffix_append reference after)
  | case4 => exact List.suffix_refl _
  | case5 => exact List.suffix_refl _

theorem append_of_cutAtLastAmpersand? {s before reference : Text}
    (h : cutAtLastAmpersand? s = some (before, reference)) : before ++ reference = s := by
  induction s generalizing before reference with
  | nil => simp [cutAtLastAmpersand?] at h
  | cons c rest ih =>
    simp only [cutAtLastAmpersand?] at h
    split at h
    · rename_i a b hab
      obtain ⟨rfl, rfl⟩ := Prod.mk.injEq .. ▸ Option.some.inj h
      rw [List.cons_append, ih hab]
    · split at h
      · obtain ⟨rfl, rfl⟩ := Prod.mk.injEq .. ▸ Option.some.inj h
        rfl
      · cases h

theorem trimEnd_prefix_self (s : Text) : trimEnd s <+: s := by
  fun_induction trimEnd s with
  | case1 s _ ih => exact ih.trans (List.dropLast_prefix s)
  | case2 s _ before reference hcut _ ih =>
    refine ih.trans ?_
    rw [← append_of_cutAtLastAmpersand? hcut]
    exact List.prefix_append before reference
  | case3 => exact List.prefix_refl _
  | case4 => exact List.prefix_refl _

theorem trim_inside {text : Text} {start stop : Nat} (h : start ≤ stop) :
    (trim text start stop).Inside start stop := by
  have hkept := (trimStart_suffix_self (Text.slice text start stop)).length_le
  have hend := (trimEnd_prefix_self (trimStart (Text.slice text start stop))).length_le
  have hlen := Text.length_slice text start stop
  unfold trim
  constructor <;> simp only <;> omega

/-- What is left after trimming is what the range then holds. -/
theorem slice_trim {text : Text} {start stop : Nat} (h : start ≤ stop) :
    Text.slice text (trim text start stop).start (trim text start stop).stop =
      trimEnd (trimStart (Text.slice text start stop)) := by
  have hkept := trimStart_suffix_self (Text.slice text start stop)
  have hend := trimEnd_prefix_self (trimStart (Text.slice text start stop))
  have hlength := Text.length_slice text start stop
  have hle := hkept.length_le
  have hle' := hend.length_le
  unfold trim
  generalize hfragment : Text.slice text start stop = fragment at *
  simp only
  rw [Nat.add_assoc, ← Text.slice_slice text start stop _ _ (by omega), hfragment, Text.slice,
    Nat.add_sub_cancel_left, ← List.suffix_iff_eq_drop.mp hkept]
  exact (List.prefix_iff_eq_take.mp hend).symm

/-- What is left begins with no whitespace and with no blank reference. -/
theorem trimStart_lead (s : Text) :
    (∀ c ∈ (trimStart s).head?, Text.isSpace c = false) ∧
      ∀ r ∈ WrittenReference.lead? (trimStart s), WrittenReference.isBlank r = false := by
  fun_induction trimStart s with
  | case1 => exact ⟨by simp, by simp [WrittenReference.lead?, WrittenReference.longest?, WrittenReference.rests]⟩
  | case2 c rest _ ih => exact ih
  | case3 c rest _ after hafter _ ih => exact ih
  | case4 c rest hspace after hafter hnot =>
    refine ⟨by simpa using hspace, fun r hr => ?_⟩
    rw [WrittenReference.lead?, hafter] at hr
    cases hr
    obtain ⟨body, semicolon, hs, -⟩ := WrittenReference.longest?_eq_some.mp hafter
    have hlength : after.length ≤ rest.length := by
      obtain ⟨-, rfl⟩ := List.cons.inj hs
      simp
      omega
    exact Bool.eq_false_iff.mpr fun hblank => hnot ⟨hlength, hblank⟩
  | case5 c rest hspace hnone =>
    refine ⟨by simpa using hspace, fun r hr => ?_⟩
    rw [WrittenReference.lead?, hnone] at hr
    cases hr

theorem not_mem_of_cutAtLastAmpersand? {s : Text} (h : cutAtLastAmpersand? s = none) : '&' ∉ s := by
  induction s with
  | nil => simp
  | cons c rest ih =>
    rw [cutAtLastAmpersand?] at h
    split at h
    · cases h
    · rename_i hnone
      split at h
      · cases h
      · rename_i hc
        rw [List.mem_cons, not_or]
        exact ⟨fun heq => hc heq.symm, ih hnone⟩

theorem cutAtLastAmpersand?_eq {s before reference : Text}
    (h : cutAtLastAmpersand? s = some (before, reference)) :
    ∃ t, reference = '&' :: t ∧ '&' ∉ t := by
  induction s generalizing before reference with
  | nil => cases h
  | cons c rest ih =>
    rw [cutAtLastAmpersand?] at h
    split at h
    · rename_i a b hab
      cases h
      exact ih hab
    · rename_i hnone
      split at h
      · rename_i hc
        cases h
        exact ⟨rest, by rw [hc], not_mem_of_cutAtLastAmpersand? hnone⟩
      · cases h

/-- Trimming the end does not cut a reference at the beginning that shows something. -/
theorem keeps_trimEnd {s : Text}
    (h : ∀ r ∈ WrittenReference.lead? s, WrittenReference.isBlank r = false) :
    WrittenReference.Keeps s (trimEnd s) := by
  refine ⟨trimEnd_prefix_self s, fun r hr => ?_⟩
  have hshown := h r hr
  obtain ⟨body, semicolon, after, rfl, hs, hleading⟩ := WrittenReference.lead?_eq_some.mp hr
  clear h hr
  have hbody := hleading.isBodyChar
  fun_induction trimEnd s generalizing after with
  | case1 s hlast ih =>
    -- Whitespace at the end does not belong to the reference.
    have hne : after ≠ [] := by
      rintro rfl
      cases hc : s.getLast? with
      | none => simp [hc] at hlast
      | some c =>
        have hspace : Text.isSpace c = true := by simpa [hc] using hlast
        rw [hs, List.append_nil] at hc
        rcases List.mem_cons.mp (List.mem_of_getLast? hc) with rfl | hmem
        · exact absurd hspace (by decide)
        · rw [WrittenReference.isSpace_of_isBodyChar (hbody c hmem)] at hspace
          cases hspace
    refine ih after.dropLast ?_ (hleading.shorten (List.dropLast_prefix after))
    rw [hs, List.dropLast_append_of_ne_nil hne]
  | case2 s _ before reference hcut hblank ih =>
    obtain ⟨t, rfl, ht⟩ := cutAtLastAmpersand?_eq hcut
    have happend := append_of_cutAtLastAmpersand? hcut
    cases before with
    | nil =>
      -- All of the text is one reference, which is the one at its beginning.
      rw [List.nil_append] at happend
      rw [happend, hs] at hblank
      rw [List.cons_append, List.append_assoc] at hblank
      rw [hleading.after_eq_nil hblank.2.1, List.append_nil, hshown] at hblank
      cases hblank.2.2
    | cons c before =>
      rw [← happend, List.cons_append, List.cons_append] at hs
      obtain ⟨rfl, hrest⟩ := List.cons.inj hs
      have hamp : '&' ∉ body ++ semicolon := fun hmem => absurd (hbody _ hmem) (by decide)
      obtain ⟨more, rfl⟩ := Text.prefix_of_not_mem ⟨after, hrest.symm⟩ hamp
      rw [List.append_assoc] at hrest
      have hafter := List.append_cancel_left hrest
      exact ih more rfl (hleading.shorten ⟨'&' :: t, hafter⟩)
  | case3 => exact hs ▸ List.prefix_append _ _
  | case4 => exact hs ▸ List.prefix_append _ _

/-! ## Evidence -/

/-- The evidence in a list of ranges is a non-empty part of one of them, which is trimmed without an
obstacle. -/
theorem firstOf_inside {text : Text} {ranges : List (Int × Int)} {e : Span}
    (h : firstOf text ranges = .ok (some e)) :
    e.start < e.stop ∧ ∃ a b, (a, b) ∈ ranges ∧ e = trim text a.toNat b.toNat ∧
      obstacle? text a.toNat b.toNat = none := by
  induction ranges with
  | nil => simp [firstOf] at h
  | cons r rest ih =>
    obtain ⟨a, b⟩ := r
    simp only [firstOf] at h
    split at h
    · cases h
    · rename_i hobstacle
      split at h
      · rename_i hlt
        cases h
        exact ⟨hlt, a, b, List.mem_cons_self, rfl, hobstacle⟩
      · obtain ⟨hlt, a', b', hmem, he⟩ := ih h
        exact ⟨hlt, a', b', List.mem_cons_of_mem _ hmem, he⟩

/-- The evidence of a range is a non-empty part of the range. -/
theorem range?_inside {text : Text} {mask : Mask} {start stop : Nat} {e : Span}
    (h : range? text mask start stop = .ok (some e)) :
    e.start < e.stop ∧ e.Inside start stop := by
  obtain ⟨hlt, a, b, hmem, he, -⟩ := firstOf_inside h
  obtain ⟨ha, hab, hb⟩ := Mask.outside_inside hmem
  refine ⟨hlt, ?_⟩
  rw [he]
  exact (trim_inside (by omega)).mono (by omega) (by omega)

/-- The evidence of a range meets no expression of the mask. -/
theorem range?_apart {text : Text} {mask : Mask} (hspans : Mask.Ordered mask.spans)
    {start stop : Nat} {e : Span} (h : range? text mask start stop = .ok (some e)) :
    ∀ s ∈ mask.spans, e.stop ≤ s.start ∨ s.stop ≤ e.start := by
  obtain ⟨-, a, b, hmem, rfl, -⟩ := firstOf_inside h
  obtain ⟨ha, hab, -⟩ := Mask.outside_inside hmem
  have hin := @trim_inside text a.toNat b.toNat (by omega)
  intro s hs
  have := hin.lo_le
  have := hin.stop_le
  rcases Mask.outside_apart hspans hmem s hs with hs | hs
  · exact .inl (by omega)
  · exact .inr (by omega)

/-- Evidence begins with no whitespace, and with no reference or one that shows something. -/
theorem range?_lead {text : Text} {mask : Mask} {start stop : Nat} {e : Span}
    (h : range? text mask start stop = .ok (some e)) :
    (∀ c ∈ (Text.slice text e.start e.stop).head?, Text.isSpace c = false) ∧
      ∀ r ∈ WrittenReference.lead? (Text.slice text e.start e.stop),
        Text.isBlank (Reference.decode r) = false := by
  obtain ⟨hlt, a, b, hmem, rfl, hobstacle⟩ := firstOf_inside h
  obtain ⟨-, hab, -⟩ := Mask.outside_inside hmem
  rw [slice_trim (by omega)]
  obtain ⟨hhead, hlead⟩ := trimStart_lead (Text.slice text a.toNat b.toNat)
  unfold obstacle? at hobstacle
  generalize trimStart (Text.slice text a.toNat b.toNat) = kept at *
  have hkeeps := keeps_trimEnd hlead
  refine ⟨fun c hc => hhead c ?_, fun r hr => ?_⟩
  · obtain ⟨tail, htail⟩ := hkeeps.begins
    obtain ⟨rest, hrest⟩ := List.head?_eq_some_iff.mp hc
    rw [← htail, hrest]
    rfl
  · -- The reference is the one that was looked at, and could be read.
    rw [hkeeps.lead?_eq] at hr
    have hread : Reference.overlong? r = none := by
      obtain ⟨after, hafter, rfl⟩ := Option.map_eq_some_iff.mp hr
      simp only [hafter, Option.bind_some] at hobstacle
      cases hread : Reference.overlong? (kept.take (kept.length - after.length)) with
      | none => rfl
      | some reference => simp [hread] at hobstacle
    have hblank := hlead r hr
    rwa [WrittenReference.isBlank, hread, Option.isNone_none, Bool.true_and] at hblank

/-! ## Ranges that can be read -/

/-- Nothing keeps a range that can be read from being trimmed. -/
theorem obstacle?_eq_none {text : Text} {start stop : Nat} (hstop : stop ≤ text.length)
    (h : Reference.overlong? (Text.slice text start stop) = none) :
    obstacle? text start stop = none := by
  have hkept := (trimStart_suffix_self (Text.slice text start stop)).isInfix
  unfold obstacle?
  generalize trimStart (Text.slice text start stop) = kept at hkept
  have hfirst : ((WrittenReference.longest? kept).bind fun after =>
      Reference.overlong? (kept.take (kept.length - after.length))) = none := by
    refine Option.bind_eq_none_iff.mpr fun after _ => ?_
    exact Reference.overlong?_of_infix ((List.take_prefix _ _).isInfix.trans hkept) h
  have hlast : ((cutAtLastAmpersand? (trimEnd kept)).bind fun cut =>
      if WrittenReference.isWhole cut.2 then Reference.overlong? cut.2 else none) = none := by
    refine Option.bind_eq_none_iff.mpr fun cut hcut => ?_
    obtain ⟨before, reference⟩ := cut
    have hreference : reference <:+: trimEnd kept := by
      rw [← append_of_cutAtLastAmpersand? hcut]
      exact (List.suffix_append before reference).isInfix
    have hread := Reference.overlong?_of_infix
      ((hreference.trans (trimEnd_prefix_self kept).isInfix).trans hkept) h
    simp only [hread, ite_self]
  simp only [hfirst]
  rw [if_neg (by omega)]
  exact congrArg (Option.map EvidenceError.overlong) hlast

/-- A range that can be read has evidence or has none, but no error. -/
theorem range?_ok {text : Text} {start stop : Nat} (mask : Mask) (hstop : stop ≤ text.length)
    (h : Reference.overlong? (Text.slice text start stop) = none) :
    ∃ e, range? text mask start stop = .ok e := by
  have hinside : ∀ r ∈ mask.outside start stop, start ≤ r.1 ∧ r.1 < r.2 ∧ r.2 ≤ stop :=
    fun r hr => Mask.outside_inside hr
  unfold range?
  generalize mask.outside start stop = ranges at hinside
  induction ranges with
  | nil => exact ⟨none, rfl⟩
  | cons r ranges ih =>
    obtain ⟨a, b⟩ := r
    obtain ⟨hr, hranges⟩ := List.forall_mem_cons.mp hinside
    have hpart : Text.slice text a.toNat b.toNat <:+: Text.slice text start stop :=
      Text.slice_infix_slice text (by omega) (by omega)
    rw [firstOf, obstacle?_eq_none (by omega) (Reference.overlong?_of_infix hpart h)]
    simp only
    split
    · exact ⟨_, rfl⟩
    · exact ih hranges

end Evidence

end Untranslated
