import Untranslated.Proofs.Locate.Evidence
import Untranslated.Proofs.Reference.Respelled

/-!
# Evidence in respelled texts

Trimming takes whitespace and blank references off the ends of a range. It takes off the same of a respelled
range (`Evidence.trimStart_respelled`, `Evidence.trimEnd_respelled`), so the evidence of a range that can be
read comes to lie where its offsets are moved (`Evidence.range?_moved`).
-/

namespace Untranslated

open Text (moved Respelled)

namespace WrittenReference

variable {s s' : Text}

/-- A text that is one reference holds no line break. -/
theorem breakless_of_isWhole (h : isWhole s = true) : s.Breakless := by
  obtain ⟨body, semicolon, after, hs, -, hleading⟩ := lead?_eq_some.mp (isWhole_iff.mp h)
  exact hs ▸ hleading.breakless

theorem isWhole_respelled (h : Respelled s s') : isWhole s' = isWhole s := by
  refine Bool.eq_iff_iff.mpr ⟨fun hwhole => ?_, fun hwhole => ?_⟩
  · have hnil : Respelled s (s' ++ []) := (List.append_nil s').symm ▸ h
    obtain ⟨t, rfl, ht⟩ := hnil.of_append_right fun hmem => (breakless_of_isWhole hwhole _ hmem).1 rfl
    rw [ht.eq_nil_iff.mp rfl, List.append_nil]
    exact hwhole
  · rw [h.eq_self (breakless_of_isWhole hwhole).not_mem]
    exact hwhole

/-- Whether a text is one blank reference does not hang on its line breaks. -/
theorem blank_respelled (h : Respelled s s') :
    (isWhole s' = true ∧ isBlank s' = true) ↔ (isWhole s = true ∧ isBlank s = true) := by
  rw [isWhole_respelled h]
  refine and_congr_right fun hwhole => ?_
  rw [h.eq_self (breakless_of_isWhole hwhole).not_mem]

end WrittenReference

namespace Evidence

variable {s s' text text' : Text}

/-! ## Trimming -/

/-- Whitespace at the beginning is taken off, and so is a blank reference. -/
theorem trimStart_cons (c : Char) (rest : Text) :
    trimStart (c :: rest) =
      if Text.isSpace c then trimStart rest
      else
        match WrittenReference.lead? (c :: rest) with
        | some r =>
          if WrittenReference.isBlank r then trimStart ((c :: rest).drop r.length) else c :: rest
        | none => c :: rest := by
  rw [trimStart]
  cases hlongest : WrittenReference.longest? (c :: rest) with
  | none => simp only [WrittenReference.lead?, hlongest, Option.map_none]
  | some after =>
    obtain ⟨body, semicolon, hs, -⟩ := WrittenReference.longest?_eq_some.mp hlongest
    have hcut : c :: rest = '&' :: (body ++ semicolon) ++ after := by simp [hs]
    have hlength : (c :: rest).length - after.length = ('&' :: (body ++ semicolon)).length := by
      rw [hcut, List.length_append, Nat.add_sub_cancel]
    have hle : after.length ≤ rest.length := by
      have := congrArg List.length hcut
      simp only [List.length_cons, List.length_append] at this
      omega
    have htake : (c :: rest).take ((c :: rest).length - after.length) = '&' :: (body ++ semicolon) := by
      rw [hlength, hcut, List.take_left]
    have hdrop : (c :: rest).drop ('&' :: (body ++ semicolon)).length = after := by
      rw [hcut, List.drop_left]
    rw [List.length_cons] at htake
    simp only [WrittenReference.lead?, hlongest, Option.map_some, List.length_cons, htake, hle, true_and]
    rw [← List.length_cons, hdrop]

/-- The same is taken off the beginning of a respelled text. -/
theorem trimStart_respelled (h : Respelled s s') :
    ∃ lead lead', s = lead ++ trimStart s ∧ s' = lead' ++ trimStart s' ∧ Respelled lead lead' ∧
      Respelled (trimStart s) (trimStart s') := by
  induction hn : s.length using Nat.strongRecOn generalizing s s' with
  | ind n ih =>
  subst hn
  cases h with
  | nil =>
    rw [trimStart]
    exact ⟨[], [], rfl, rfl, .nil, .nil⟩
  | @feed s s' h =>
    obtain ⟨lead, lead', hs, hs', hlead, hkept⟩ := ih _ (Nat.lt_succ_self _) h rfl
    have htrim : trimStart ('\n' :: s) = trimStart s := by rw [trimStart_cons, if_pos (by decide)]
    have htrim' : trimStart ('\r' :: '\n' :: s') = trimStart s' := by
      rw [trimStart_cons, if_pos (by decide), trimStart_cons, if_pos (by decide)]
    rw [htrim, htrim']
    exact ⟨'\n' :: lead, '\r' :: '\n' :: lead', by rw [List.cons_append, ← hs],
      by rw [List.cons_append, List.cons_append, ← hs'], .feed hlead, hkept⟩
  | @cons c s s' h =>
    have hcons : Respelled (c :: s) (c :: s') := .cons c h
    rw [trimStart_cons, trimStart_cons, WrittenReference.lead?_respelled hcons]
    split
    · obtain ⟨lead, lead', hs, hs', hlead, hkept⟩ := ih _ (Nat.lt_succ_self _) h rfl
      exact ⟨c :: lead, c :: lead', by rw [List.cons_append, ← hs], by rw [List.cons_append, ← hs'],
        .cons c hlead, hkept⟩
    · cases hreference : WrittenReference.lead? (c :: s) with
      | none => exact ⟨[], [], rfl, rfl, .nil, hcons⟩
      | some r =>
        simp only
        split
        · obtain ⟨body, semicolon, after, rfl, hcut, hleading⟩ :=
            WrittenReference.lead?_eq_some.mp hreference
          obtain ⟨after', hcut', hafter⟩ := (hcut ▸ hcons).of_append_left hleading.breakless.not_mem
          have hlength : after.length < (c :: s).length := by
            rw [hcut, List.length_append]
            simp
          obtain ⟨lead, lead', hs, hs', hlead, hkept⟩ := ih _ hlength hafter rfl
          rw [hcut, hcut', List.drop_left, List.drop_left]
          exact ⟨_ ++ lead, _ ++ lead', by rw [List.append_assoc, ← hs],
            by rw [List.append_assoc, ← hs'], (Respelled.refl _).append hlead, hkept⟩
        · exact ⟨[], [], rfl, rfl, .nil, hcons⟩

theorem cutAtLastAmpersand?_respelled (h : Respelled s s') :
    cutAtLastAmpersand? s = none ∧ cutAtLastAmpersand? s' = none ∨
      ∃ before reference before' reference', cutAtLastAmpersand? s = some (before, reference) ∧
        cutAtLastAmpersand? s' = some (before', reference') ∧ Respelled before before' ∧
          Respelled reference reference' := by
  induction h with
  | nil => exact .inl ⟨rfl, rfl⟩
  | @cons c s s' h ih =>
    simp only [cutAtLastAmpersand?]
    rcases ih with ⟨hs, hs'⟩ | ⟨before, reference, before', reference', hs, hs', hbefore, hreference⟩
    · simp only [hs, hs']
      split
      · exact .inr ⟨_, _, _, _, rfl, rfl, .nil, .cons c h⟩
      · exact .inl ⟨rfl, rfl⟩
    · rw [hs, hs']
      exact .inr ⟨_, _, _, _, rfl, rfl, .cons c hbefore, hreference⟩
  | @feed s s' h ih =>
    simp only [cutAtLastAmpersand?]
    rcases ih with ⟨hs, hs'⟩ | ⟨before, reference, before', reference', hs, hs', hbefore, hreference⟩
    · rw [hs, hs']
      exact .inl ⟨by simp, by simp⟩
    · rw [hs, hs']
      exact .inr ⟨_, _, _, _, rfl, rfl, .feed hbefore, hreference⟩

/-- Whitespace at the end is taken off, and so is a blank reference. -/
theorem trimEnd_eq (s : Text) :
    trimEnd s =
      if s.getLast?.any Text.isSpace then trimEnd s.dropLast
      else
        match cutAtLastAmpersand? s with
        | some (before, reference) =>
          if WrittenReference.isWhole reference = true ∧ WrittenReference.isBlank reference = true then
            trimEnd before
          else s
        | none => s := by
  rw [trimEnd]
  cases hcut : cutAtLastAmpersand? s with
  | none => rfl
  | some cut =>
    obtain ⟨before, reference⟩ := cut
    have hlength : before.length < s.length := by
      obtain ⟨t, rfl, -⟩ := cutAtLastAmpersand?_eq hcut
      rw [← append_of_cutAtLastAmpersand? hcut, List.length_append, List.length_cons]
      omega
    simp only [hlength, true_and]

theorem trimEnd_space {c : Char} (hc : Text.isSpace c = true) (s : Text) :
    trimEnd (s ++ [c]) = trimEnd s := by
  rw [trimEnd_eq, if_pos (by simpa using hc), List.dropLast_concat]

/-- The same is taken off the end of a respelled text. -/
theorem trimEnd_respelled (h : Respelled s s') :
    ∃ tail tail', s = trimEnd s ++ tail ∧ s' = trimEnd s' ++ tail' ∧
      Respelled (trimEnd s) (trimEnd s') ∧ Respelled tail tail' := by
  induction hn : s.length using Nat.strongRecOn generalizing s s' with
  | ind n ih =>
  subst hn
  by_cases hspace : s.getLast?.any Text.isSpace = true
  · obtain rfl | ⟨init, c, hconcat⟩ := List.eq_nil_or_concat s
    · cases hspace
    · rw [List.concat_eq_append] at hconcat
      subst hconcat
      obtain ⟨init', last', rfl, hinit, hlast⟩ := h.of_append
      have hc : Text.isSpace c = true := by simpa using hspace
      obtain ⟨tail, tail', hs, hs', hkept, htail⟩ := ih init.length (by simp) hinit rfl
      -- A line feed that got a carriage return is taken off together with it.
      have htrim' : trimEnd (init' ++ last') = trimEnd init' := by
        cases hlast with
        | cons _ hnil =>
          cases hnil
          exact trimEnd_space hc init'
        | feed hnil =>
          cases hnil
          rw [show ['\r', '\n'] = ['\r'] ++ ['\n'] from rfl, ← List.append_assoc,
            trimEnd_space (by decide), trimEnd_space (by decide)]
      rw [trimEnd_space hc, htrim']
      exact ⟨tail ++ [c], tail' ++ last', by rw [← List.append_assoc, ← hs],
        by rw [← List.append_assoc, ← hs'], hkept, htail.append hlast⟩
  · rw [trimEnd_eq s, trimEnd_eq s', h.getLast?_eq, if_neg hspace, if_neg hspace]
    rcases cutAtLastAmpersand?_respelled h with
      ⟨hnone, hnone'⟩ | ⟨before, reference, before', reference', hcut, hcut', hbefore, hreference⟩
    · rw [hnone, hnone']
      exact ⟨[], [], (List.append_nil s).symm, (List.append_nil s').symm, h, .nil⟩
    · rw [hcut, hcut']
      simp only [WrittenReference.blank_respelled hreference]
      split
      · have hwhole := append_of_cutAtLastAmpersand? hcut
        have hlength : before.length < s.length := by
          obtain ⟨t, rfl, -⟩ := cutAtLastAmpersand?_eq hcut
          rw [← hwhole, List.length_append, List.length_cons]
          omega
        obtain ⟨tail, tail', hs, hs', hkept, htail⟩ := ih _ hlength hbefore rfl
        refine ⟨tail ++ reference, tail' ++ reference', ?_, ?_, hkept, htail.append hreference⟩
        · rw [← List.append_assoc, ← hs, hwhole]
        · rw [← List.append_assoc, ← hs', append_of_cutAtLastAmpersand? hcut']
      · exact ⟨[], [], (List.append_nil s).symm, (List.append_nil s').symm, h, .nil⟩

/-! ## Ranges -/

/-- A moved range is trimmed to the moved rest. -/
theorem trim_moved (h : Respelled text text') {start stop : Nat} (hle : start ≤ stop) :
    trim text' (moved text text' start) (moved text text' stop) =
      (trim text start stop).moved text text' := by
  have hslice := h.slice start stop
  have hdrop := Text.slice_append_drop (s := text) hle
  have hdrop' := Text.slice_append_drop (s := text') (h.moved_le_moved hle)
  simp only [trim, Span.moved]
  generalize Text.slice text start stop = fragment at *
  generalize Text.slice text' (moved text text' start) (moved text text' stop) = fragment' at *
  obtain ⟨lead, lead', hcut, hcut', hlead, hkept⟩ := trimStart_respelled hslice
  obtain ⟨tail, tail', hkeep, hkeep', hrest, -⟩ := trimEnd_respelled hkept
  generalize trimStart fragment = kept at *
  generalize trimStart fragment' = kept' at *
  have hfirst : fragment.length - kept.length = lead.length := by
    rw [hcut, List.length_append, Nat.add_sub_cancel]
  have hfirst' : fragment'.length - kept'.length = lead'.length := by
    rw [hcut', List.length_append, Nat.add_sub_cancel]
  have hstart : text.drop start = lead ++ (kept ++ text.drop stop) := by
    rw [← hdrop, hcut, List.append_assoc]
  have hstart' : text'.drop (moved text text' start) =
      lead' ++ (kept' ++ text'.drop (moved text text' stop)) := by
    rw [← hdrop', hcut', List.append_assoc]
  have hmoved := h.moved_append hlead hstart hstart'
  have hbehind : text.drop (start + lead.length) = trimEnd kept ++ (tail ++ text.drop stop) := by
    rw [Text.drop_of_drop hstart, ← List.append_assoc, ← hkeep]
  have hbehind' : text'.drop (moved text text' (start + lead.length)) =
      trimEnd kept' ++ (tail' ++ text'.drop (moved text text' stop)) := by
    rw [hmoved, Text.drop_of_drop hstart', ← List.append_assoc, ← hkeep']
  rw [hfirst, hfirst', h.moved_append hrest hbehind hbehind', hmoved]

/-- The first evidence in moved ranges that can be read is the moved evidence. -/
theorem firstOf_moved (h : Respelled text text') {ranges : List (Int × Int)}
    (hranges : ∀ r ∈ ranges, 0 ≤ r.1 ∧ r.1 < r.2 ∧ r.2 ≤ text.length ∧
      Reference.overlong? (Text.slice text r.1.toNat r.2.toNat) = none) :
    firstOf text' (ranges.map fun r =>
        ((moved text text' r.1.toNat : Int), (moved text text' r.2.toNat : Int))) =
      (firstOf text ranges).map (Option.map (Span.moved text text')) := by
  induction ranges with
  | nil => rfl
  | cons r ranges ih =>
    obtain ⟨a, b⟩ := r
    obtain ⟨⟨hpos, hlt, hstop, hread⟩, hranges⟩ := List.forall_mem_cons.mp hranges
    simp only at hpos hlt hstop hread
    have hread' := (Reference.overlong?_respelled (h.slice a.toNat b.toNat)).trans hread
    have hinside : (trim text a.toNat b.toNat).Inside a.toNat b.toNat := trim_inside (by omega)
    have hshown : moved text text' (trim text a.toNat b.toNat).start <
        moved text text' (trim text a.toNat b.toNat).stop ↔
          (trim text a.toNat b.toNat).start < (trim text a.toNat b.toNat).stop := by
      have := hinside.stop_le
      rw [← Nat.not_le, ← Nat.not_le, h.moved_le_iff (by omega)]
    rw [List.map_cons, firstOf, firstOf, obstacle?_eq_none (by omega) hread]
    simp only [Int.toNat_natCast]
    rw [obstacle?_eq_none (h.moved_le_length _) hread']
    simp only [trim_moved h (show a.toNat ≤ b.toNat by omega), Span.moved, hshown]
    split
    · rfl
    · exact ih hranges

/-- The evidence in a moved range that can be read is the moved evidence. -/
theorem range?_moved (h : Respelled text text') {spans : List Span} {delimiters : Option Delimiters}
    (hspans : ∀ s ∈ spans, s.Inside 0 text.length) {start stop : Nat} (hle : start ≤ stop)
    (hstop : stop ≤ text.length) (hread : Reference.overlong? (Text.slice text start stop) = none) :
    range? text' ⟨spans.map (Span.moved text text'), delimiters⟩ (moved text text' start)
        (moved text text' stop) =
      (range? text ⟨spans, delimiters⟩ start stop).map (Option.map (Span.moved text text')) := by
  unfold range?
  rw [Mask.outside_moved h hspans (Nat.le_trans hle hstop) hstop]
  refine firstOf_moved h fun r hr => ?_
  obtain ⟨hlo, hlt, hhi⟩ := Mask.outside_inside hr
  refine ⟨by omega, hlt, by omega, Reference.overlong?_of_infix ?_ hread⟩
  exact Text.slice_infix_slice text (by omega) (by omega)

end Evidence

end Untranslated
