import Untranslated.Locate.WrittenReference
import Untranslated.Proofs.Text

/-!
# Character references

Without an ampersand there is nothing to decode (`decode_eq_self`), and a text that can be read can be
read in parts (`overlong?_of_infix`). A reference as written begins with an ampersand and reaches
over no angle bracket (`WrittenReference.mem_rests`).
-/

namespace Untranslated

/-! ## Decoding -/

namespace Reference

theorem decode_eq_self {s : Text} (h : ∀ c ∈ s, c ≠ '&') : decode s = s := by
  induction s with
  | nil => simp [decode]
  | cons c rest ih =>
    obtain ⟨hc, hrest⟩ := List.forall_mem_cons.mp h
    rw [decode, ih hrest]
    exact hc

theorem overlong?_eq_none {s : Text} (h : ∀ c ∈ s, c ≠ '&') : overlong? s = none := by
  induction s with
  | nil => rfl
  | cons c rest ih =>
    obtain ⟨hc, hrest⟩ := List.forall_mem_cons.mp h
    rw [overlong?, ih hrest]
    rintro - rfl
    exact absurd rfl hc

theorem overlong?_of_cons {c : Char} {s : Text} (h : overlong? (c :: s) = none) :
    overlong? s = none := by
  unfold overlong? at h
  split at h
  · rename_i heq
    cases heq
  · rename_i rest heq
    obtain ⟨-, rfl⟩ := List.cons.inj heq
    rw [overlong?]
    · exact (Option.or_eq_none_iff.mp h).2
    · simp
  · rename_i heq
    obtain ⟨-, rfl⟩ := List.cons.inj heq
    exact h

theorem overlongNumber?_of_append {s after : Text} (h : overlongNumber? (s ++ after) = none) :
    overlongNumber? s = none := by
  have hle : (s.takeWhile Text.isDigit).length ≤ ((s ++ after).takeWhile Text.isDigit).length := by
    rw [List.takeWhile_append]
    split
    · simp_all
    · exact Nat.le_refl _
  simp only [overlongNumber?, ite_eq_right_iff, reduceCtorEq, imp_false] at h ⊢
  omega

theorem overlong?_of_append {s after : Text} (h : overlong? (s ++ after) = none) :
    overlong? s = none := by
  fun_induction overlong? s with
  | case1 => rfl
  | case2 rest ih =>
    rw [List.cons_append, List.cons_append, overlong?, Option.or_eq_none_iff] at h
    rw [overlongNumber?_of_append h.1, ih h.2]
    rfl
  | case3 c rest hne ih => exact ih (overlong?_of_cons h)

/-- A text that can be read can be read in parts. -/
theorem overlong?_of_infix {s t : Text} (hpart : s <:+: t) (h : overlong? t = none) :
    overlong? s = none := by
  obtain ⟨before, after, rfl⟩ := hpart
  rw [List.append_assoc] at h
  have hrest : overlong? (s ++ after) = none := by
    induction before with
    | nil => exact h
    | cons c before ih => exact ih (overlong?_of_cons h)
  exact overlong?_of_append hrest

end Reference

/-! ## References as written -/

namespace WrittenReference

theorem mem_afterRun {p : Char → Bool} {s r : Text} (h : r ∈ afterRun p s) :
    ∃ t, s = t ++ r ∧ ∀ c ∈ t, p c = true := by
  induction s with
  | nil => cases h
  | cons c rest ih =>
    rw [afterRun] at h
    split at h
    · rename_i hc
      rcases List.mem_append.mp h with h | h
      · obtain ⟨t, rfl, ht⟩ := ih h
        exact ⟨c :: t, rfl, List.forall_mem_cons.mpr ⟨hc, ht⟩⟩
      · rw [List.mem_singleton.mp h]
        exact ⟨[c], rfl, by simpa using hc⟩
    · cases h

theorem mem_afterSemicolon {s r : Text} (h : r ∈ afterSemicolon s) :
    ∃ t, s = t ++ r ∧ ∀ c ∈ t, c = ';' := by
  unfold afterSemicolon at h
  split at h
  · simp only [List.mem_cons, List.not_mem_nil, or_false] at h
    rcases h with rfl | rfl
    · exact ⟨[';'], rfl, by simp⟩
    · exact ⟨[], rfl, by simp⟩
  · rw [List.mem_singleton.mp h]
    exact ⟨[], rfl, by simp⟩

/-- The characters of a reference behind its ampersand. -/
def isBodyChar (c : Char) : Bool := Text.isLetterOrDigit c || c == '#' || c == ';'

theorem bracketless_of_isBodyChar {s : Text} (h : ∀ c ∈ s, isBodyChar c = true) :
    Text.Bracketless s := by
  intro c hc
  have hbody := h c hc
  constructor <;> rintro rfl <;> exact absurd hbody (by decide)

theorem isBodyChar_of_isLetterOrDigit {c : Char} (h : Text.isLetterOrDigit c = true) :
    isBodyChar c = true := by
  rw [isBodyChar, h]
  rfl

theorem isLetterOrDigit_of_isDigit {c : Char} (h : Text.isDigit c = true) :
    Text.isLetterOrDigit c = true := by
  rw [Text.isLetterOrDigit, h, Bool.or_true]

theorem isLetterOrDigit_of_isHexDigit {c : Char} (h : Text.isHexDigit c = true) :
    Text.isLetterOrDigit c = true := by
  simp only [Text.isHexDigit, Text.isLetterOrDigit, Text.isLetter, Text.isDigit, Bool.or_eq_true,
    Bool.and_eq_true, decide_eq_true_eq] at h ⊢
  rcases h with (h | ⟨hlo, hhi⟩) | ⟨hlo, hhi⟩
  · exact .inr h
  · exact .inl (.inl ⟨hlo, Char.le_trans hhi (by decide)⟩)
  · exact .inl (.inr ⟨hlo, Char.le_trans hhi (by decide)⟩)

theorem mem_afterBody {s r : Text} (h : r ∈ afterBody s) :
    ∃ t, s = t ++ r ∧ ∀ c ∈ t, isBodyChar c = true := by
  -- The characters read first, and then a run of letters or digits.
  have run : ∀ {p : Char → Bool} (lead : Text) {rest : Text}, lead.all isBodyChar = true →
      (∀ c, p c = true → Text.isLetterOrDigit c = true) → r ∈ afterRun p rest →
      ∃ t, lead ++ rest = t ++ r ∧ ∀ c ∈ t, isBodyChar c = true := by
    intro p lead rest hlead hp hr
    obtain ⟨t, rfl, ht⟩ := mem_afterRun hr
    refine ⟨lead ++ t, by simp, List.forall_mem_append.mpr ⟨List.all_eq_true.mp hlead, fun c hc => ?_⟩⟩
    exact isBodyChar_of_isLetterOrDigit (hp c (ht c hc))
  unfold afterBody at h
  split at h
  · exact run ['#', 'x'] (by decide) (fun _ => isLetterOrDigit_of_isHexDigit) h
  · exact run ['#', 'X'] (by decide) (fun _ => isLetterOrDigit_of_isHexDigit) h
  · exact run ['#'] (by decide) (fun _ => isLetterOrDigit_of_isDigit) h
  · rename_i c rest _ _ _
    split at h
    · rename_i hletter
      have hc : isBodyChar c = true := by
        refine isBodyChar_of_isLetterOrDigit ?_
        rw [Text.isLetterOrDigit, hletter, Bool.true_or]
      rcases List.mem_append.mp h with h | h
      · exact run [c] (by simpa using hc) (fun _ => id) h
      · rw [List.mem_singleton.mp h]
        exact ⟨[c], rfl, by simpa using hc⟩
    · cases h
  · cases h

/-- A reference begins with an ampersand and reaches over no bracket. -/
theorem mem_rests {s r : Text} (h : r ∈ rests s) :
    ∃ t, s = t ++ r ∧ '&' ∈ t ∧ Text.Bracketless t := by
  unfold rests at h
  split at h
  · obtain ⟨r', hr', hr⟩ := List.mem_flatMap.mp h
    obtain ⟨t, rfl, ht⟩ := mem_afterBody hr'
    obtain ⟨u, rfl, hu⟩ := mem_afterSemicolon hr
    refine ⟨'&' :: (t ++ u), by simp, List.mem_cons_self, ?_⟩
    have hamp : Text.Bracketless ['&'] := fun c hc => by
      rw [List.mem_singleton.mp hc]
      decide
    have hsemicolon : Text.Bracketless u := fun c hc => by
      rw [hu c hc]
      decide
    exact hamp.append ((bracketless_of_isBodyChar ht).append hsemicolon)
  · cases h

end WrittenReference

end Untranslated
