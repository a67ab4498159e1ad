import Untranslated.Text.Case

/-!
# Lower case

A text in lower case stays as it is when it is put in lower case again (`lower_lower`). That small
letters are no capitals is settled over the table of capitals, run against run
(`capitalRuns_apart`); the rest is arithmetic inside the runs.
-/

namespace Untranslated.Text

/-! ## Runs of capitals -/

/-- A run of capitals: the first one, the last one, the step between them, and how far behind each its
small letter is. -/
abbrev Run := Nat × Nat × Nat × Int

namespace Run

/-- The code point is one of the capitals. -/
def Has (r : Run) (n : Nat) : Prop := r.1 ≤ n ∧ n ≤ r.2.1 ∧ (n - r.1) % r.2.2.1 = 0

instance (r : Run) (n : Nat) : Decidable (r.Has n) := inferInstanceAs (Decidable (_ ∧ _))

/-- The small letter of the first capital. -/
def small (r : Run) : Nat := Int.toNat (r.1 + r.2.2.2)

/-- The small letter of the last capital. -/
def lastSmall (r : Run) : Nat := r.small + (r.2.1 - r.1)

/-- A run whose small letters are characters, other than the dotted capital I. -/
def IsProper (r : Run) : Prop :=
  0 ≤ r.1 + r.2.2.2 ∧ (r.lastSmall < 0xD800 ∨ 0xDFFF < r.small ∧ r.lastSmall < 0x110000) ∧
    (r.lastSmall < 0x130 ∨ 0x130 < r.small)

instance (r : Run) : Decidable r.IsProper := inferInstanceAs (Decidable (_ ∧ _))

/-- The small letters of a run are not among the capitals of another: they lie before or behind them,
or in the gaps between them. -/
def isApart (r r' : Run) : Bool :=
  Nat.blt r.lastSmall r'.1 || Nat.blt r'.2.1 r.small ||
    (Nat.beq r'.2.2.1 2 && (Nat.beq r.2.2.1 2 || Nat.beq r.1 r.2.1) &&
      Nat.beq ((r.small + r'.1) % 2) 1)

theorem not_has_of_isApart {r r' : Run} {n : Nat} (h : r.isApart r' = true) (hn : r.Has n) :
    ¬r'.Has (r.small + (n - r.1)) := by
  obtain ⟨hfirst, hlast, hstep⟩ := hn
  rintro ⟨hfirst', hlast', hstep'⟩
  simp only [isApart, Bool.or_eq_true, Bool.and_eq_true, Nat.blt_eq, Nat.beq_eq, lastSmall] at h
  rcases h with (h | h) | ⟨⟨htwo, h⟩, hodd⟩
  · omega
  · omega
  · rw [htwo] at hstep'
    rcases h with h | h
    · rw [h] at hstep
      omega
    · omega

/-- The small letter of a capital. -/
theorem toNat_small {r : Run} {n : Nat} (h : r.IsProper) (hn : r.Has n) :
    (Char.ofNat (Int.toNat (n + r.2.2.2))).toNat = r.small + (n - r.1) := by
  obtain ⟨hfirst, hlast, -⟩ := hn
  obtain ⟨hpos, hvalid, -⟩ := h
  have hcode : Int.toNat (n + r.2.2.2) = r.small + (n - r.1) := by
    unfold small
    omega
  have hchar : (r.small + (n - r.1)).isValidChar := by
    unfold lastSmall at hvalid
    unfold Nat.isValidChar
    omega
  rw [hcode, Char.ofNat, dif_pos hchar]
  rfl

end Run

theorem capitalRuns_proper : ∀ r ∈ capitalRuns, Run.IsProper r := by decide +kernel

theorem capitalRuns_apart : (capitalRuns.all fun r => capitalRuns.all (Run.isApart r)) = true := by
  decide +kernel

/-- Only the first run holds ASCII letters. -/
theorem capitalRuns_ascii : ∀ r ∈ capitalRuns, r = (0x41, 0x5A, 1, 32) ∨ 0x80 ≤ r.1 := by
  decide +kernel

/-! ## Small letters -/

/-- A character that lower case leaves alone. -/
def IsSmall (c : Char) : Prop := (∀ r ∈ capitalRuns, ¬Run.Has r c.toNat) ∧ c.toNat ≠ 0x130

instance (c : Char) : Decidable (IsSmall c) := inferInstanceAs (Decidable (_ ∧ _))

theorem isSmall_of_has {r : Run} (hr : r ∈ capitalRuns) {n : Nat} (hn : r.Has n) :
    IsSmall (Char.ofNat (Int.toNat (n + r.2.2.2))) := by
  have hcode := Run.toNat_small (capitalRuns_proper r hr) hn
  refine ⟨fun r' hr' => ?_, ?_⟩
  · rw [hcode]
    have hall := List.all_eq_true.mp (List.all_eq_true.mp capitalRuns_apart r hr) r' hr'
    exact Run.not_has_of_isApart hall hn
  · obtain ⟨-, -, hdot⟩ := capitalRuns_proper r hr
    obtain ⟨hfirst, hlast, -⟩ := hn
    rw [hcode]
    unfold Run.lastSmall at hdot
    omega

/-- An ASCII letter is a capital of the first run, and other ASCII characters are of none. -/
theorem has_of_lt {c : Char} (hc : c.toNat < 0x80) {r : Run} (hr : r ∈ capitalRuns)
    (h : r.Has c.toNat) : 'A' ≤ c ∧ c ≤ 'Z' := by
  rcases capitalRuns_ascii r hr with rfl | hfirst
  · exact ⟨h.1, h.2.1⟩
  · obtain ⟨hle, -⟩ := h
    omega

theorem lowerChar_of_isSmall {c : Char} (h : IsSmall c) : lowerChar c = c := by
  obtain ⟨hruns, hdot⟩ := h
  unfold lowerChar
  split
  · rw [if_neg]
    rintro ⟨hA, hZ⟩
    exact hruns (0x41, 0x5A, 1, 32) (by decide) ⟨hA, hZ, Nat.mod_one _⟩
  · split
    · rename_i hfound
      have hhas := List.find?_some hfound
      exact absurd (by simpa [Run.Has, and_assoc] using hhas)
        (hruns _ (List.mem_of_find?_eq_some hfound))
    · rfl

theorem isSmall_lowerChar {c : Char} (hdot : c.toNat ≠ 0x130) : IsSmall (lowerChar c) := by
  unfold lowerChar
  split
  · rename_i hascii
    split
    · rename_i hletter
      exact isSmall_of_has (r := (0x41, 0x5A, 1, 32)) (by decide)
        ⟨hletter.1, hletter.2, Nat.mod_one _⟩
    · rename_i hletter
      exact ⟨fun r hr h => hletter (has_of_lt hascii hr h), hdot⟩
  · split
    · rename_i first last step shift hfound
      have hhas := List.find?_some hfound
      exact isSmall_of_has (List.mem_of_find?_eq_some hfound)
        (by simpa [Run.Has, and_assoc] using hhas)
    · rename_i hnone
      refine ⟨fun r hr h => ?_, hdot⟩
      have hmiss := List.find?_eq_none.mp hnone r hr
      exact hmiss (by simpa [Run.Has, and_assoc] using h)

/-- What takes the place of the capitals that are not lowered one by one. -/
theorem isSmall_special :
    ∀ c ∈ [Char.ofNat 0x3C2, Char.ofNat 0x3C3, 'i', Char.ofNat 0x307], IsSmall c := by
  simp only [List.forall_mem_cons, List.not_mem_nil, false_implies, implies_true, and_true]
  decide +kernel

theorem isSmall_of_mem_lowerAfter {before s : Text} {c : Char} (h : c ∈ lowerAfter before s) :
    IsSmall c := by
  induction s generalizing before with
  | nil => cases h
  | cons d s ih =>
    rw [lowerAfter, List.mem_append] at h
    rcases h with h | h
    · split at h
      · apply isSmall_special
        split at h <;> simp_all
      · split at h
        · apply isSmall_special
          simp_all
        · rename_i hdot
          rw [List.mem_singleton.mp h]
          exact isSmall_lowerChar hdot
    · exact ih h

theorem lowerAfter_of_isSmall {before s : Text} (h : ∀ c ∈ s, IsSmall c) :
    lowerAfter before s = s := by
  induction s generalizing before with
  | nil => rfl
  | cons c s ih =>
    obtain ⟨hc, hs⟩ := List.forall_mem_cons.mp h
    -- The capital sigma is in the table as well.
    have hsigma : c.toNat ≠ 0x3A3 := fun hsigma =>
      hc.1 (0x3A3, 0x3AB, 1, 32) (by decide) (by rw [hsigma]; decide)
    rw [lowerAfter, if_neg hsigma, if_neg hc.2, lowerChar_of_isSmall hc, ih hs]
    rfl

/-- A text in lower case is its own lower case. -/
theorem lower_lower (s : Text) : lower (lower s) = lower s :=
  lowerAfter_of_isSmall fun _ hc => isSmall_of_mem_lowerAfter hc

end Untranslated.Text
