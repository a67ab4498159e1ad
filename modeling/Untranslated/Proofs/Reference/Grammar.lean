import Untranslated.Proofs.Reference.Respelled

/-!
# How references are written

`WrittenReference.IsReference` is the grammar of references as written: a name, a decimal or a hexadecimal
number behind an ampersand, and a semicolon that may be missing. The search for references takes exactly the
texts of the grammar off the beginning of a text (`mem_rests_iff`), so a text is a whole reference just if it
is one by the grammar (`isWhole_iff_isReference`), and the one that is found first is the longest one
(`isLongest_iff`).
-/

namespace Untranslated.WrittenReference

/-- The name or the number of a reference. -/
inductive IsBody : Text → Prop
  | name {c : Char} {letters : Text} (hc : Text.isLetter c = true)
      (hletters : ∀ d ∈ letters, Text.isLetterOrDigit d = true) : IsBody (c :: letters)
  | decimal {digits : Text} (hne : digits ≠ []) (hdigits : ∀ d ∈ digits, Text.isDigit d = true) :
      IsBody ('#' :: digits)
  | hex {x : Char} {digits : Text} (hx : x = 'x' ∨ x = 'X') (hne : digits ≠ [])
      (hdigits : ∀ d ∈ digits, Text.isHexDigit d = true) : IsBody ('#' :: x :: digits)

/-- The text is a reference as it may be written. -/
def IsReference (t : Text) : Prop :=
  ∃ body semicolon, t = '&' :: (body ++ semicolon) ∧ IsBody body ∧ (semicolon = [] ∨ semicolon = [';'])

variable {s r t : Text}

theorem mem_afterRun_iff {p : Char → Bool} :
    r ∈ afterRun p s ↔ ∃ t, t ≠ [] ∧ s = t ++ r ∧ ∀ c ∈ t, p c = true := by
  constructor
  · intro h
    induction s with
    | nil => cases h
    | cons c rest ih =>
      rw [afterRun] at h
      split at h
      · rename_i hc
        rcases List.mem_append.mp h with h | h
        · obtain ⟨t, -, rfl, ht⟩ := ih h
          exact ⟨c :: t, List.cons_ne_nil _ _, rfl, List.forall_mem_cons.mpr ⟨hc, ht⟩⟩
        · rw [List.mem_singleton.mp h]
          exact ⟨[c], List.cons_ne_nil _ _, rfl, by simpa using hc⟩
      · cases h
  · rintro ⟨t, hne, rfl, ht⟩
    induction t with
    | nil => exact absurd rfl hne
    | cons c t ih =>
      obtain ⟨hc, ht⟩ := List.forall_mem_cons.mp ht
      rw [List.cons_append, afterRun, if_pos hc, List.mem_append]
      by_cases hnil : t = []
      · exact .inr (by simp [hnil])
      · exact .inl (ih hnil ht)

theorem mem_afterSemicolon_iff :
    r ∈ afterSemicolon s ↔ ∃ semicolon, s = semicolon ++ r ∧ (semicolon = [] ∨ semicolon = [';']) := by
  constructor
  · intro h
    unfold afterSemicolon at h
    split at h
    · simp only [List.mem_cons, List.not_mem_nil, or_false] at h
      rcases h with rfl | rfl
      · exact ⟨[';'], rfl, .inr rfl⟩
      · exact ⟨[], rfl, .inl rfl⟩
    · rw [List.mem_singleton.mp h]
      exact ⟨[], rfl, .inl rfl⟩
  · rintro ⟨semicolon, rfl, rfl | rfl⟩
    · unfold afterSemicolon
      split <;> simp_all
    · simp [afterSemicolon]

theorem mem_afterBody_iff : r ∈ afterBody s ↔ ∃ body, s = body ++ r ∧ IsBody body := by
  constructor
  · intro h
    unfold afterBody at h
    split at h
    · obtain ⟨digits, hne, rfl, hdigits⟩ := mem_afterRun_iff.mp h
      exact ⟨'#' :: 'x' :: digits, rfl, .hex (.inl rfl) hne hdigits⟩
    · obtain ⟨digits, hne, rfl, hdigits⟩ := mem_afterRun_iff.mp h
      exact ⟨'#' :: 'X' :: digits, rfl, .hex (.inr rfl) hne hdigits⟩
    · obtain ⟨digits, hne, rfl, hdigits⟩ := mem_afterRun_iff.mp h
      exact ⟨'#' :: digits, rfl, .decimal hne hdigits⟩
    · rename_i c rest _ _ _
      split at h
      · rename_i hc
        rcases List.mem_append.mp h with h | h
        · obtain ⟨letters, -, rfl, hletters⟩ := mem_afterRun_iff.mp h
          exact ⟨c :: letters, rfl, .name hc hletters⟩
        · rw [List.mem_singleton.mp h]
          exact ⟨[c], rfl, .name hc (by simp)⟩
      · cases h
    · cases h
  · rintro ⟨body, rfl, hbody⟩
    cases hbody with
    | @name c letters hc hletters =>
      have hne : c ≠ '#' := by
        rintro rfl
        exact absurd hc (by decide)
      rw [List.cons_append, afterBody, if_pos hc, List.mem_append]
      · by_cases hnil : letters = []
        · exact .inr (by simp [hnil])
        · exact .inl (mem_afterRun_iff.mpr ⟨letters, hnil, rfl, hletters⟩)
      all_goals
        intros
        exact hne ‹_›
    | @decimal digits hne hdigits =>
      obtain ⟨d, digits, rfl⟩ := List.exists_cons_of_ne_nil hne
      have hd := hdigits d List.mem_cons_self
      rw [List.cons_append, List.cons_append, afterBody]
      · exact mem_afterRun_iff.mpr ⟨d :: digits, hne, rfl, hdigits⟩
      · rintro _ ⟨rfl, -⟩
        exact absurd hd (by decide)
      · rintro _ ⟨rfl, -⟩
        exact absurd hd (by decide)
    | @hex x digits hx hne hdigits =>
      rcases hx with rfl | rfl
      · exact mem_afterRun_iff.mpr ⟨digits, hne, rfl, hdigits⟩
      · exact mem_afterRun_iff.mpr ⟨digits, hne, rfl, hdigits⟩

/-- What can follow a reference is what follows one by the grammar. -/
theorem mem_rests_iff : r ∈ rests s ↔ ∃ t, s = t ++ r ∧ IsReference t := by
  constructor
  · intro h
    unfold rests at h
    split at h
    · obtain ⟨r', hr', hr⟩ := List.mem_flatMap.mp h
      obtain ⟨body, rfl, hbody⟩ := mem_afterBody_iff.mp hr'
      obtain ⟨semicolon, rfl, hsemicolon⟩ := mem_afterSemicolon_iff.mp hr
      exact ⟨'&' :: (body ++ semicolon), by simp, body, semicolon, rfl, hbody, hsemicolon⟩
    · cases h
  · rintro ⟨_, rfl, body, semicolon, rfl, hbody, hsemicolon⟩
    rw [List.cons_append, rests, List.append_assoc, List.mem_flatMap]
    exact ⟨semicolon ++ r, mem_afterBody_iff.mpr ⟨body, rfl, hbody⟩,
      mem_afterSemicolon_iff.mpr ⟨semicolon, rfl, hsemicolon⟩⟩

theorem isWhole_iff_isReference : isWhole t = true ↔ IsReference t := by
  rw [isWhole, List.contains_eq_mem, decide_eq_true_eq, mem_rests_iff]
  constructor
  · rintro ⟨u, rfl, hu⟩
    rwa [List.append_nil]
  · intro h
    exact ⟨t, (List.append_nil t).symm, h⟩

/-- A reference begins with an ampersand, and holds no other one and no whitespace. -/
theorem IsReference.eq_cons (h : IsReference t) : ∃ u, t = '&' :: u ∧ ∀ c ∈ u, isBodyChar c = true := by
  obtain ⟨body, semicolon, after, rfl, -, hleading⟩ :=
    lead?_eq_some.mp (isWhole_iff.mp (isWhole_iff_isReference.mpr h))
  exact ⟨body ++ semicolon, rfl, hleading.isBodyChar⟩

theorem IsReference.mem (h : IsReference t) : '&' ∈ t := by
  obtain ⟨u, rfl, -⟩ := h.eq_cons
  exact List.mem_cons_self

/-! ## The longest reference -/

/-- The longest of the references that a text begins with. -/
structure IsLongest (r s : Text) : Prop where
  reference : IsReference r
  begins : r <+: s
  longest : ∀ t, IsReference t → t <+: s → t.length ≤ r.length

theorem isReference_of_lead? (h : lead? s = some r) : IsReference r := by
  obtain ⟨body, semicolon, after, rfl, -, hleading⟩ := lead?_eq_some.mp h
  refine isWhole_iff_isReference.mp (isWhole_iff.mpr (lead?_eq_some.mpr ?_))
  exact ⟨body, semicolon, [], rfl, (List.append_nil _).symm, hleading.shorten List.nil_prefix⟩

/-- A reference that a text begins with is the beginning of the one that is found. -/
theorem IsReference.prefix_lead (h : IsReference t) (hs : t <+: s) : ∃ r, lead? s = some r ∧ t <+: r := by
  obtain ⟨rest, rfl⟩ := hs
  have hmem : rest ∈ rests (t ++ rest) := mem_rests_iff.mpr ⟨t, rfl, h⟩
  cases hlead : lead? (t ++ rest) with
  | none =>
    rw [lead?, Option.map_eq_none_iff, longest?, List.head?_eq_none_iff] at hlead
    rw [hlead] at hmem
    cases hmem
  | some r =>
    refine ⟨r, rfl, ?_⟩
    obtain ⟨body, semicolon, after, hr, hcut, hleading⟩ := lead?_eq_some.mp hlead
    have hbegins : r <+: t ++ rest := ⟨after, hcut.symm⟩
    rcases List.prefix_or_prefix_of_prefix (List.prefix_append t rest) hbegins with hle | ⟨more, rfl⟩
    · exact hle
    · -- A longer one is itself the longest reference that it begins with.
      rw [List.append_assoc] at hcut
      have hmore := hleading.shorten ⟨rest, List.append_cancel_left hcut⟩
      have hself := isWhole_iff.mp (isWhole_iff_isReference.mpr h)
      rw [lead?_eq_some.mpr ⟨body, semicolon, more, hr, rfl, hmore⟩] at hself
      exact Option.some.inj hself ▸ List.prefix_refl r

/-- The reference that is found is the longest one. -/
theorem isLongest_iff : IsLongest r s ↔ lead? s = some r := by
  constructor
  · intro h
    obtain ⟨r', hlead, hprefix⟩ := h.reference.prefix_lead h.begins
    obtain ⟨-, -, after, -, hs, -⟩ := lead?_eq_some.mp hlead
    have hle := h.longest r' (isReference_of_lead? hlead) ⟨after, hs.symm⟩
    rw [hlead, hprefix.eq_of_length_le hle]
  · intro hlead
    obtain ⟨-, -, after, -, hs, -⟩ := lead?_eq_some.mp hlead
    refine ⟨isReference_of_lead? hlead, ⟨after, hs.symm⟩, fun t ht hprefix => ?_⟩
    obtain ⟨r', hlead', hle⟩ := ht.prefix_lead hprefix
    rw [hlead] at hlead'
    cases hlead'
    exact hle.length_le

/-- In front of a text that cannot go on with it, a reference is the longest one. -/
theorem IsReference.lead?_append (h : IsReference r) (hs : ∀ c ∈ s.head?, isBodyChar c = false) :
    lead? (r ++ s) = some r := by
  obtain ⟨body, semicolon, rfl, hbody, hsemicolon⟩ := h
  have hends : ∀ {p : Char → Bool}, (∀ c, p c = true → Text.isLetterOrDigit c = true) →
      ∀ c ∈ (semicolon ++ s).head?, p c = false := by
    intro p hp c hc
    refine Bool.eq_false_iff.mpr fun htrue => ?_
    have hletter := hp c htrue
    rcases hsemicolon with rfl | rfl
    · have hfalse := hs c hc
      rw [isBodyChar_of_isLetterOrDigit hletter] at hfalse
      cases hfalse
    · obtain rfl : ';' = c := Option.some.inj hc
      cases hletter
  refine lead?_eq_some.mpr ⟨body, semicolon, s, rfl, rfl, ?_, ?_⟩
  · cases hbody with
    | name hc hletters => exact .name hc hletters (hends fun _ hletter => hletter)
    | decimal hne hdigits => exact .decimal hne hdigits (hends fun _ => isLetterOrDigit_of_isDigit)
    | hex hx hne hdigits => exact .hex hx hne hdigits (hends fun _ => isLetterOrDigit_of_isHexDigit)
  · rcases hsemicolon with rfl | rfl
    · exact .inr ⟨rfl, fun hc => absurd (hs ';' hc) (by decide)⟩
    · exact .inl rfl

end Untranslated.WrittenReference
