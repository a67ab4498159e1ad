import Untranslated.Proofs.Reference

/-!
# What a reference shows

A reference as written and a reference as it is decoded are cut off in different ways: the longest written
one is a run of letters and digits, while a name that is decoded goes on to the next separator. They agree
in whether something is shown. A text that begins with a visible character, or with a reference that shows
something, shows something (`Reference.decode_shows`).
-/

namespace Untranslated

/-! ## The longest reference -/

namespace WrittenReference

theorem afterRun_eq_nil {p : Char → Bool} {s : Text} :
    afterRun p s = [] ↔ ∀ c ∈ s.head?, p c = false := by
  cases s with
  | nil => simp [afterRun]
  | cons c rest =>
    rw [afterRun]
    cases hc : p c <;> simp [hc]

theorem head?_afterRun {p : Char → Bool} {s r : Text} :
    (afterRun p s).head? = some r ↔
      ∃ t, t ≠ [] ∧ s = t ++ r ∧ (∀ c ∈ t, p c = true) ∧ ∀ c ∈ r.head?, p c = false := by
  constructor
  · intro h
    induction s with
    | nil => cases h
    | cons c rest ih =>
      rw [afterRun] at h
      split at h
      · rename_i hc
        rw [List.head?_append] at h
        cases hrun : (afterRun p rest).head? with
        | some r' =>
          rw [hrun] at h ih
          cases h
          obtain ⟨t, -, rfl, ht, hr⟩ := ih rfl
          exact ⟨c :: t, List.cons_ne_nil _ _, rfl, List.forall_mem_cons.mpr ⟨hc, ht⟩, hr⟩
        | none =>
          rw [hrun] at h
          cases h
          exact ⟨[c], List.cons_ne_nil _ _, rfl, by simpa using hc,
            afterRun_eq_nil.mp (List.head?_eq_none_iff.mp hrun)⟩
      · cases h
  · rintro ⟨t, hne, rfl, ht, hr⟩
    induction t with
    | nil => exact absurd rfl hne
    | cons c t ih =>
      obtain ⟨hc, ht⟩ := List.forall_mem_cons.mp ht
      rw [List.cons_append, afterRun, if_pos hc, List.head?_append]
      cases t with
      | nil => rw [List.nil_append, afterRun_eq_nil.mpr hr]; rfl
      | cons d t => rw [ih (List.cons_ne_nil _ _) ht]; rfl

/-- The body is the longest name or number of a reference in front of the rest. -/
inductive LongestBody : Text → Text → Prop
  | hex {x : Char} {digits rest : Text} (hx : x = 'x' ∨ x = 'X') (hne : digits ≠ [])
      (hdigits : ∀ c ∈ digits, Text.isHexDigit c = true)
      (hrest : ∀ c ∈ rest.head?, Text.isHexDigit c = false) : LongestBody ('#' :: x :: digits) rest
  | decimal {digits rest : Text} (hne : digits ≠ []) (hdigits : ∀ c ∈ digits, Text.isDigit c = true)
      (hrest : ∀ c ∈ rest.head?, Text.isDigit c = false) : LongestBody ('#' :: digits) rest
  | name {c : Char} {letters rest : Text} (hc : Text.isLetter c = true)
      (hletters : ∀ c ∈ letters, Text.isLetterOrDigit c = true)
      (hrest : ∀ c ∈ rest.head?, Text.isLetterOrDigit c = false) : LongestBody (c :: letters) rest

theorem head?_afterBody {s r : Text} :
    (afterBody s).head? = some r ↔ ∃ body, s = body ++ r ∧ LongestBody body r := by
  constructor
  · intro h
    unfold afterBody at h
    split at h
    · obtain ⟨t, hne, rfl, ht, hr⟩ := head?_afterRun.mp h
      exact ⟨'#' :: 'x' :: t, rfl, .hex (.inl rfl) hne ht hr⟩
    · obtain ⟨t, hne, rfl, ht, hr⟩ := head?_afterRun.mp h
      exact ⟨'#' :: 'X' :: t, rfl, .hex (.inr rfl) hne ht hr⟩
    · obtain ⟨t, hne, rfl, ht, hr⟩ := head?_afterRun.mp h
      exact ⟨'#' :: t, rfl, .decimal hne ht hr⟩
    · rename_i c rest _ _ _
      split at h
      · rename_i hc
        rw [List.head?_append] at h
        cases hrun : (afterRun Text.isLetterOrDigit rest).head? with
        | some r' =>
          rw [hrun] at h
          cases h
          obtain ⟨t, -, rfl, ht, hr⟩ := head?_afterRun.mp hrun
          exact ⟨c :: t, rfl, .name hc ht hr⟩
        | none =>
          rw [hrun] at h
          cases h
          exact ⟨[c], rfl, .name hc (by simp) (afterRun_eq_nil.mp (List.head?_eq_none_iff.mp hrun))⟩
      · cases h
    · cases h
  · rintro ⟨body, rfl, hbody⟩
    cases hbody with
    | @hex x digits rest hx hne hdigits hrest =>
      rcases hx with rfl | rfl
      · exact head?_afterRun.mpr ⟨digits, hne, rfl, hdigits, hrest⟩
      · exact head?_afterRun.mpr ⟨digits, hne, rfl, hdigits, hrest⟩
    | @decimal digits rest hne hdigits hrest =>
      obtain ⟨d, digits, rfl⟩ := List.exists_cons_of_ne_nil hne
      have hd := hdigits d List.mem_cons_self
      rw [List.cons_append, List.cons_append, afterBody]
      · exact head?_afterRun.mpr ⟨d :: digits, hne, rfl, hdigits, hrest⟩
      · rintro _ ⟨rfl, -⟩
        exact absurd hd (by decide)
      · rintro _ ⟨rfl, -⟩
        exact absurd hd (by decide)
    | @name c letters rest hc hletters hrest =>
      have hne : c ≠ '#' := by
        rintro rfl
        exact absurd hc (by decide)
      rw [List.cons_append, afterBody, if_pos hc, List.head?_append]
      · cases letters with
        | nil => rw [List.nil_append, afterRun_eq_nil.mpr hrest]; rfl
        | cons d letters =>
          rw [head?_afterRun.mpr ⟨d :: letters, List.cons_ne_nil _ _, rfl, hletters, hrest⟩]
          rfl
      all_goals
        intros
        exact hne ‹_›

/-- A reference, cut into its body and its semicolon if it has one, is the longest one in front of the
rest. -/
structure Leading (body semicolon after : Text) : Prop where
  body : LongestBody body (semicolon ++ after)
  semicolon : semicolon = [';'] ∨ semicolon = [] ∧ after.head? ≠ some ';'

theorem takeSemicolon_append {semicolon after : Text}
    (h : semicolon = [';'] ∨ semicolon = [] ∧ after.head? ≠ some ';') :
    Reference.takeSemicolon (semicolon ++ after) = (semicolon == [';'], after) := by
  rcases h with rfl | ⟨rfl, hafter⟩
  · rfl
  · cases after with
    | nil => rfl
    | cons c after =>
      rw [List.nil_append, Reference.takeSemicolon]
      · rfl
      · rintro _ ⟨rfl, -⟩
        exact hafter rfl

theorem head?_afterSemicolon (s : Text) :
    (afterSemicolon s).head? = some (Reference.takeSemicolon s).2 := by
  unfold afterSemicolon
  split
  · rfl
  · rename_i hne
    rw [Reference.takeSemicolon]
    · rfl
    · exact hne

theorem longest?_cons (u : Text) :
    longest? ('&' :: u) = (afterBody u).head?.map fun r => (Reference.takeSemicolon r).2 := by
  rw [longest?, rests]
  cases afterBody u with
  | nil => rfl
  | cons r rs =>
    rw [List.flatMap_cons, List.head?_append, head?_afterSemicolon]
    rfl

/-- The longest reference at the beginning of a text takes the longest body and a semicolon behind it. -/
theorem longest?_eq_some {s after : Text} :
    longest? s = some after ↔
      ∃ body semicolon, s = '&' :: (body ++ (semicolon ++ after)) ∧ Leading body semicolon after := by
  constructor
  · intro h
    match s with
    | [] => cases h
    | c :: u =>
      by_cases hc : c = '&'
      · rw [hc, longest?_cons] at h
        obtain ⟨r, hr, hafter⟩ := Option.map_eq_some_iff.mp h
        obtain ⟨body, rfl, hbody⟩ := head?_afterBody.mp hr
        obtain ⟨semicolon, rfl, hsemicolon⟩ : ∃ semicolon, r = semicolon ++ after ∧
            (semicolon = [';'] ∨ semicolon = [] ∧ after.head? ≠ some ';') := by
          unfold Reference.takeSemicolon at hafter
          split at hafter
          · exact ⟨[';'], by rw [← hafter]; rfl, .inl rfl⟩
          · rename_i hne
            refine ⟨[], hafter, .inr ⟨rfl, fun hhead => ?_⟩⟩
            obtain ⟨rest, hrest⟩ := List.head?_eq_some_iff.mp hhead
            exact hne rest (hafter.trans hrest)
        exact ⟨body, semicolon, by rw [hc], hbody, hsemicolon⟩
      · rw [longest?, rests] at h
        · cases h
        · rintro _ ⟨rfl, -⟩
          exact hc rfl
  · rintro ⟨body, semicolon, rfl, hbody, hsemicolon⟩
    rw [longest?_cons, head?_afterBody.mpr ⟨body, rfl, hbody⟩, Option.map_some,
      takeSemicolon_append hsemicolon]

/-- What follows the longest reference may be cut short. -/
theorem Leading.shorten {body semicolon after more : Text} (h : Leading body semicolon after)
    (hmore : more <+: after) : Leading body semicolon more := by
  have hhead : ∀ {c}, c ∈ more.head? → c ∈ after.head? := by
    intro c hc
    obtain ⟨rest, hrest⟩ := List.head?_eq_some_iff.mp hc
    obtain ⟨tail, rfl⟩ := hmore
    rw [hrest]
    rfl
  have hrest : ∀ {c}, c ∈ (semicolon ++ more).head? → c ∈ (semicolon ++ after).head? := by
    intro c hc
    rcases h.semicolon with rfl | ⟨rfl, -⟩
    · exact hc
    · exact hhead hc
  refine ⟨?_, h.semicolon.imp_right fun ⟨hnil, hne⟩ => ⟨hnil, fun hc => hne (hhead hc)⟩⟩
  cases h.body with
  | hex hx hne hdigits hafter => exact .hex hx hne hdigits fun c hc => hafter c (hrest hc)
  | decimal hne hdigits hafter => exact .decimal hne hdigits fun c hc => hafter c (hrest hc)
  | name hc hletters hafter => exact .name hc hletters fun c hc => hafter c (hrest hc)

theorem LongestBody.isBodyChar {body rest : Text} (h : LongestBody body rest) :
    ∀ c ∈ body, isBodyChar c = true := by
  obtain ⟨t, ht, hbody⟩ := mem_afterBody (List.mem_of_mem_head? (head?_afterBody.mpr ⟨body, rfl, h⟩))
  rwa [List.append_cancel_right ht]

/-- A reference holds an ampersand at its beginning and nowhere else, and no whitespace. -/
theorem Leading.isBodyChar {body semicolon after : Text} (h : Leading body semicolon after) :
    ∀ c ∈ body ++ semicolon, isBodyChar c = true := by
  refine List.forall_mem_append.mpr ⟨h.body.isBodyChar, ?_⟩
  rcases h.semicolon with rfl | ⟨rfl, -⟩
  · exact List.forall_mem_singleton.mpr (by decide)
  · simp

theorem pairwise_afterRun (p : Char → Bool) (s : Text) :
    (afterRun p s).Pairwise fun r r' => r.length ≤ r'.length := by
  induction s with
  | nil => exact List.Pairwise.nil
  | cons c rest ih =>
    rw [afterRun]
    split
    · refine List.pairwise_append.mpr ⟨ih, List.pairwise_singleton _ _, fun r hr r' hr' => ?_⟩
      obtain ⟨t, rfl, -⟩ := mem_afterRun hr
      rw [List.mem_singleton.mp hr', List.length_append]
      exact Nat.le_add_left _ _
    · exact List.Pairwise.nil

theorem pairwise_afterBody (s : Text) :
    (afterBody s).Pairwise fun r r' => r.length ≤ r'.length := by
  unfold afterBody
  split
  · exact pairwise_afterRun _ _
  · exact pairwise_afterRun _ _
  · exact pairwise_afterRun _ _
  · rename_i c rest _ _ _
    split
    · rename_i hc
      -- The name as a whole is one more run, begun by a letter.
      have hrun := pairwise_afterRun Text.isLetterOrDigit (c :: rest)
      rwa [afterRun, if_pos (by rw [Text.isLetterOrDigit, hc, Bool.true_or])] at hrun
    · exact List.Pairwise.nil
  · exact List.Pairwise.nil

/-- A text that is one reference is the longest reference at its beginning. -/
theorem Leading.after_eq_nil {body semicolon after : Text} (h : Leading body semicolon after)
    (hwhole : isWhole ('&' :: (body ++ (semicolon ++ after))) = true) : after = [] := by
  rw [isWhole, rests, List.contains_eq_mem, decide_eq_true_eq, List.mem_flatMap] at hwhole
  obtain ⟨r, hr, hnil⟩ := hwhole
  have hhead := head?_afterBody.mpr ⟨body, rfl, h.body⟩
  have hle : (semicolon ++ after).length ≤ r.length := by
    have hpairs := pairwise_afterBody (body ++ (semicolon ++ after))
    obtain ⟨others, hothers⟩ := List.head?_eq_some_iff.mp hhead
    rw [hothers] at hpairs hr
    rcases List.mem_cons.mp hr with rfl | hr
    · exact Nat.le_refl _
    · exact (List.pairwise_cons.mp hpairs).1 r hr
  have hend : r = [] ∨ r = [';'] := by
    unfold afterSemicolon at hnil
    split at hnil
    · simp at hnil
      exact .inr (by rw [hnil])
    · simp at hnil
      exact .inl hnil
  rcases h.semicolon with rfl | ⟨rfl, hafter⟩
  · rcases hend with rfl | rfl
    · simp at hle
    · simpa using hle
  · rcases hend with rfl | rfl
    · simpa using hle
    · obtain ⟨t, hcut, -⟩ := mem_afterBody hr
      -- What is left of the text could only be the semicolon itself.
      match after, hle with
      | [], _ => rfl
      | [c], _ =>
        obtain ⟨-, hc⟩ := List.append_inj' hcut rfl
        cases hc
        exact absurd rfl hafter

/-- What begins with a body has a longest one. -/
theorem LongestBody.extend {body rest : Text} (h : LongestBody body rest) (more : Text) :
    ∃ body' rest', body ++ more = body' ++ rest' ∧ LongestBody body' rest' := by
  cases h with
  | @hex x digits _ hx hne hdigits =>
    obtain ⟨hmore, hrun, hrest⟩ := Text.span_eq (p := Text.isHexDigit) (t := more) rfl
    refine ⟨'#' :: x :: (digits ++ more.takeWhile Text.isHexDigit), _, ?_,
      .hex hx (by simp [hne]) (List.forall_mem_append.mpr ⟨hdigits, hrun⟩) hrest⟩
    simp
  | @decimal digits _ hne hdigits =>
    obtain ⟨hmore, hrun, hrest⟩ := Text.span_eq (p := Text.isDigit) (t := more) rfl
    refine ⟨'#' :: (digits ++ more.takeWhile Text.isDigit), _, ?_,
      .decimal (by simp [hne]) (List.forall_mem_append.mpr ⟨hdigits, hrun⟩) hrest⟩
    simp
  | @name c letters _ hc hletters =>
    obtain ⟨hmore, hrun, hrest⟩ := Text.span_eq (p := Text.isLetterOrDigit) (t := more) rfl
    refine ⟨c :: (letters ++ more.takeWhile Text.isLetterOrDigit), _, ?_,
      .name hc (List.forall_mem_append.mpr ⟨hletters, hrun⟩) hrest⟩
    simp

/-- The longest reference at the beginning of a text. -/
def lead? (s : Text) : Option Text := (longest? s).map fun after => s.take (s.length - after.length)

theorem lead?_eq_some {s r : Text} : lead? s = some r ↔
    ∃ body semicolon after, r = '&' :: (body ++ semicolon) ∧ s = r ++ after ∧
      Leading body semicolon after := by
  constructor
  · intro h
    obtain ⟨after, hlongest, hr⟩ := Option.map_eq_some_iff.mp h
    obtain ⟨body, semicolon, hs, hleading⟩ := longest?_eq_some.mp hlongest
    have hcut : s = '&' :: (body ++ semicolon) ++ after := by simp [hs]
    refine ⟨body, semicolon, after, ?_, ?_, hleading⟩
    · rw [← hr, hcut, List.length_append, Nat.add_sub_cancel, List.take_left]
    · rw [← hr, hcut, List.length_append, Nat.add_sub_cancel, List.take_left]
  · rintro ⟨body, semicolon, after, rfl, rfl, hleading⟩
    have hlongest : longest? ('&' :: (body ++ semicolon) ++ after) = some after :=
      longest?_eq_some.mpr ⟨body, semicolon, by simp, hleading⟩
    rw [lead?, hlongest, Option.map_some, List.length_append, Nat.add_sub_cancel, List.take_left]

/-- The text `t` is a beginning of `s` that does not cut the reference which `s` begins with. -/
structure Keeps (s t : Text) : Prop where
  begins : t <+: s
  lead : ∀ r ∈ lead? s, r <+: t

/-- A beginning that does not cut the reference begins with this reference, and with no other. -/
theorem Keeps.lead?_eq {s t : Text} (h : Keeps s t) : lead? t = lead? s := by
  obtain ⟨tail, rfl⟩ := h.begins
  cases hs : lead? (t ++ tail) with
  | some r =>
    obtain ⟨more, rfl⟩ := h.lead r hs
    obtain ⟨body, semicolon, after, rfl, hcut, hleading⟩ := lead?_eq_some.mp hs
    rw [List.append_assoc] at hcut
    have hmore : more <+: after := ⟨tail, List.append_cancel_left hcut⟩
    exact lead?_eq_some.mpr ⟨body, semicolon, more, rfl, rfl, hleading.shorten hmore⟩
  | none =>
    refine Option.eq_none_iff_forall_ne_some.mpr fun r hr => ?_
    obtain ⟨body, semicolon, after, rfl, rfl, hleading⟩ := lead?_eq_some.mp hr
    obtain ⟨body', rest', hcut, hbody⟩ := hleading.body.extend (semicolon ++ after ++ tail)
    have hhead := head?_afterBody.mpr ⟨body', hcut, hbody⟩
    rw [lead?, Option.map_eq_none_iff] at hs
    simp only [List.cons_append, List.append_assoc, longest?_cons] at hs hhead
    rw [hhead] at hs
    cases hs

end WrittenReference

/-! ## Names -/

namespace Text

/-- A character between two code points is visible if no range of invisible ones comes between. -/
theorem isInvisible_of_between {c : Char} {lo hi : Nat} (hlo : lo ≤ c.toNat) (hhi : c.toNat ≤ hi)
    (h : (spaceRanges ++ controlRanges ++ formatRanges).all (fun r => r.2 < lo || hi < r.1) = true) :
    isInvisible c = false := by
  rw [isInvisible, isSpace, inRanges, inRanges, inRanges, ← List.any_append, ← List.any_append]
  refine List.any_eq_false.mpr fun r hr => ?_
  have := List.all_eq_true.mp h r hr
  simp only [Bool.or_eq_true, decide_eq_true_eq, Bool.and_eq_true] at this ⊢
  omega

theorem isInvisible_of_isLetterOrDigit {c : Char} (h : isLetterOrDigit c = true) :
    isInvisible c = false := by
  have hbounds : 48 ≤ c.toNat ∧ c.toNat ≤ 122 := by
    simp only [isLetterOrDigit, isLetter, isDigit, Bool.or_eq_true, Bool.and_eq_true,
      decide_eq_true_eq, Char.le_def, UInt32.le_iff_toNat_le] at h
    change 48 ≤ c.val.toNat ∧ c.val.toNat ≤ 122
    rcases h with (⟨hlo, hhi⟩ | ⟨hlo, hhi⟩) | ⟨hlo, hhi⟩
    · exact ⟨Nat.le_trans (by decide) hlo, hhi⟩
    · exact ⟨Nat.le_trans (by decide) hlo, Nat.le_trans hhi (by decide)⟩
    · exact ⟨hlo, Nat.le_trans hhi (by decide)⟩
  exact isInvisible_of_between hbounds.1 hbounds.2 (by decide)

theorem isBlank_append {s t : Text} : isBlank (s ++ t) = (isBlank s && isBlank t) :=
  List.all_append

end Text

theorem WrittenReference.isSpace_of_isBodyChar {c : Char} (h : WrittenReference.isBodyChar c = true) :
    Text.isSpace c = false := by
  simp only [WrittenReference.isBodyChar, Bool.or_eq_true, beq_iff_eq] at h
  rcases h with (h | rfl) | rfl
  · have := Text.isInvisible_of_isLetterOrDigit h
    simp only [Text.isInvisible, Bool.or_eq_false_iff] at this
    exact this.1.1
  · decide
  · decide

namespace Reference

/-- Names that a reference can be written with. -/
def isName (s : Text) : Bool :=
  s.all Text.isLetterOrDigit && s.head?.any Text.isLetter && s.length < 32

theorem isName_iff {s : Text} : isName s = true ↔
    (∀ c ∈ s, Text.isLetterOrDigit c = true) ∧ s.head?.any Text.isLetter = true ∧ s.length < 32 := by
  simp [isName, and_assoc]

/-- Whether a code point is none of a visible character. Most code points of the tables lie in the range
that is asked for first. -/
def isBlankCode (n : Nat) : Bool :=
  !(Nat.ble 0x2070 n && Nat.ble n 0x2FFF) &&
    ((Text.spaceRanges ++ Text.controlRanges ++ Text.formatRanges).any (fun r =>
      Nat.ble r.1 n && Nat.ble n r.2) || isOutside n)

theorem isBlankCode_of_isInvisible {n : Nat} (h : Text.isInvisible (Char.ofNat n) = true) :
    isBlankCode n = true := by
  by_cases hvalid : n.isValidChar
  · have htoNat : (Char.ofNat n).toNat = n := by rw [Char.ofNat, dif_pos hvalid]; rfl
    have hany : (Text.spaceRanges ++ Text.controlRanges ++ Text.formatRanges).any (fun r =>
        Nat.ble r.1 n && Nat.ble n r.2) = true := by
      simpa [Text.isInvisible, Text.isSpace, Text.inRanges, htoNat, List.any_append, or_assoc] using h
    have hrange : (Nat.ble 0x2070 n && Nat.ble n 0x2FFF) = false := by
      refine Bool.eq_false_iff.mpr fun hrange => ?_
      rw [Bool.and_eq_true, Nat.ble_eq, Nat.ble_eq, ← htoNat] at hrange
      rw [Text.isInvisible_of_between hrange.1 hrange.2 (by decide)] at h
      cases h
    rw [isBlankCode, hany, hrange]
    rfl
  · have houtside : isOutside n = true := by
      simp only [isOutside, Bool.or_eq_true, Bool.and_eq_true, decide_eq_true_eq]
      omega
    have hrange : (Nat.ble 0x2070 n && Nat.ble n 0x2FFF) = false := by
      refine Bool.eq_false_iff.mpr fun hrange => ?_
      rw [Bool.and_eq_true, Nat.ble_eq, Nat.ble_eq] at hrange
      omega
    rw [isBlankCode, houtside, hrange, Bool.or_true]
    rfl

theorem lenientNames_blank :
    (lenientNames.all fun e => !e.2.all isBlankCode || isName e.1.toList) = true := by
  decide +kernel

theorem terminatedNames_blank : (terminatedNames.all fun g =>
    g.2.all fun e => !e.2.all isBlankCode || isName e.1.toList) = true := by
  decide +kernel

/-- The name of a reference that shows nothing is a run of letters and digits. -/
theorem isName_of_lookup {names : List (String × List Nat)}
    (hnames : (names.all fun e => !e.2.all isBlankCode || isName e.1.toList) = true) {name cs : Text}
    (h : (names.lookup (String.ofList name)).map (List.map Char.ofNat) = some cs)
    (hblank : Text.isBlank cs = true) : isName name = true := by
  obtain ⟨codes, hlookup, rfl⟩ := Option.map_eq_some_iff.mp h
  obtain ⟨before, after, rfl, -⟩ := List.lookup_eq_some_iff.mp hlookup
  have hcodes : codes.all isBlankCode = true := by
    refine List.all_eq_true.mpr fun n hn => isBlankCode_of_isInvisible ?_
    exact List.all_eq_true.mp hblank _ (List.mem_map_of_mem hn)
  simpa [hcodes] using List.all_eq_true.mp hnames (String.ofList name, codes) (by simp)

theorem isName_of_lenient? {name cs : Text} (h : lenient? name = some cs)
    (hblank : Text.isBlank cs = true) : isName name = true :=
  isName_of_lookup lenientNames_blank h hblank

theorem isName_of_terminated? {name cs : Text} (h : terminated? name = some cs)
    (hblank : Text.isBlank cs = true) : isName name = true := by
  unfold terminated? at h
  split at h
  · rename_i hlenient
    cases h
    exact isName_of_lenient? hlenient hblank
  · split at h
    · cases h
    · rename_i c rest _
      refine isName_of_lookup ?_ h hblank
      cases hgroup : terminatedNames.lookup c with
      | none => rfl
      | some group =>
        obtain ⟨before, after, hnames, -⟩ := List.lookup_eq_some_iff.mp hgroup
        exact List.all_eq_true.mp terminatedNames_blank (c, group) (by simp [hnames])

theorem lenient?_of_longestLenient? {name cs : Text} {m n : Nat}
    (h : longestLenient? name m = some (cs, n)) : lenient? (name.take n) = some cs := by
  fun_induction longestLenient? name m with
  | case1 => cases h
  | case2 => cases h
  | case3 m cs' hlenient =>
    cases h
    exact hlenient
  | case4 m _ ih => exact ih h

/-! ## Decoding -/

/-- The number that is written behind `&#`. -/
def numberOf : Text → Nat
  | 'x' :: digits | 'X' :: digits => Text.toNat 16 digits
  | digits => Text.toNat 10 digits

/-- A number stands for the same whatever follows it. -/
theorem readNumber?_append {body rest : Text} (h : WrittenReference.LongestBody ('#' :: body) rest) :
    readNumber? (body ++ rest) = some (numberOf body, rest) := by
  cases h with
  | @hex x digits _ hx hne hdigits hrest =>
    have hspan := Text.span_append hdigits hrest
    obtain ⟨d, digits, rfl⟩ := List.exists_cons_of_ne_nil hne
    rcases hx with rfl | rfl
    · rw [List.cons_append, readNumber?, hspan]
      rfl
    · rw [List.cons_append, readNumber?, hspan]
      rfl
  | decimal hne hdigits hrest =>
    have hspan := Text.span_append hdigits hrest
    obtain ⟨d, digits, rfl⟩ := List.exists_cons_of_ne_nil hne
    have hd := hdigits d List.mem_cons_self
    have hx : d ≠ 'x' ∧ d ≠ 'X' := by
      constructor <;> rintro rfl <;> exact absurd hd (by decide)
    rw [List.cons_append, readNumber?, numberOf]
    · rw [← List.cons_append, hspan]
    all_goals simp_all
  | name hc => exact absurd hc (by decide)

/-- What is read as a number is written as one. -/
theorem longestBody_of_readNumber? {s rest : Text} {n : Nat} (h : readNumber? s = some (n, rest)) :
    ∃ body, '#' :: s = body ++ rest ∧ WrittenReference.LongestBody body rest := by
  unfold readNumber? at h
  split at h
  · split at h
    · cases h
    · rename_i digits _ hne hspan
      cases h
      obtain ⟨rfl, hdigits, hrest⟩ := Text.span_eq hspan
      exact ⟨'#' :: 'x' :: digits, rfl, .hex (.inl rfl) hne hdigits hrest⟩
  · split at h
    · cases h
    · rename_i digits _ hne hspan
      cases h
      obtain ⟨rfl, hdigits, hrest⟩ := Text.span_eq hspan
      exact ⟨'#' :: 'X' :: digits, rfl, .hex (.inr rfl) hne hdigits hrest⟩
  · split at h
    · cases h
    · rename_i digits _ hne hspan
      cases h
      obtain ⟨rfl, hdigits, hrest⟩ := Text.span_eq hspan
      exact ⟨'#' :: digits, rfl, .decimal hne hdigits hrest⟩

/-- The name that is decoded at the beginning of a text. -/
def nameOf (u : Text) : Text := (u.takeWhile fun c => !endsName c).take 32

/-- A name that shows nothing is known as a whole, or what is known of it is followed by invisible
characters only. -/
theorem readDecoded?_blank {u cs after : Text} (hu : u.head? ≠ some '#')
    (h : readDecoded? u = some (cs, after)) (hblank : Text.isBlank cs = true) :
    (if (takeSemicolon (u.drop (nameOf u).length)).1 then terminated? (nameOf u)
        else lenient? (nameOf u)) = some cs ∨
      (takeSemicolon (u.drop (nameOf u).length)).1 = false ∧ lenient? (nameOf u) = none ∧
        ∃ n known, lenient? ((nameOf u).take n) = some known ∧ cs = known ++ (nameOf u).drop n := by
  rw [readDecoded?] at h
  · simp only [show (u.takeWhile fun c => !endsName c).take 32 = nameOf u from rfl] at h
    split at h
    · cases h
    · generalize takeSemicolon (u.drop (nameOf u).length) = cut at h ⊢
      obtain ⟨closed, rest⟩ := cut
      simp only at h ⊢
      split at h
      · rename_i hexact
        cases h
        exact .inl hexact
      · rename_i hexact
        split at h
        · rename_i known n hlongest
          cases h
          cases closed with
          | true =>
            rw [Text.isBlank_append, if_pos rfl, Bool.and_eq_true] at hblank
            exact absurd hblank.2 (by decide)
          | false =>
            refine .inr ⟨rfl, hexact, n, known, lenient?_of_longestLenient? hlongest, ?_⟩
            simp [nameOf]
        · cases h
          exact absurd (List.all_eq_true.mp hblank '&' List.mem_cons_self) (by decide)
  · rintro v rfl
    exact hu rfl

theorem endsName_of_isLetterOrDigit {c : Char} (h : Text.isLetterOrDigit c = true) :
    endsName c = false := by
  refine Bool.eq_false_iff.mpr fun hends => ?_
  simp only [endsName, Bool.or_eq_true, beq_iff_eq] at hends
  rcases hends with ((((((rfl | rfl) | rfl) | rfl) | rfl) | rfl) | rfl) | rfl <;>
    exact absurd h (by decide)

/-- A name that is decoded begins with the letters and digits that are written. -/
theorem nameOf_append {name : Text} (hname : ∀ c ∈ name, Text.isLetterOrDigit c = true) (rest : Text) :
    nameOf (name ++ rest) = (name ++ rest.takeWhile fun c => !endsName c).take 32 := by
  rw [nameOf, List.takeWhile_append_of_pos]
  intro c hc
  rw [endsName_of_isLetterOrDigit (hname c hc)]
  rfl

theorem head?_ne_sharp {name : Text} (h : name.head?.any Text.isLetter = true) (rest : Text) :
    (name ++ rest).head? ≠ some '#' := by
  cases name with
  | nil => cases h
  | cons c name =>
    rintro ⟨rfl⟩
    exact absurd (show Text.isLetter '#' = true from h) (by decide)

/-- A known name stands for its characters. -/
theorem decode_name {name semicolon cs : Text} (hname : isName name = true)
    (hsemicolon : semicolon = [';'] ∨ semicolon = [])
    (h : (if semicolon == [';'] then terminated? name else lenient? name) = some cs) :
    decode ('&' :: (name ++ semicolon)) = cs := by
  obtain ⟨hletters, hhead, hlength⟩ := isName_iff.mp hname
  have hwhole : nameOf (name ++ semicolon) = name := by
    have hnil : (semicolon.takeWhile fun c => !endsName c) = [] := by
      rcases hsemicolon with rfl | rfl <;> rfl
    rw [nameOf_append hletters, hnil, List.append_nil, List.take_of_length_le (Nat.le_of_lt hlength)]
  have hne : name.isEmpty = false := by
    cases name with
    | nil => cases hhead
    | cons c name => rfl
  have hcut : takeSemicolon semicolon = (semicolon == [';'], []) := by
    rcases hsemicolon with rfl | rfl <;> rfl
  have hread : readDecoded? (name ++ semicolon) = some (cs, []) := by
    rw [readDecoded?]
    · simp only [show ((name ++ semicolon).takeWhile fun c => !endsName c).take 32 =
        nameOf (name ++ semicolon) from rfl, hwhole, hne, List.drop_left, hcut, h]
      rfl
    · intro v hv
      exact head?_ne_sharp hhead semicolon (by rw [hv]; rfl)
  rw [decode, hread]
  simp [decode]

/-- A reference that shows nothing together with what follows is decoded to nothing visible. -/
theorem readDecoded?_of_blank {u : Text} (h : Text.isBlank (decode ('&' :: u)) = true) :
    ∃ cs after, readDecoded? u = some (cs, after) ∧ Text.isBlank cs = true := by
  rw [decode] at h
  split at h
  · rename_i cs after hread
    refine ⟨cs, after, hread, ?_⟩
    split at h
    · rw [Text.isBlank_append, Bool.and_eq_true] at h
      exact h.1
    · exact h
  · exact absurd (List.all_eq_true.mp h '&' List.mem_cons_self) (by decide)

/-- A named reference that shows nothing together with what follows shows nothing itself. -/
theorem decode_blank_of_name {name semicolon after : Text} (hhead : name.head?.any Text.isLetter = true)
    (hname : ∀ c ∈ name, Text.isLetterOrDigit c = true)
    (hrest : ∀ c ∈ (semicolon ++ after).head?, Text.isLetterOrDigit c = false)
    (hsemicolon : semicolon = [';'] ∨ semicolon = [] ∧ after.head? ≠ some ';')
    (h : Text.isBlank (decode ('&' :: (name ++ (semicolon ++ after)))) = true) :
    Text.isBlank (decode ('&' :: (name ++ semicolon))) = true := by
  obtain ⟨cs, rest, hread, hblank⟩ := readDecoded?_of_blank h
  -- What is decoded as the name goes on behind the letters and digits with other characters only.
  have hwhole := nameOf_append hname (semicolon ++ after)
  generalize hmore : ((semicolon ++ after).takeWhile fun c => !endsName c) = more at hwhole
  have hother : ∀ c ∈ more.head?, Text.isLetterOrDigit c = false := by
    intro c hc
    rw [← hmore, List.head?_takeWhile] at hc
    exact hrest c (Option.eq_some_of_filter_eq_some hc)
  rcases readDecoded?_blank (head?_ne_sharp hhead _) hread hblank with
    hexact | ⟨-, hnone, n, known, hknown, rfl⟩
  · have hisName : isName (nameOf (name ++ (semicolon ++ after))) = true := by
      split at hexact
      · exact isName_of_terminated? hexact hblank
      · exact isName_of_lenient? hexact hblank
    have hsame : nameOf (name ++ (semicolon ++ after)) = name := by
      obtain ⟨hletters, -, hlength⟩ := isName_iff.mp hisName
      rw [hwhole, List.length_take] at hlength
      rw [hwhole, List.take_of_length_le (by omega)] at hletters ⊢
      cases more with
      | nil => exact List.append_nil _
      | cons d more =>
        have hd := hletters d (by simp)
        rw [hother d rfl] at hd
        cases hd
    rw [hsame] at hisName hexact
    rw [List.drop_left, WrittenReference.takeSemicolon_append hsemicolon] at hexact
    rw [decode_name hisName (hsemicolon.imp_right And.left) hexact]
    exact hblank
  · rw [Text.isBlank_append, Bool.and_eq_true] at hblank
    generalize nameOf (name ++ (semicolon ++ after)) = whole at *
    have hinvisible : ∀ c ∈ whole.drop n, Text.isLetterOrDigit c = false := fun c hc =>
      Bool.eq_false_iff.mpr fun hletter => by
        have := List.all_eq_true.mp hblank.2 c hc
        rw [Text.isInvisible_of_isLetterOrDigit hletter] at this
        cases this
    have hisName := isName_of_lenient? hknown hblank.1
    have hne : whole.drop n ≠ [] := fun hnil => by
      rw [← List.take_append_drop n whole, hnil, List.append_nil, hknown] at hnone
      cases hnone
    rw [List.take_append] at hwhole
    have hlength : name.length < 32 := by
      refine Nat.lt_of_not_le fun hle => ?_
      rw [Nat.sub_eq_zero_of_le hle, List.take_zero, List.append_nil] at hwhole
      obtain ⟨d, tail, hd⟩ := List.exists_cons_of_ne_nil hne
      have hmem : d ∈ whole.drop n := by simp [hd]
      have hletter := hname d (List.mem_of_mem_take (hwhole ▸ List.mem_of_mem_drop hmem))
      rw [hinvisible d hmem] at hletter
      cases hletter
    rw [List.take_of_length_le (Nat.le_of_lt hlength)] at hwhole
    -- Both cuts are made where the letters and digits end.
    have hspan : Text.span Text.isLetterOrDigit whole = (whole.take n, whole.drop n) := by
      have hcut := Text.span_append (isName_iff.mp hisName).1 fun c hc =>
        hinvisible c (List.mem_of_mem_head? hc)
      rwa [List.take_append_drop] at hcut
    have hspan' : Text.span Text.isLetterOrDigit whole = (name, more.take (32 - name.length)) := by
      rw [hwhole]
      refine Text.span_append hname fun c hc => hother c ?_
      rw [List.head?_take] at hc
      split at hc
      · cases hc
      · exact hc
    obtain ⟨hsame, hmore'⟩ := Prod.mk.inj (hspan.symm.trans hspan')
    have hnil : semicolon = [] := by
      rcases hsemicolon with rfl | ⟨hnil, -⟩
      · rw [hmore', ← hmore] at hne
        exact absurd List.take_nil hne
      · exact hnil
    subst hnil
    rw [hsame] at hknown hisName
    rw [decode_name hisName (.inr rfl) hknown]
    exact hblank.1

/-- A reference that shows nothing together with what follows shows nothing itself. -/
theorem decode_blank_of_leading {body semicolon after : Text}
    (h : WrittenReference.Leading body semicolon after)
    (hblank : Text.isBlank (decode ('&' :: (body ++ (semicolon ++ after)))) = true) :
    Text.isBlank (decode ('&' :: (body ++ semicolon))) = true := by
  -- A number is decoded on its own.
  have number : ∀ {digits : Text}, body = '#' :: digits →
      Text.isBlank (decode ('&' :: (body ++ semicolon))) = true := by
    rintro digits rfl
    have hread : ∀ {more}, more <+: after →
        readDecoded? ('#' :: (digits ++ (semicolon ++ more))) =
          some (decodeNumber (numberOf digits), more) := by
      intro more hmore
      rw [readDecoded?, readNumber?_append (h.shorten hmore).body, Option.map_some]
      simp only [WrittenReference.takeSemicolon_append (h.shorten hmore).semicolon]
    obtain ⟨cs, rest, hcs, hshown⟩ := readDecoded?_of_blank hblank
    have hwhole := hread (List.prefix_refl after)
    rw [← List.cons_append, hcs] at hwhole
    cases hwhole
    have halone := hread (List.nil_prefix (l := after))
    rw [List.append_nil] at halone
    rw [List.cons_append, decode, halone]
    simpa [decode] using hshown
  cases h.body with
  | hex => exact number rfl
  | decimal => exact number rfl
  | name hc hletters hrest =>
    refine decode_blank_of_name hc (List.forall_mem_cons.mpr ⟨?_, hletters⟩) hrest h.semicolon hblank
    rw [Text.isLetterOrDigit, hc, Bool.true_or]

/-- An ampersand that begins no reference shows itself. -/
theorem longest?_of_blank {u : Text} (h : Text.isBlank (decode ('&' :: u)) = true) :
    WrittenReference.longest? ('&' :: u) ≠ none := by
  obtain ⟨body, rest, hu, hbody⟩ : ∃ body rest, u = body ++ rest ∧
      WrittenReference.LongestBody body rest := by
    obtain ⟨cs, after, hread, hblank⟩ := readDecoded?_of_blank h
    by_cases hsharp : u.head? = some '#'
    · obtain ⟨v, rfl⟩ := List.head?_eq_some_iff.mp hsharp
      rw [readDecoded?] at hread
      obtain ⟨⟨n, rest⟩, hnumber, -⟩ := Option.map_eq_some_iff.mp hread
      obtain ⟨body, hv, hbody⟩ := longestBody_of_readNumber? hnumber
      exact ⟨body, rest, hv, hbody⟩
    · have hwhole : nameOf u <+: u := (List.take_prefix _ _).trans (List.takeWhile_prefix _)
      obtain ⟨name, hname, hprefix⟩ : ∃ name, isName name = true ∧ name <+: u := by
        rcases readDecoded?_blank hsharp hread hblank with hexact | ⟨-, -, n, known, hknown, rfl⟩
        · refine ⟨nameOf u, ?_, hwhole⟩
          split at hexact
          · exact isName_of_terminated? hexact hblank
          · exact isName_of_lenient? hexact hblank
        · rw [Text.isBlank_append, Bool.and_eq_true] at hblank
          exact ⟨_, isName_of_lenient? hknown hblank.1, (List.take_prefix _ _).trans hwhole⟩
      obtain ⟨-, hhead, -⟩ := isName_iff.mp hname
      obtain ⟨v, rfl⟩ := hprefix
      cases name with
      | nil => cases hhead
      | cons c name =>
        have hletter : WrittenReference.LongestBody [c] [] := .name hhead (by simp) (by simp)
        exact hletter.extend (name ++ v)
  rw [WrittenReference.longest?_cons, WrittenReference.head?_afterBody.mpr ⟨body, hu, hbody⟩]
  exact Option.some_ne_none _

/-- A text shows something if it begins with a visible character, and with no reference or one that shows
something. -/
theorem decode_shows {s : Text} {c : Char} (hhead : s.head? = some c)
    (hc : Text.isInvisible c = false)
    (hlead : ∀ r ∈ WrittenReference.lead? s, Text.isBlank (decode r) = false) :
    Text.isBlank (decode s) = false := by
  obtain ⟨u, rfl⟩ := List.head?_eq_some_iff.mp hhead
  refine Bool.eq_false_iff.mpr fun hblank => ?_
  by_cases hamp : c = '&'
  · subst hamp
    obtain ⟨after, hlongest⟩ := Option.ne_none_iff_exists'.mp (longest?_of_blank hblank)
    obtain ⟨body, semicolon, hs, hleading⟩ := WrittenReference.longest?_eq_some.mp hlongest
    rw [hs] at hblank hlead
    have hshown := hlead ('&' :: (body ++ semicolon))
      (WrittenReference.lead?_eq_some.mpr ⟨body, semicolon, after, rfl, by simp, hleading⟩)
    rw [decode_blank_of_leading hleading hblank] at hshown
    cases hshown
  · rw [decode] at hblank
    · have := List.all_eq_true.mp hblank c List.mem_cons_self
      rw [hc] at this
      cases this
    · exact hamp

end Reference

end Untranslated
