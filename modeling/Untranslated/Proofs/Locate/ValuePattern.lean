import Untranslated.Proofs.Locate.Step
import Untranslated.Proofs.Reference

/-!
# What value patterns match

A match of a value pattern goes through its pieces one by one (`ValuePattern.match?_reads`). Values
without references and angle brackets have well-behaved matches, none of which reaches over a bracket.
Whatever the value, a match that holds no reference has its words (`ValuePattern.words_of_reads`). The
value itself is matched as a whole (`ValuePattern.match?_self`), and of the places found from left to
right one covers it (`ValuePattern.findAll_cover`).
-/

namespace Untranslated

/-! ## Pieces -/

namespace Piece

/-- The text may be read for the piece. A reference is known by its ampersand. -/
def Reads : Piece → Text → Prop
  | .plain c, t => t = [c]
  | .encodable c, t => t = [c] ∨ '&' ∈ t ∧ Text.Bracketless t
  | .space, t => t ≠ [] ∧ Text.Bracketless t ∧ ('&' ∉ t → ∀ c ∈ t, Text.isSpace c = true)
  | .semicolon, t => ∀ c ∈ t, c = ';'

theorem bracketless_of_isSpace {c : Char} (h : Text.isSpace c = true) : Text.Bracketless [c] := by
  intro d hd
  rw [List.mem_singleton.mp hd]
  constructor <;> rintro rfl <;> exact absurd h (by decide)

theorem mem_afterSpaceUnit {s r : Text} (h : r ∈ afterSpaceUnit s) :
    ∃ t, s = t ++ r ∧ Reads .space t := by
  unfold afterSpaceUnit at h
  split at h
  · cases h
  · rename_i c rest
    rcases List.mem_append.mp h with h | h
    · split at h
      · rename_i hc
        rw [List.mem_singleton.mp h]
        exact ⟨[c], rfl, List.cons_ne_nil _ _, bracketless_of_isSpace hc, fun _ => by simpa using hc⟩
      · cases h
    · obtain ⟨t, ht, hamp, hbracket⟩ := WrittenReference.mem_rests h
      exact ⟨t, ht, List.ne_nil_of_mem hamp, hbracket, fun hnot => absurd hamp hnot⟩

theorem afterSpace_eq (s : Text) :
    afterSpace s = (afterSpaceUnit s).flatMap fun r =>
      if r.length < s.length then afterSpace r ++ [r] else [r] := by
  rw [afterSpace, List.flatMap_def, List.flatMap_def]
  exact congrArg List.flatten (List.attach_map_val (f := fun r : Text =>
    if r.length < s.length then afterSpace r ++ [r] else [r]) (l := afterSpaceUnit s))

theorem mem_afterSpace {s r : Text} (h : r ∈ afterSpace s) : ∃ t, s = t ++ r ∧ Reads .space t := by
  induction s using afterSpace.induct with
  | case1 s ih =>
    rw [afterSpace_eq] at h
    obtain ⟨r', hunit, hr⟩ := List.mem_flatMap.mp h
    obtain ⟨t, hs, hreads⟩ := mem_afterSpaceUnit hunit
    by_cases hlt : r'.length < s.length
    · rw [if_pos hlt] at hr
      rcases List.mem_append.mp hr with hr | hr
      · obtain ⟨hne, hbracket, hspace⟩ := hreads
        obtain ⟨u, rfl, -, hbracket', hspace'⟩ := ih r' hlt hr
        refine ⟨t ++ u, by simp [hs], by simp [hne], hbracket.append hbracket', fun hnot => ?_⟩
        rw [List.mem_append, not_or] at hnot
        exact List.forall_mem_append.mpr ⟨hspace hnot.1, hspace' hnot.2⟩
      · rw [List.mem_singleton.mp hr]
        exact ⟨t, hs, hreads⟩
    · rw [if_neg hlt] at hr
      rw [List.mem_singleton.mp hr]
      exact ⟨t, hs, hreads⟩

/-- What follows a piece follows something that may be read for it. -/
theorem mem_rests {p : Piece} {s r : Text} (h : r ∈ p.rests s) : ∃ t, s = t ++ r ∧ p.Reads t := by
  match p, s with
  | .plain _, [] => cases h
  | .plain c, d :: rest =>
    rw [rests] at h
    split at h
    · rename_i heq
      rw [List.mem_singleton.mp h, heq]
      exact ⟨[d], rfl, rfl⟩
    · cases h
  | .encodable _, [] => cases h
  | .encodable c, d :: rest =>
    rcases List.mem_append.mp h with h | h
    · split at h
      · rename_i heq
        rw [List.mem_singleton.mp h, heq]
        exact ⟨[d], rfl, .inl rfl⟩
      · cases h
    · obtain ⟨t, ht, hreference⟩ := WrittenReference.mem_rests h
      exact ⟨t, ht, .inr hreference⟩
  | .space, s => exact mem_afterSpace h
  | .semicolon, s => exact WrittenReference.mem_afterSemicolon h

/-- A run of whitespace is taken as a whole first. -/
theorem head?_afterSpace {w r : Text} (hw : ∀ c ∈ w, Text.isSpace c = true) (hne : w ≠ [])
    (hr : ∀ c ∈ r.head?, Text.isSpace c = false ∧ c ≠ '&') : (afterSpace (w ++ r)).head? = some r := by
  have hempty : afterSpace r = [] := by
    have hunit : afterSpaceUnit r = [] := by
      cases r with
      | nil => rfl
      | cons c rest =>
        obtain ⟨hspace, hamp⟩ := hr c rfl
        have hrests : WrittenReference.rests (c :: rest) = [] := by
          unfold WrittenReference.rests
          split
          · rename_i heq
            exact absurd (List.cons.inj heq).1 hamp
          · rfl
        rw [afterSpaceUnit, hrests, if_neg (by simp [hspace]), List.append_nil]
    rw [afterSpace_eq, hunit]
    rfl
  induction w with
  | nil => exact absurd rfl hne
  | cons c w ih =>
    obtain ⟨hc, hw⟩ := List.forall_mem_cons.mp hw
    have hrests : WrittenReference.rests (c :: (w ++ r)) = [] := by
      unfold WrittenReference.rests
      split
      · rename_i heq
        rw [(List.cons.inj heq).1] at hc
        exact absurd hc (by decide)
      · rfl
    have hunit : afterSpaceUnit (c :: (w ++ r)) = [w ++ r] := by
      rw [afterSpaceUnit, hrests, if_pos hc, List.append_nil]
    have hstep : afterSpace (c :: (w ++ r)) = afterSpace (w ++ r) ++ [w ++ r] := by
      rw [afterSpace_eq, hunit]
      simp
    rw [List.cons_append, hstep]
    cases w with
    | nil => rw [List.nil_append, hempty]; rfl
    | cons d w => rw [List.head?_append, ih hw (List.cons_ne_nil _ _)]; rfl

end Piece

/-! ## Patterns -/

namespace ValuePattern

/-- The text may be read for the pieces, one after the other. -/
def Reads : ValuePattern → Text → Prop
  | [], t => t = []
  | p :: ps, t => ∃ t₁ t₂, t = t₁ ++ t₂ ∧ p.Reads t₁ ∧ Reads ps t₂

/-- A match goes through the pieces. -/
theorem match?_reads {accept : Text → Bool} {p : ValuePattern} {s r : Text}
    (h : match? accept p s = some r) : ∃ t, s = t ++ r ∧ p.Reads t := by
  induction p generalizing s with
  | nil =>
    rw [match?] at h
    split at h
    · cases h
      exact ⟨[], rfl, rfl⟩
    · cases h
  | cons p ps ih =>
    obtain ⟨r', hr', hr⟩ := List.exists_of_findSome?_eq_some h
    obtain ⟨t₁, rfl, ht₁⟩ := Piece.mem_rests hr'
    obtain ⟨t₂, rfl, ht₂⟩ := ih hr
    exact ⟨t₁ ++ t₂, by simp, t₁, t₂, rfl, ht₁, ht₂⟩

theorem matchLength?_reads {p : ValuePattern} {s : Text} {n : Nat} (h : p.matchLength? s = some n) :
    n ≤ s.length ∧ p.Reads (s.take n) := by
  obtain ⟨r, hmatch, rfl⟩ := Option.map_eq_some_iff.mp h
  obtain ⟨t, rfl, ht⟩ := match?_reads hmatch
  have hlength : (t ++ r).length - r.length = t.length := by simp
  rw [hlength, List.take_left]
  exact ⟨by simp, ht⟩

theorem reads_bracketless {v t : Text} (hv : Text.Plain v) (h : (ofValue v).Reads t) :
    Text.Bracketless t := by
  induction v using ofValue.induct generalizing t with
  | case1 =>
    rw [ofValue] at h
    rw [show t = [] from h]
    exact fun c hc => absurd hc List.not_mem_nil
  | case2 c rest hspace ih =>
    rw [ofValue, if_pos hspace] at h
    obtain ⟨t₁, t₂, rfl, ⟨-, hbracket, -⟩, ht₂⟩ := h
    refine hbracket.append (ih (fun d hd => ?_) ht₂)
    exact hv d (List.mem_cons_of_mem _ ((List.dropWhile_sublist _).subset hd))
  | case3 c rest _ hamp =>
    rw [Bool.and_eq_true, decide_eq_true_eq] at hamp
    exact absurd hamp.1 (hv c List.mem_cons_self).2.2
  | case4 c rest hspace hamp ih =>
    rw [ofValue, if_neg hspace, if_neg hamp] at h
    obtain ⟨t₁, t₂, rfl, ht₁, ht₂⟩ := h
    refine Text.Bracketless.append ?_ (ih (fun d hd => hv d (List.mem_cons_of_mem _ hd)) ht₂)
    have hc : Text.Bracketless [c] := by
      intro d hd
      rw [List.mem_singleton.mp hd]
      exact ⟨(hv c List.mem_cons_self).1, (hv c List.mem_cons_self).2.1⟩
    unfold Piece.ofChar at ht₁
    split at ht₁
    · rw [show t₁ = [c] from ht₁]
      exact hc
    · rcases ht₁ with rfl | ⟨-, hbracket⟩
      · exact hc
      · exact hbracket

/-- Without references, what is read for a value has the words of the value. -/
theorem words_of_reads {v t : Text} (h : (ofValue v).Reads t) (ht : '&' ∉ t) :
    Text.words t = Text.words v ∧ t.head?.map Text.isSpace = v.head?.map Text.isSpace := by
  induction v using ofValue.induct generalizing t with
  | case1 =>
    rw [ofValue] at h
    rw [show t = [] from h]
    exact ⟨rfl, rfl⟩
  | case2 c rest hspace ih =>
    rw [ofValue, if_pos hspace] at h
    obtain ⟨t₁, t₂, rfl, ⟨hne, -, hspaces⟩, ht₂⟩ := h
    rw [List.mem_append, not_or] at ht
    obtain ⟨hwords, -⟩ := ih ht₂ ht.2
    obtain ⟨d, more, rfl⟩ := List.exists_cons_of_ne_nil hne
    have hspaces := hspaces ht.1
    refine ⟨?_, ?_⟩
    · rw [Text.words_of_isSpace_append hspaces, hwords, Text.words_dropWhile_isSpace,
        Text.words_cons_of_isSpace hspace]
    · simp [hspaces d List.mem_cons_self, hspace]
  | case3 c rest hspace hamp ih =>
    -- However the ampersand is written, an ampersand is written.
    rw [ofValue, if_neg hspace, if_pos hamp] at h
    obtain ⟨t₁, t₂, rfl, rfl | ⟨hin, -⟩, -⟩ := h
    · exact absurd List.mem_cons_self ht
    · exact absurd (List.mem_append_left _ hin) ht
  | case4 c rest hspace hamp ih =>
    rw [ofValue, if_neg hspace, if_neg hamp] at h
    obtain ⟨t₁, t₂, rfl, ht₁, ht₂⟩ := h
    rw [List.mem_append, not_or] at ht
    obtain rfl : t₁ = [c] := by
      unfold Piece.ofChar at ht₁
      split at ht₁
      · exact ht₁
      · rcases ht₁ with rfl | ⟨hin, -⟩
        · rfl
        · exact absurd hin ht.1
    obtain ⟨hwords, hhead⟩ := ih ht₂ ht.2
    exact ⟨Text.words_cons_congr hwords hhead, rfl⟩

/-- A value that is written as it is is matched as a whole. -/
theorem match?_self {v rest : Text} (hv : ∀ c ∈ v, c ≠ '&')
    (hrest : ∀ c ∈ rest.head?, Text.isSpace c = false ∧ c ≠ '&') :
    match? (fun _ => true) (ofValue v) (v ++ rest) = some rest := by
  -- The first way to read a piece decides when the rest of the pattern fits behind it.
  have first : ∀ {p : Piece} {ps : ValuePattern} {s r : Text}, (p.rests s).head? = some r →
      match? (fun _ => true) ps r = some rest → match? (fun _ => true) (p :: ps) s = some rest := by
    intro p ps s r hhead hmatch
    obtain ⟨more, hmore⟩ := List.head?_eq_some_iff.mp hhead
    rw [match?, hmore, List.findSome?_cons, hmatch]
  induction v using ofValue.induct with
  | case1 =>
    rw [ofValue, match?]
    rfl
  | case2 c more hspace ih =>
    rw [ofValue, if_pos hspace]
    have hafter : ∀ d ∈ more.dropWhile Text.isSpace, d ≠ '&' := fun d hd =>
      hv d (List.mem_cons_of_mem _ ((List.dropWhile_sublist _).subset hd))
    refine first ?_ (ih hafter)
    have hsplit : c :: more ++ rest =
        (c :: more.takeWhile Text.isSpace) ++ (more.dropWhile Text.isSpace ++ rest) := by
      rw [List.cons_append, List.cons_append, ← List.append_assoc, List.takeWhile_append_dropWhile]
    rw [Piece.rests, hsplit]
    refine Piece.head?_afterSpace ?_ (List.cons_ne_nil _ _) fun d hd => ?_
    · exact List.forall_mem_cons.mpr ⟨hspace, List.all_eq_true.mp List.all_takeWhile⟩
    · cases hmore : more.dropWhile Text.isSpace with
      | nil =>
        rw [hmore, List.nil_append] at hd
        exact hrest d hd
      | cons e others =>
        rw [hmore] at hd hafter
        obtain rfl : e = d := Option.some.inj hd
        refine ⟨?_, hafter e List.mem_cons_self⟩
        have := List.head?_dropWhile_not Text.isSpace more
        rw [hmore] at this
        simpa using this
  | case3 c more _ hamp =>
    rw [Bool.and_eq_true, decide_eq_true_eq] at hamp
    exact absurd hamp.1 (hv c List.mem_cons_self)
  | case4 c more hspace hamp ih =>
    rw [ofValue, if_neg hspace, if_neg hamp]
    refine first ?_ (ih fun d hd => hv d (List.mem_cons_of_mem _ hd))
    unfold Piece.ofChar
    split
    · rw [List.cons_append, Piece.rests, if_pos rfl]
      rfl
    · rw [List.cons_append, Piece.rests, if_pos rfl]
      rfl

/-! ## Places -/

/-- A place is a match where it begins. -/
theorem mem_findAll {p : ValuePattern} {offset skip : Nat} {s : Text} {r : Span}
    (h : r ∈ p.findAll offset skip s) :
    ∃ j n, p.matchLength? (s.drop j) = some n ∧ r = ⟨offset + j, offset + j + n⟩ := by
  fun_induction findAll p offset skip s with
  | case1 offset n hn => exact ⟨0, n, hn, List.mem_singleton.mp h⟩
  | case2 => cases h
  | case3 offset c rest skip ih =>
    obtain ⟨j, n, hn, rfl⟩ := ih h
    exact ⟨j + 1, n, hn, by rw [Nat.add_assoc, Nat.add_comm 1]⟩
  | case4 offset c rest n hn ih =>
    rcases List.mem_cons.mp h with rfl | h
    · exact ⟨0, n, hn, rfl⟩
    · obtain ⟨j, m, hm, rfl⟩ := ih h
      exact ⟨j + 1, m, hm, by rw [Nat.add_assoc, Nat.add_comm 1]⟩
  | case5 offset c rest hn ih =>
    obtain ⟨j, n, hn, rfl⟩ := ih h
    exact ⟨j + 1, n, hn, by rw [Nat.add_assoc, Nat.add_comm 1]⟩

theorem pairwise_findAll (p : ValuePattern) (offset skip : Nat) (s : Text) :
    (p.findAll offset skip s).Pairwise fun r r' => r.start ≤ r'.start := by
  fun_induction findAll p offset skip s with
  | case1 offset n hn => exact List.pairwise_singleton _ _
  | case2 => exact List.Pairwise.nil
  | case3 offset c rest skip ih => exact ih
  | case4 offset c rest n hn ih =>
    refine List.pairwise_cons.mpr ⟨fun r hr => ?_, ih⟩
    have := (findAll_inside r hr).lo_le
    simp only
    omega
  | case5 offset c rest hn ih => exact ih

/-- Where the pattern matches, a place begins or an earlier one is not yet over. -/
theorem findAll_cover {p : ValuePattern} {offset skip : Nat} {s : Text} {i : Nat} (hskip : skip ≤ i)
    (hi : i ≤ s.length) (h : (p.matchLength? (s.drop i)).isSome = true) :
    ∃ r ∈ p.findAll offset skip s,
      r.start ≤ offset + i ∧ (r.start = offset + i ∨ offset + i < r.stop) := by
  fun_induction findAll p offset skip s generalizing i with
  | case1 offset n hn =>
    obtain rfl : i = 0 := Nat.le_zero.mp hi
    exact ⟨_, List.mem_singleton_self _, Nat.le_refl _, .inl rfl⟩
  | case2 offset skip hnone =>
    obtain rfl : i = 0 := Nat.le_zero.mp hi
    obtain rfl : skip = 0 := Nat.le_zero.mp hskip
    obtain ⟨n, hn⟩ := Option.isSome_iff_exists.mp h
    exact absurd hn (hnone n rfl)
  | case3 offset c rest skip ih =>
    cases i with
    | zero => cases hskip
    | succ i =>
      obtain ⟨r, hr, hle, hcover⟩ := ih (Nat.le_of_succ_le_succ hskip) (Nat.le_of_succ_le_succ hi) h
      exact ⟨r, hr, by omega, by omega⟩
  | case4 offset c rest n hn ih =>
    by_cases hlt : i = 0 ∨ i < n
    · refine ⟨_, List.mem_cons_self, Nat.le_add_right _ _, ?_⟩
      simp only
      omega
    · cases i with
      | zero => exact absurd (.inl rfl) hlt
      | succ i =>
        obtain ⟨r, hr, hle, hcover⟩ := ih (i := i) (by omega) (Nat.le_of_succ_le_succ hi) h
        exact ⟨r, List.mem_cons_of_mem _ hr, by omega, by omega⟩
  | case5 offset c rest hn ih =>
    cases i with
    | zero =>
      rw [List.drop_zero, hn] at h
      cases h
    | succ i =>
      obtain ⟨r, hr, hle, hcover⟩ := ih (Nat.zero_le i) (Nat.le_of_succ_le_succ hi) h
      exact ⟨r, hr, by omega, by omega⟩

end ValuePattern

end Untranslated
