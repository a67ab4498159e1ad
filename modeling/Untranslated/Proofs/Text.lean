import Untranslated.Source.Lines
import Untranslated.Text.Space

/-!
# Cutting and searching texts

The arithmetic of ranges that the theory of positions rests on.

* `Span.Inside lo hi s`: the range `s` lies between two offsets and is not turned around.
* `Text.slice` of a range inside the text has the range's length (`length_slice`), and a slice of a
  slice is a slice (`slice_slice`).
* `Text.find?` returns the first place at which the pattern stands (`find?_eq_some_iff`), and so does
  `Text.findFrom?` from an offset on (`findFrom?_eq_some_iff`).
* Trimming cuts an initial and a final part off (`trim_eq_slice`), and what it leaves neither begins
  nor ends with whitespace (`trimmed_trim`); what neither begins nor ends with whitespace survives
  trimming (`Trimmed.infix_trim`).
* The words of a text hold all of it but its whitespace (`flatten_words`).
-/

namespace Untranslated

/-! ## Ranges -/

/-- The range lies between the offsets `lo` and `hi` and does not end before it begins. -/
structure Span.Inside (lo hi : Nat) (s : Span) : Prop where
  lo_le : lo ≤ s.start
  start_le_stop : s.start ≤ s.stop
  stop_le : s.stop ≤ hi

theorem Span.Inside.mono {lo hi lo' hi' : Nat} {s : Span} (h : s.Inside lo hi) (hlo : lo' ≤ lo)
    (hhi : hi ≤ hi') : s.Inside lo' hi' :=
  ⟨Nat.le_trans hlo h.lo_le, h.start_le_stop, Nat.le_trans h.stop_le hhi⟩

/-- An offset is strictly inside a range: the range began before it and goes on behind it. -/
def Span.Straddles (s : Span) (offset : Nat) : Prop := s.start < offset ∧ offset < s.stop

namespace Text

/-! ## Slices -/

theorem length_slice (s : Text) (a b : Nat) : (slice s a b).length = min (b - a) (s.length - a) := by
  simp [slice]

theorem length_slice_of_le {s : Text} {a b : Nat} (h : b ≤ s.length) :
    (slice s a b).length = b - a := by
  rw [length_slice]; omega

theorem slice_slice (s : Text) (a b c d : Nat) (h : a + d ≤ b) :
    slice (slice s a b) c d = slice s (a + c) (a + d) := by
  unfold slice
  rw [List.drop_take, List.drop_drop, List.take_take]
  congr 1
  omega

/-- The text around a cut, read from the cut on. -/
theorem slice_append {s : Text} {a b c : Nat} (hab : a ≤ b) (hbc : b ≤ c) :
    slice s a b ++ slice s b c = slice s a c := by
  unfold slice
  have hc : c - a = (b - a) + (c - b) := by omega
  rw [hc, List.take_add, List.drop_drop, Nat.add_sub_cancel' hab]

/-- What follows an offset is what stands up to a later one, and what follows that. -/
theorem slice_append_drop {s : Text} {a b : Nat} (hab : a ≤ b) : slice s a b ++ s.drop b = s.drop a := by
  have hdrop : s.drop b = (s.drop a).drop (b - a) := by rw [List.drop_drop, Nat.add_sub_cancel' hab]
  rw [slice, hdrop, List.take_append_drop]

theorem slice_infix_slice (s : Text) {a b c d : Nat} (hab : a ≤ b) (hcd : c ≤ d) :
    slice s b c <:+: slice s a d := by
  by_cases hbc : b ≤ c
  · rw [← slice_append hab (Nat.le_trans hbc hcd), ← slice_append hbc hcd, ← List.append_assoc]
    exact List.infix_append _ _ _
  · rw [slice, Nat.sub_eq_zero_of_le (by omega), List.take_zero]
    exact List.nil_infix

theorem slice_prefix_slice (s : Text) (a : Nat) {b c : Nat} (hbc : b ≤ c) :
    slice s a b <+: slice s a c :=
  List.take_prefix_take_left (by omega)

/-- What is written from an offset on is found there. -/
theorem slice_of_drop {s u v : Text} {a : Nat} (h : s.drop a = u ++ v) :
    slice s a (a + u.length) = u := by
  rw [slice, h, Nat.add_sub_cancel_left, List.take_left]

theorem drop_of_drop {s u v : Text} {a : Nat} (h : s.drop a = u ++ v) : s.drop (a + u.length) = v := by
  rw [← List.drop_drop, h, List.drop_left]

/-- The character that stands at an offset. -/
theorem getElem?_of_drop {s rest : Text} {c : Char} {n : Nat} (h : s.drop n = c :: rest) :
    s[n]? = some c := by
  rw [← List.head?_drop, h, List.head?_cons]

/-! ## Searching -/

theorem startsWith_iff {lead s : Text} : startsWith lead s = true ↔ lead <+: s := by
  unfold startsWith
  exact List.isPrefixOf_iff_prefix

/-- What begins a text and does not hold a character ends before it. -/
theorem prefix_of_not_mem {t u v : Text} {c : Char} (h : t <+: u ++ c :: v) (hc : c ∉ t) : t <+: u := by
  rcases List.prefix_or_prefix_of_prefix h (List.prefix_append u (c :: v)) with h' | ⟨w, rfl⟩
  · exact h'
  · cases w with
    | nil => simp
    | cons d w =>
      obtain ⟨rfl, -⟩ := List.cons_prefix_cons.mp ((List.prefix_append_right_inj u).mp h)
      exact absurd (by simp) hc

/-- A run that a character ends which does not belong to it. -/
theorem span_append {p : Char → Bool} {s rest : Text} (hs : ∀ c ∈ s, p c = true)
    (hrest : ∀ c ∈ rest.head?, p c = false) : span p (s ++ rest) = (s, rest) := by
  have htake : rest.takeWhile p = [] := by
    cases rest with
    | nil => rfl
    | cons c rest => rw [List.takeWhile_cons_of_neg (by simp [hrest c rfl])]
  have hdrop : rest.dropWhile p = rest := by
    cases rest with
    | nil => rfl
    | cons c rest => rw [List.dropWhile_cons_of_neg (by simp [hrest c rfl])]
  rw [span, List.takeWhile_append_of_pos hs, List.dropWhile_append_of_pos hs, htake, hdrop,
    List.append_nil]

/-- A run ends before the first character that does not belong to it. -/
theorem span_eq {p : Char → Bool} {t s rest : Text} (h : span p t = (s, rest)) :
    t = s ++ rest ∧ (∀ c ∈ s, p c = true) ∧ ∀ c ∈ rest.head?, p c = false := by
  obtain ⟨rfl, rfl⟩ := Prod.mk.inj h
  refine ⟨List.takeWhile_append_dropWhile.symm, List.all_eq_true.mp List.all_takeWhile, fun c hc => ?_⟩
  have hhead := List.head?_dropWhile_not p t
  rwa [hc] at hhead

/-- Nothing of the text is an angle bracket. -/
def Bracketless (s : Text) : Prop := ∀ c ∈ s, c ≠ '<' ∧ c ≠ '>'

theorem Bracketless.append {s t : Text} (hs : Bracketless s) (ht : Bracketless t) :
    Bracketless (s ++ t) := fun c hc => (List.mem_append.mp hc).elim (hs c) (ht c)

/-- A text in which neither a tag nor a reference can begin or end. -/
def Plain (s : Text) : Prop := ∀ c ∈ s, c ≠ '<' ∧ c ≠ '>' ∧ c ≠ '&'

/-- A pattern is found where it first stands. -/
theorem find?_eq_some_iff {pat s : Text} {n : Nat} :
    find? pat s = some n ↔ pat <+: s.drop n ∧ ∀ m < n, ¬ pat <+: s.drop m := by
  induction s generalizing n with
  | nil =>
    simp only [find?, List.isEmpty_iff, List.drop_nil, List.prefix_nil]
    constructor
    · intro h
      split at h
      · cases h
        exact ⟨‹_›, by simp⟩
      · cases h
    · rintro ⟨rfl, hfirst⟩
      obtain rfl : n = 0 := Nat.eq_zero_of_not_pos fun hn => hfirst 0 hn rfl
      rfl
  | cons c rest ih =>
    rw [find?]
    split
    · rename_i hhere
      rw [startsWith_iff] at hhere
      constructor
      · rintro ⟨⟩
        exact ⟨hhere, by simp⟩
      · rintro ⟨-, hfirst⟩
        obtain rfl : n = 0 := Nat.eq_zero_of_not_pos fun hn => hfirst 0 hn hhere
        rfl
    · rename_i hhere
      rw [startsWith_iff] at hhere
      constructor
      · intro h
        obtain ⟨m, hm, rfl⟩ := Option.map_eq_some_iff.mp h
        obtain ⟨hstands, hfirst⟩ := ih.mp hm
        refine ⟨hstands, fun k hk => ?_⟩
        cases k with
        | zero => exact hhere
        | succ k => exact hfirst k (by omega)
      · rintro ⟨hstands, hfirst⟩
        cases n with
        | zero => exact absurd hstands hhere
        | succ n =>
          have hrest := ih.mpr ⟨hstands, fun k hk => hfirst (k + 1) (by omega)⟩
          rw [hrest, Option.map_some]

/-- A pattern stands where it is found. -/
theorem prefix_of_find? {pat s : Text} {n : Nat} (h : find? pat s = some n) : pat <+: s.drop n :=
  (find?_eq_some_iff.mp h).1

/-- A pattern that is not empty stands inside the text. -/
theorem add_length_le_of_prefix_drop {pat s : Text} {n : Nat} (hpat : pat ≠ []) (h : pat <+: s.drop n) :
    n + pat.length ≤ s.length := by
  have hlen := h.length_le
  have hpos := List.length_pos_iff.mpr hpat
  rw [List.length_drop] at hlen
  omega

/-- A pattern fits where it is found. -/
theorem find?_le {pat s : Text} {n : Nat} (h : find? pat s = some n) :
    n + pat.length ≤ s.length := by
  obtain ⟨hstands, hfirst⟩ := find?_eq_some_iff.mp h
  by_cases hpat : pat = []
  · obtain rfl : n = 0 := Nat.eq_zero_of_not_pos fun hn => hfirst 0 hn (hpat ▸ List.nil_prefix)
    simp [hpat]
  · exact add_length_le_of_prefix_drop hpat hstands

/-- A pattern is found just if it is a part of the text. -/
theorem isSome_find? {pat s : Text} : (find? pat s).isSome = true ↔ pat <:+: s := by
  induction s with
  | nil => simp [find?]
  | cons c rest ih =>
    rw [find?, List.infix_cons_iff, ← startsWith_iff, ← ih]
    split <;> simp_all

/-- A pattern is not found just if it stands nowhere. -/
theorem find?_eq_none_iff {pat s : Text} : find? pat s = none ↔ ∀ n, ¬ pat <+: s.drop n := by
  rw [← Option.not_isSome_iff_eq_none, isSome_find?]
  constructor
  · intro h n hstands
    exact h (hstands.isInfix.trans (List.drop_suffix n s).isInfix)
  · rintro h ⟨before, after, rfl⟩
    refine h before.length ?_
    rw [List.append_assoc, List.drop_left]
    exact List.prefix_append pat after

/-- Where a character is found, the text is cut by its first occurrence. -/
theorem exists_of_find?_singleton {c : Char} {s : Text} {n : Nat} (h : find? [c] s = some n) :
    ∃ t rest, s = t ++ c :: rest ∧ c ∉ t ∧ t.length = n := by
  obtain ⟨⟨rest, hrest⟩, hfirst⟩ := find?_eq_some_iff.mp h
  have hn : n < s.length := by
    have := congrArg List.length hrest
    simp only [List.length_append, List.length_cons, List.length_drop] at this
    omega
  refine ⟨s.take n, rest, ?_, fun hmem => ?_, by rw [List.length_take]; omega⟩
  · rw [← List.singleton_append, hrest, List.take_append_drop]
  · obtain ⟨k, hk, hget⟩ := List.mem_take_iff_getElem.mp hmem
    have hk' : k < n := by omega
    refine hfirst k hk' ⟨s.drop (k + 1), ?_⟩
    rw [← hget, List.singleton_append, List.getElem_cons_drop]

/-- A pattern that is not empty is found from an offset on where it first stands from there. -/
theorem findFrom?_eq_some_iff {pat s : Text} {start n : Nat} (hpat : pat ≠ []) :
    findFrom? pat s start = some n ↔
      start ≤ n ∧ pat <+: s.drop n ∧ ∀ m, start ≤ m → m < n → ¬ pat <+: s.drop m := by
  unfold findFrom?
  split
  · rw [Option.map_eq_some_iff]
    constructor
    · rintro ⟨i, hi, rfl⟩
      obtain ⟨hstands, hfirst⟩ := find?_eq_some_iff.mp hi
      rw [List.drop_drop, Nat.add_comm] at hstands
      refine ⟨Nat.le_add_left _ _, hstands, fun m hle hlt => ?_⟩
      have hnot := hfirst (m - start) (by omega)
      rwa [List.drop_drop, Nat.add_sub_cancel' hle] at hnot
    · rintro ⟨hle, hstands, hfirst⟩
      refine ⟨n - start, find?_eq_some_iff.mpr ⟨?_, fun m hm => ?_⟩, Nat.sub_add_cancel hle⟩
      · rwa [List.drop_drop, Nat.add_sub_cancel' hle]
      · rw [List.drop_drop]
        exact hfirst (start + m) (Nat.le_add_right _ _) (by omega)
  · constructor
    · intro h
      cases h
    · rintro ⟨hle, hstands, -⟩
      have := add_length_le_of_prefix_drop hpat hstands
      omega

theorem findFrom?_eq_none_iff {pat s : Text} {start : Nat} (hpat : pat ≠ []) :
    findFrom? pat s start = none ↔ ∀ n, start ≤ n → ¬ pat <+: s.drop n := by
  unfold findFrom?
  split
  · rw [Option.map_eq_none_iff, find?_eq_none_iff]
    constructor
    · intro h n hle
      have hnot := h (n - start)
      rwa [List.drop_drop, Nat.add_sub_cancel' hle] at hnot
    · intro h n
      rw [List.drop_drop]
      exact h (start + n) (Nat.le_add_right _ _)
  · refine ⟨fun _ n hle hstands => ?_, fun _ => rfl⟩
    have := add_length_le_of_prefix_drop hpat hstands
    omega

/-! ## Trimming -/

/-- The text neither begins nor ends with whitespace. -/
structure Trimmed (s : Text) : Prop where
  head : ∀ c ∈ s.head?, isSpace c = false
  last : ∀ c ∈ s.getLast?, isSpace c = false

theorem length_trimLeft_le (s : Text) : (trimLeft s).length ≤ s.length :=
  (List.dropWhile_suffix isSpace).length_le

theorem trimLeft_eq_drop (s : Text) : trimLeft s = s.drop (s.length - (trimLeft s).length) :=
  List.suffix_iff_eq_drop.mp (List.dropWhile_suffix isSpace)

theorem trimRight_prefix_self (s : Text) : trimRight s <+: s := by
  have h : s.reverse.dropWhile isSpace <:+ s.reverse := List.dropWhile_suffix isSpace
  simpa [trimRight] using List.reverse_prefix.mpr h

/-- A beginning without whitespace survives. -/
theorem prefix_trimRight {run s : Text} (hrun : ∀ c ∈ run, isSpace c = false) (h : run <+: s) :
    run <+: trimRight s := by
  obtain ⟨rest, rfl⟩ := h
  have hkept : run.reverse.dropWhile isSpace = run.reverse := by
    cases hreverse : run.reverse with
    | nil => rfl
    | cons c more =>
      have hc := hrun c (List.mem_reverse.mp (hreverse ▸ List.mem_cons_self))
      rw [List.dropWhile_cons_of_neg (by simp [hc])]
  rw [trimRight, List.reverse_append, List.dropWhile_append, hkept]
  split
  · exact (List.reverse_reverse _).symm ▸ List.prefix_rfl
  · rw [List.reverse_append, List.reverse_reverse]
    exact List.prefix_append _ _

theorem trim_of_head? {s : Text} (h : ∀ c ∈ s.head?, isSpace c = false) : trim s = trimRight s := by
  cases s with
  | nil => rfl
  | cons c rest => rw [trim, trimLeft, List.dropWhile_cons_of_neg (by simp [h c rfl])]

/-- Trimming cuts an initial and a final part off. -/
theorem trim_eq_slice (s : Text) :
    trim s = slice s (s.length - (trimLeft s).length)
      (s.length - (trimLeft s).length + (trim s).length) := by
  have h := List.prefix_iff_eq_take.mp (trimRight_prefix_self (trimLeft s))
  unfold slice
  rw [Nat.add_sub_cancel_left, ← trimLeft_eq_drop]
  exact h

theorem length_trim_le (s : Text) : (trim s).length ≤ (trimLeft s).length :=
  (trimRight_prefix_self (trimLeft s)).length_le

theorem head?_trimLeft (s : Text) : ∀ c ∈ (trimLeft s).head?, isSpace c = false := by
  intro c hc
  have := List.head?_dropWhile_not isSpace s
  rw [show s.dropWhile isSpace = trimLeft s from rfl, hc] at this
  exact this

theorem trimmed_trim (s : Text) : Trimmed (trim s) where
  head c hc := by
    refine head?_trimLeft s c ?_
    obtain ⟨after, hafter⟩ := trimRight_prefix_self (trimLeft s)
    rw [← hafter, List.head?_append, show (trimRight (trimLeft s)).head? = some c from hc]
    rfl
  last c hc := by
    refine head?_trimLeft (trimLeft s).reverse c ?_
    rw [trim, trimRight, List.getLast?_reverse] at hc
    exact hc

/-- What neither begins nor ends with whitespace survives trimming. -/
theorem Trimmed.infix_trim {u s : Text} (hu : Trimmed u) (hne : u ≠ []) (h : u <:+: s) :
    u <:+: trim s := by
  -- Leading whitespace ends before the part, and so does, read backwards, trailing whitespace.
  have hkeep : ∀ {v t : Text}, (∀ c ∈ v.head?, isSpace c = false) → v ≠ [] → v <:+: t →
      v <:+: trimLeft t := by
    rintro v t hv hne ⟨before, after, rfl⟩
    obtain ⟨c, rest, rfl⟩ := List.exists_cons_of_ne_nil hne
    have hc : isSpace c = false := hv c rfl
    unfold trimLeft
    rw [List.append_assoc, List.dropWhile_append]
    split
    · rw [List.cons_append, List.dropWhile_cons_of_neg (by simp [hc])]
      exact (List.prefix_append (c :: rest) after).isInfix
    · exact ⟨_, after, List.append_assoc ..⟩
  have hleft := hkeep hu.head hne h
  have hlast : ∀ c ∈ u.reverse.head?, isSpace c = false := by
    rw [List.head?_reverse]
    exact hu.last
  have hright := hkeep hlast (by simpa using hne) (List.reverse_infix.mpr hleft)
  simpa [trim, trimRight, trimLeft] using List.reverse_infix.mpr hright

/-! ## Words -/

theorem words_cons_of_isSpace {c : Char} (h : isSpace c = true) (s : Text) :
    words (c :: s) = words s := by
  rw [words.eq_def]
  simp only [if_pos h]

theorem words_of_isSpace_append {w : Text} (hw : ∀ c ∈ w, isSpace c = true) (s : Text) :
    words (w ++ s) = words s := by
  induction w with
  | nil => rfl
  | cons c w ih =>
    obtain ⟨hc, hw⟩ := List.forall_mem_cons.mp hw
    rw [List.cons_append, words_cons_of_isSpace hc, ih hw]

theorem words_dropWhile_isSpace (s : Text) : words (s.dropWhile isSpace) = words s := by
  have hspace : ∀ c ∈ s.takeWhile isSpace, isSpace c = true := List.all_eq_true.mp List.all_takeWhile
  rw [← words_of_isSpace_append hspace (s.dropWhile isSpace), List.takeWhile_append_dropWhile]

/-- A word goes on alike before texts that have the same words and begin alike. -/
theorem words_cons_congr {c : Char} {s t : Text} (hwords : words s = words t)
    (hhead : s.head?.map isSpace = t.head?.map isSpace) : words (c :: s) = words (c :: t) := by
  rw [words.eq_def, words.eq_def]
  simp only [hwords]
  split
  · rfl
  · cases s with
    | nil =>
      cases t with
      | nil => rfl
      | cons d t => cases hhead
    | cons d s =>
      cases t with
      | nil => cases hhead
      | cons d' t =>
        have hsame : isSpace d = isSpace d' := Option.some.inj hhead
        simp only [hsame]

/-- The words of a text are what is left of it without its whitespace. -/
theorem flatten_words (s : Text) : (words s).flatten = s.filter fun c => !isSpace c := by
  fun_induction words s with
  | case1 => rfl
  | case2 c rest hc ih => rw [ih, List.filter_cons_of_neg (by simp [hc])]
  | case3 c hc =>
    rw [List.filter_cons_of_pos (by simp [hc])]
    rfl
  | case4 c hc d rest hd ih =>
    rw [List.filter_cons_of_pos (by simp [hc]), List.flatten_cons, ih]
    rfl
  | case5 c hc d rest hd hnil ih =>
    rw [hnil] at ih
    rw [List.filter_cons_of_pos (by simp [hc]), ← ih, hnil]
    rfl
  | case6 c hc d rest hd w more hw ih =>
    rw [hw] at ih
    rw [List.filter_cons_of_pos (by simp [hc]), ← ih, hw]
    rfl

theorem words_eq_singleton {s : Text} (hne : s ≠ []) (h : ∀ c ∈ s, isSpace c = false) :
    words s = [s] := by
  induction s with
  | nil => exact absurd rfl hne
  | cons c s ih =>
    obtain ⟨hc, hs⟩ := List.forall_mem_cons.mp h
    rw [words.eq_def]
    simp only [hc]
    cases s with
    | nil => rfl
    | cons d s =>
      rw [ih (List.cons_ne_nil _ _) hs]
      simp [hs d List.mem_cons_self]

end Text

end Untranslated
