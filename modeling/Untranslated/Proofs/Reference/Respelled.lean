import Untranslated.Proofs.Reference.Visible
import Untranslated.Proofs.Source.Respelled

/-!
# References in respelled texts

No reference holds a line break, so respelling the line breaks of a text does not change which reference it
begins with (`WrittenReference.lead?_respelled`) and whether its references can be read
(`Reference.overlong?_respelled`). What it decodes to is respelled with it (`Reference.decode_respelled`),
although a name that is decoded takes in the carriage return behind it.
-/

namespace Untranslated

open Text (Respelled)

namespace Text.Respelled

variable {s s' : Text}

/-- A run that no line break belongs to is kept. -/
theorem span {p : Char → Bool} (hreturn : p '\r' = false) (hfeed : p '\n' = false) (h : Respelled s s') :
    ∃ run rest rest', Text.span p s = (run, rest) ∧ Text.span p s' = (run, rest') ∧
      Respelled rest rest' := by
  obtain ⟨hs, hrun, hrest⟩ := Text.span_eq (p := p) (t := s) rfl
  rw [hs] at h
  obtain ⟨rest', rfl, hrest'⟩ := h.of_append_left fun hmem => by
    rw [hrun _ hmem] at hfeed
    cases hfeed
  refine ⟨_, _, rest', rfl, Text.span_append hrun fun c hc => ?_, hrest'⟩
  rcases hrest'.head? with heq | ⟨heq, -⟩
  · exact hrest c (heq ▸ hc)
  · rw [heq] at hc
    cases hc
    exact hreturn

theorem mem_head? (h : Respelled s s') :
    (∀ c ∈ s'.head?, c ∈ s.head? ∨ c = '\r' ∨ c = '\n') ∧
      ∀ c ∈ s.head?, c ∈ s'.head? ∨ c = '\r' ∨ c = '\n' := by
  cases h <;> simp

/-- A part that no carriage return stands in was there before. -/
theorem of_append_right {u t' : Text} (h : Respelled s (u ++ t')) (hu : '\r' ∉ u) :
    ∃ t, s = u ++ t ∧ Respelled t t' := by
  induction u generalizing s with
  | nil => exact ⟨s, rfl, h⟩
  | cons c u ih =>
    generalize hwhole : c :: u ++ t' = whole at h
    cases h with
    | nil => cases hwhole
    | cons _ h =>
      obtain ⟨rfl, rfl⟩ := List.cons.inj hwhole
      obtain ⟨t, rfl, ht⟩ := ih h fun hmem => hu (List.mem_cons_of_mem c hmem)
      exact ⟨t, rfl, ht⟩
    | feed =>
      obtain ⟨rfl, -⟩ := List.cons.inj hwhole
      exact absurd List.mem_cons_self hu

end Text.Respelled

/-! ## Written references -/

namespace WrittenReference

variable {s s' : Text}

theorem breakless_of_isBodyChar {t : Text} (h : ∀ c ∈ t, isBodyChar c = true) : t.Breakless := by
  intro c hc
  have hbody := h c hc
  constructor <;> rintro rfl <;> exact absurd hbody (by decide)

/-- A reference as written holds no line break. -/
theorem Leading.breakless {body semicolon after : Text} (h : Leading body semicolon after) :
    Text.Breakless ('&' :: (body ++ semicolon)) :=
  List.forall_mem_cons.mpr ⟨by decide, breakless_of_isBodyChar h.isBodyChar⟩

/-- Whether a body is the longest one hangs on the next character alone, and a line break ends it. -/
theorem LongestBody.congr {body rest rest' : Text} (h : LongestBody body rest)
    (hhead : ∀ c ∈ rest'.head?, c ∈ rest.head? ∨ c = '\r' ∨ c = '\n') : LongestBody body rest' := by
  have hends : ∀ {p : Char → Bool}, p '\r' = false → p '\n' = false →
      (∀ c ∈ rest.head?, p c = false) → ∀ c ∈ rest'.head?, p c = false := by
    intro p hreturn hfeed hp c hc
    rcases hhead c hc with hc | rfl | rfl
    · exact hp c hc
    · exact hreturn
    · exact hfeed
  cases h with
  | hex hx hne hdigits hrest => exact .hex hx hne hdigits (hends (by decide) (by decide) hrest)
  | decimal hne hdigits hrest => exact .decimal hne hdigits (hends (by decide) (by decide) hrest)
  | name hc hletters hrest => exact .name hc hletters (hends (by decide) (by decide) hrest)

theorem Leading.congr {body semicolon after after' : Text} (h : Leading body semicolon after)
    (hhead : ∀ c ∈ after'.head?, c ∈ after.head? ∨ c = '\r' ∨ c = '\n') :
    Leading body semicolon after' := by
  refine ⟨h.body.congr fun c hc => ?_, h.semicolon.imp_right fun ⟨hnil, hne⟩ => ⟨hnil, fun hc => ?_⟩⟩
  · rcases h.semicolon with rfl | ⟨rfl, -⟩
    · exact .inl hc
    · exact hhead c hc
  · rcases hhead ';' hc with hc | hc | hc
    · exact hne hc
    · exact absurd hc (by decide)
    · exact absurd hc (by decide)

/-- A respelled text begins with the reference that it began with. -/
theorem lead?_respelled (h : Respelled s s') : lead? s' = lead? s := by
  refine Option.ext fun r => ?_
  constructor
  · intro hr
    obtain ⟨body, semicolon, after', rfl, rfl, hleading⟩ := lead?_eq_some.mp hr
    obtain ⟨after, rfl, hafter⟩ := h.of_append_right fun hmem => (hleading.breakless _ hmem).1 rfl
    exact lead?_eq_some.mpr ⟨body, semicolon, after, rfl, rfl, hleading.congr hafter.mem_head?.2⟩
  · intro hr
    obtain ⟨body, semicolon, after, rfl, rfl, hleading⟩ := lead?_eq_some.mp hr
    obtain ⟨after', rfl, hafter⟩ := h.of_append_left hleading.breakless.not_mem
    exact lead?_eq_some.mpr ⟨body, semicolon, after', rfl, rfl, hleading.congr hafter.mem_head?.1⟩

/-- A text is one reference just if it is the longest one that it begins with. -/
theorem isWhole_iff : isWhole s = true ↔ lead? s = some s := by
  constructor
  · intro hwhole
    have hne : rests s ≠ [] := by
      rintro hnil
      rw [isWhole, hnil] at hwhole
      cases hwhole
    obtain ⟨after, others, hrests⟩ := List.exists_cons_of_ne_nil hne
    have hlongest : longest? s = some after := by rw [longest?, hrests]; rfl
    obtain ⟨body, semicolon, rfl, hleading⟩ := longest?_eq_some.mp hlongest
    obtain rfl := hleading.after_eq_nil hwhole
    rw [lead?, hlongest, Option.map_some, List.length_nil, Nat.sub_zero, List.take_length]
  · intro hlead
    obtain ⟨after, hlongest, htake⟩ := Option.map_eq_some_iff.mp hlead
    have hmem : after ∈ rests s := List.mem_of_mem_head? hlongest
    have hnil : after = [] := by
      obtain ⟨body, semicolon, rfl, hleading⟩ := longest?_eq_some.mp hlongest
      have hlength := congrArg List.length htake
      simp only [List.length_take, List.length_cons, List.length_append] at hlength
      exact List.eq_nil_of_length_eq_zero (by omega)
    rw [isWhole, List.contains_eq_mem, decide_eq_true_eq]
    exact hnil ▸ hmem

end WrittenReference

/-! ## Decoding -/

namespace Reference

variable {s s' : Text}

theorem overlongNumber?_respelled (h : Respelled s s') : overlongNumber? s' = overlongNumber? s := by
  obtain ⟨run, rest, rest', hs, hs', -⟩ := h.span (p := Text.isDigit) (by decide) (by decide)
  unfold overlongNumber?
  rw [(Prod.mk.inj hs).1, (Prod.mk.inj hs').1]

theorem overlong?_cons {c : Char} {rest : Text} (h : c = '&' → rest.head? ≠ some '#') :
    overlong? (c :: rest) = overlong? rest := by
  rw [overlong?]
  rintro v rfl rfl
  exact h rfl rfl

/-- Whether the references of a text can be read does not hang on its line breaks. -/
theorem overlong?_respelled (h : Respelled s s') : overlong? s' = overlong? s := by
  fun_induction overlong? s generalizing s' with
  | case1 =>
    cases h
    rfl
  | case2 rest ih =>
    obtain ⟨rest', rfl, hrest⟩ := h.of_append_left (s := ['&', '#']) (by decide)
    rw [List.cons_append, List.cons_append, List.nil_append, overlong?, overlongNumber?_respelled hrest,
      ih hrest]
  | case3 c rest hne ih =>
    cases h with
    | cons _ h =>
      rw [overlong?_cons, ih h]
      rintro hc hhead
      rcases h.head? with heq | ⟨heq, -⟩
      · obtain ⟨v, hv⟩ := List.head?_eq_some_iff.mp (heq ▸ hhead)
        exact hne v hc hv
      · rw [heq] at hhead
        cases hhead
    | feed h => rw [overlong?_cons (by simp), overlong?_cons (by simp), ih h]

theorem takeSemicolon_respelled (h : Respelled s s') :
    (takeSemicolon s').1 = (takeSemicolon s).1 ∧ Respelled (takeSemicolon s).2 (takeSemicolon s').2 := by
  cases h with
  | nil => exact ⟨rfl, .nil⟩
  | @cons c s s' h =>
    by_cases hc : c = ';'
    · subst hc
      exact ⟨rfl, h⟩
    · have hkept : ∀ t : Text, takeSemicolon (c :: t) = (false, c :: t) := by
        intro t
        rw [takeSemicolon]
        rintro _ ⟨rfl, -⟩
        exact hc rfl
      rw [hkept, hkept]
      exact ⟨rfl, .cons c h⟩
  | feed h => exact ⟨rfl, .feed h⟩

theorem length_takeSemicolon_le (s : Text) : (takeSemicolon s).2.length ≤ s.length := by
  unfold takeSemicolon
  split
  · simp
  · exact Nat.le_refl _

/-- A number is read just if it is written, as far as it goes. -/
theorem readNumber?_eq_some {rest : Text} {n : Nat} : readNumber? s = some (n, rest) ↔
    ∃ digits, s = digits ++ rest ∧ n = numberOf digits ∧
      WrittenReference.LongestBody ('#' :: digits) rest := by
  constructor
  · intro h
    obtain ⟨body, hbody, hlongest⟩ := longestBody_of_readNumber? h
    cases body with
    | nil => cases hlongest
    | cons c digits =>
      obtain ⟨rfl, hs⟩ := List.cons.inj (hbody.trans List.cons_append)
      rw [hs, readNumber?_append hlongest] at h
      cases h
      exact ⟨digits, hs, rfl, hlongest⟩
  · rintro ⟨digits, rfl, rfl, hlongest⟩
    exact readNumber?_append hlongest

/-- A number is read alike, and what follows it is respelled. -/
theorem readNumber?_respelled (h : Respelled s s') :
    readNumber? s = none ∧ readNumber? s' = none ∨
      ∃ n rest rest', readNumber? s = some (n, rest) ∧ readNumber? s' = some (n, rest') ∧
        Respelled rest rest' := by
  have hbreakless : ∀ {digits rest : Text}, WrittenReference.LongestBody ('#' :: digits) rest →
      digits.Breakless := fun hlongest => WrittenReference.breakless_of_isBodyChar
    (List.forall_mem_cons.mp hlongest.isBodyChar).2
  cases hread : readNumber? s with
  | some found =>
    obtain ⟨n, rest⟩ := found
    obtain ⟨digits, rfl, rfl, hlongest⟩ := readNumber?_eq_some.mp hread
    obtain ⟨rest', rfl, hrest⟩ := h.of_append_left (hbreakless hlongest).not_mem
    exact .inr ⟨_, rest, rest', rfl, readNumber?_append (hlongest.congr hrest.mem_head?.1), hrest⟩
  | none =>
    refine .inl ⟨rfl, Option.eq_none_iff_forall_ne_some.mpr fun found hfound => ?_⟩
    obtain ⟨n, rest'⟩ := found
    obtain ⟨digits, rfl, rfl, hlongest⟩ := readNumber?_eq_some.mp hfound
    obtain ⟨rest, rfl, hrest⟩ := h.of_append_right fun hmem => (hbreakless hlongest _ hmem).1 rfl
    rw [readNumber?_append (hlongest.congr hrest.mem_head?.2)] at hread
    cases hread

theorem decode_cons {c : Char} (hc : c ≠ '&') (s : Text) : decode (c :: s) = c :: decode s := by
  rw [decode]
  exact hc

/-- A number is decoded together with the semicolon behind it. -/
theorem decode_number {n : Nat} {rest : Text} (h : readNumber? s = some (n, rest)) :
    decode ('&' :: '#' :: s) = decodeNumber n ++ decode (takeSemicolon rest).2 := by
  have hlength : (takeSemicolon rest).2.length ≤ ('#' :: s).length := by
    obtain ⟨digits, rfl, -⟩ := readNumber?_eq_some.mp h
    have := length_takeSemicolon_le rest
    simp only [List.length_cons, List.length_append]
    omega
  rw [decode, readDecoded?, h]
  simp only [Option.map_some]
  rw [if_pos hlength]

/-! ### Names -/

theorem lenientNames_letters : (lenientNames.all fun e =>
    e.1.toList.all Text.isLetterOrDigit && 2 ≤ e.1.toList.length) = true := by
  decide +kernel

/-- A name that needs no semicolon is a run of two or more letters and digits. -/
theorem letters_of_lenient? {name cs : Text} (h : lenient? name = some cs) :
    (∀ c ∈ name, Text.isLetterOrDigit c = true) ∧ 2 ≤ name.length := by
  obtain ⟨codes, hlookup, -⟩ := Option.map_eq_some_iff.mp h
  obtain ⟨before, after, hnames, -⟩ := List.lookup_eq_some_iff.mp hlookup
  have hentry := List.all_eq_true.mp lenientNames_letters (String.ofList name, codes) (by simp [hnames])
  simpa using hentry

/-- The characters of a name, `closed` saying whether a semicolon follows. -/
def known (name : Text) (closed : Bool) : Text :=
  let tail := if closed then [';'] else []
  match if closed then terminated? name else lenient? name with
  | some cs => cs
  | none =>
    match longestLenient? name (name.length + tail.length - 1) with
    | some (cs, n) => cs ++ name.drop n ++ tail
    | none => '&' :: name ++ tail

/-- A name is decoded to its characters. -/
theorem decode_known {u : Text} (hu : u.head? ≠ some '#') (hname : nameOf u ≠ []) :
    decode ('&' :: u) = known (nameOf u) (takeSemicolon (u.drop (nameOf u).length)).1 ++
      decode (takeSemicolon (u.drop (nameOf u).length)).2 := by
  have hlength : (takeSemicolon (u.drop (nameOf u).length)).2.length ≤ u.length := by
    have := length_takeSemicolon_le (u.drop (nameOf u).length)
    simp only [List.length_drop] at this
    omega
  have hread : readDecoded? u = some (known (nameOf u) (takeSemicolon (u.drop (nameOf u).length)).1,
      (takeSemicolon (u.drop (nameOf u).length)).2) := by
    rw [readDecoded?]
    · simp only [show (u.takeWhile fun c => !endsName c).take 32 = nameOf u from rfl]
      rw [if_neg (by simpa using hname)]
      generalize takeSemicolon (u.drop (nameOf u).length) = cut
      obtain ⟨closed, rest⟩ := cut
      simp only [known]
      generalize (if closed = true then terminated? (nameOf u) else lenient? (nameOf u)) = exactly
      cases exactly with
      | some cs => rfl
      | none =>
        simp only
        generalize longestLenient? (nameOf u) _ = found
        cases found <;> rfl
    · rintro v rfl
      exact hu rfl
  rw [decode, hread]
  simp only
  rw [if_pos hlength]

/-- An ampersand that no name follows stands for itself. -/
theorem decode_bare {u : Text} (hu : u.head? ≠ some '#') (hname : nameOf u = []) :
    decode ('&' :: u) = '&' :: decode u := by
  have hread : readDecoded? u = none := by
    rw [readDecoded?]
    · simp only [show (u.takeWhile fun c => !endsName c).take 32 = nameOf u from rfl]
      rw [if_pos (by simp [hname])]
    · rintro v rfl
      exact hu rfl
  rw [decode, hread]

theorem longestLenient?_append {name : Text} {n : Nat} (hn : n ≤ name.length) (t : Text) :
    longestLenient? (name ++ t) n = longestLenient? name n := by
  fun_induction longestLenient? name n with
  | case1 => rfl
  | case2 => rfl
  | case3 n cs h => rw [longestLenient?, List.take_append_of_le_length hn, h]
  | case4 n h ih => rw [longestLenient?, List.take_append_of_le_length hn, h, ← ih (by omega)]

theorem le_of_longestLenient? {name cs : Text} {m n : Nat} (h : longestLenient? name m = some (cs, n)) :
    n ≤ m := by
  fun_induction longestLenient? name m with
  | case1 => cases h
  | case2 => cases h
  | case3 =>
    cases h
    exact Nat.le_refl _
  | case4 m _ ih => exact Nat.le_trans (ih h) (Nat.le_succ _)

/-- A carriage return that is taken into a name stays behind it. -/
theorem known_return (name : Text) : known (name ++ ['\r']) false = known name false ++ ['\r'] := by
  have hnone : lenient? (name ++ ['\r']) = none := Option.eq_none_iff_forall_ne_some.mpr fun cs hcs => by
    have := (letters_of_lenient? hcs).1 '\r' (by simp)
    exact absurd this (by decide)
  have hlongest : longestLenient? (name ++ ['\r']) name.length =
      match lenient? name with
      | some cs => some (cs, name.length)
      | none => longestLenient? name (name.length - 1) := by
    rw [longestLenient?_append (Nat.le_refl _)]
    match hlength : name.length with
    | 0 | 1 =>
      have hname : lenient? name = none := Option.eq_none_iff_forall_ne_some.mpr fun cs hcs => by
        have := (letters_of_lenient? hcs).2
        omega
      simp [hname, longestLenient?]
    | n + 2 => rw [longestLenient?, List.take_of_length_le (by omega)]; rfl
  simp only [known, Bool.false_eq_true, if_false, hnone, List.length_append, List.length_singleton,
    List.length_nil, Nat.add_zero, Nat.add_sub_cancel, hlongest, List.append_nil]
  cases lenient? name with
  | some cs => simp
  | none =>
    simp only
    cases hfound : longestLenient? name (name.length - 1) with
    | none => simp
    | some found =>
      obtain ⟨cs, n⟩ := found
      have hle := le_of_longestLenient? hfound
      simp only
      rw [List.drop_append_of_le_length (by omega), List.append_assoc]

theorem nameOf_prefix_self (u : Text) : nameOf u <+: u :=
  (List.take_prefix _ _).trans (List.takeWhile_prefix _)

theorem not_mem_nameOf (u : Text) : '\n' ∉ nameOf u := fun hmem =>
  absurd (List.all_eq_true.mp List.all_takeWhile _ (List.mem_of_mem_take hmem)) (by decide)

/-- The name that is decoded is not changed, or it takes in the carriage return behind it. -/
theorem nameOf_respelled (h : Respelled s s') :
    nameOf s' = nameOf s ∨ ∃ t t', s = nameOf s ++ '\n' :: t ∧ s' = nameOf s ++ '\r' :: '\n' :: t' ∧
      Respelled t t' ∧ nameOf s' = nameOf s ++ ['\r'] := by
  obtain ⟨hs, hrun, hrest⟩ := Text.span_eq (p := fun c => !endsName c) (t := s) rfl
  have hname : nameOf s = (s.takeWhile fun c => !endsName c).take 32 := rfl
  generalize (s.takeWhile fun c => !endsName c) = run at *
  generalize (s.dropWhile fun c => !endsName c) = rest at *
  subst hs
  obtain ⟨rest', rfl, hrest'⟩ := h.of_append_left fun hmem => absurd (hrun _ hmem) (by decide)
  have hname' : nameOf (run ++ rest') = (run ++ rest'.takeWhile fun c => !endsName c).take 32 := by
    rw [nameOf, List.takeWhile_append_of_pos hrun]
  cases hrest' with
  | nil =>
    exact .inl rfl
  | cons c hrest' =>
    left
    rw [hname', hname, List.takeWhile_cons_of_neg (by simpa using hrest c rfl), List.append_nil]
  | @feed t t' ht =>
    have hreturn : (('\r' :: '\n' :: t').takeWhile fun c => !endsName c) = ['\r'] := rfl
    rw [hreturn] at hname'
    rcases Nat.lt_or_ge run.length 32 with hshort | hlong
    · rw [List.take_of_length_le (Nat.le_of_lt hshort)] at hname
      rw [List.take_of_length_le (by simp; omega)] at hname'
      rw [hname, hname']
      exact .inr ⟨t, t', rfl, rfl, ht, rfl⟩
    · left
      rw [hname', hname, List.take_append_of_le_length hlong]

/-- A name that ends with its line, or an ampersand that does, is decoded without the line feed. -/
theorem decode_at_feed {u t : Text} (hu : u = nameOf u ++ '\n' :: t) (hsharp : u.head? ≠ some '#') :
    decode ('&' :: u) = known (nameOf u) false ++ '\n' :: decode t := by
  by_cases hempty : nameOf u = []
  · have hlenient : lenient? [] = none := Option.eq_none_iff_forall_ne_some.mpr fun cs hcs =>
      absurd (letters_of_lenient? hcs).2 (by decide)
    rw [decode_bare hsharp hempty, hempty]
    rw [hempty, List.nil_append] at hu
    rw [hu, decode_cons (by decide)]
    simp [known, hlenient, longestLenient?]
  · have hcut : takeSemicolon (u.drop (nameOf u).length) = (false, '\n' :: t) := by
      have hdrop := congrArg (List.drop (nameOf u).length) hu
      rw [List.drop_left] at hdrop
      rw [hdrop]
      rfl
    rw [decode_known hsharp hempty, hcut, decode_cons (c := '\n') (by decide)]

/-- A number decodes alike, if what follows it does. -/
theorem decode_respelled_number {v v' : Text} (h : Respelled v v')
    (ih : ∀ {t t' : Text}, t.length < ('&' :: '#' :: v).length → Respelled t t' →
      Respelled (decode t) (decode t')) :
    Respelled (decode ('&' :: '#' :: v)) (decode ('&' :: '#' :: v')) := by
  rcases readNumber?_respelled h with ⟨hnone, hnone'⟩ | ⟨n, rest, rest', hread, hread', hrest⟩
  · rw [decode, readDecoded?, hnone, decode, readDecoded?, hnone']
    exact .cons '&' (ih (Nat.lt_succ_self _) (.cons '#' h))
  · have hlength : (takeSemicolon rest).2.length < ('&' :: '#' :: v).length := by
      obtain ⟨digits, rfl, -⟩ := readNumber?_eq_some.mp hread
      have := length_takeSemicolon_le rest
      simp only [List.length_cons, List.length_append]
      omega
    rw [decode_number hread, decode_number hread']
    exact (Respelled.refl _).append (ih hlength (takeSemicolon_respelled hrest).2)

/-- A name decodes alike, if what follows it does. -/
theorem decode_respelled_name {u u' : Text} (h : Respelled u u') (hsharp : u.head? ≠ some '#')
    (ih : ∀ {t t' : Text}, t.length < ('&' :: u).length → Respelled t t' →
      Respelled (decode t) (decode t')) :
    Respelled (decode ('&' :: u)) (decode ('&' :: u')) := by
  have hsharp' : u'.head? ≠ some '#' := by
    intro hhead
    rcases h.mem_head?.1 _ hhead with hhead | hhead | hhead
    · exact hsharp hhead
    · exact absurd hhead (by decide)
    · exact absurd hhead (by decide)
  rcases nameOf_respelled h with hsame | ⟨t, t', hu, hu', ht, hname⟩
  · by_cases hempty : nameOf u = []
    · rw [decode_bare hsharp hempty, decode_bare hsharp' (hsame ▸ hempty)]
      exact .cons '&' (ih (Nat.lt_succ_self _) h)
    · have hrest : Respelled (u.drop (nameOf u).length) (u'.drop (nameOf u).length) := by
        obtain ⟨rest, hu⟩ := nameOf_prefix_self u
        generalize hname : nameOf u = name at *
        subst hu
        obtain ⟨rest', rfl, hrest⟩ := h.of_append_left (hname ▸ not_mem_nameOf _)
        rwa [List.drop_left, List.drop_left]
      obtain ⟨hclosed, hafter⟩ := takeSemicolon_respelled hrest
      have hlength : (takeSemicolon (u.drop (nameOf u).length)).2.length < ('&' :: u).length := by
        have := length_takeSemicolon_le (u.drop (nameOf u).length)
        simp only [List.length_drop] at this
        simp only [List.length_cons]
        omega
      rw [decode_known hsharp hempty, decode_known hsharp' (hsame ▸ hempty), hsame, hclosed]
      exact (Respelled.refl _).append (ih hlength hafter)
  -- The carriage return is decoded as the last character of the name.
  · have hreturn : u'.drop (nameOf u').length = '\n' :: t' := by
      rw [hname, hu', ← List.singleton_append (l := '\n' :: t'), ← List.append_assoc, List.drop_left]
    have hcut : takeSemicolon ('\n' :: t') = (false, '\n' :: t') := rfl
    have hlength : t.length < ('&' :: u).length := by
      rw [hu]
      simp only [List.length_cons, List.length_append]
      omega
    rw [decode_known hsharp' (by simp [hname]), hreturn, hcut, hname, known_return,
      decode_cons (c := '\n') (by decide), decode_at_feed hu hsharp, List.append_assoc]
    exact (Respelled.refl _).append (.feed (ih hlength ht))

/-- What a text decodes to is respelled with it. -/
theorem decode_respelled (h : Respelled s s') : Respelled (decode s) (decode s') := by
  induction hn : s.length using Nat.strongRecOn generalizing s s' with
  | ind n ih =>
  subst hn
  have ih : ∀ {t t' : Text}, t.length < s.length → Respelled t t' → Respelled (decode t) (decode t') :=
    fun hlt ht => ih _ hlt ht rfl
  cases h with
  | nil => exact .refl _
  | feed h =>
    rw [decode_cons (by decide), decode_cons (by decide), decode_cons (by decide)]
    exact .feed (ih (Nat.lt_succ_self _) h)
  | @cons c u u' h =>
    by_cases hc : c = '&'
    · subst hc
      by_cases hsharp : u.head? = some '#'
      · obtain ⟨v, rfl⟩ := List.head?_eq_some_iff.mp hsharp
        obtain ⟨v', rfl, hv⟩ := h.of_append_left (s := ['#']) (by decide)
        exact decode_respelled_number hv ih
      · exact decode_respelled_name h hsharp ih
    · rw [decode_cons hc, decode_cons hc]
      exact .cons c (ih (Nat.lt_succ_self _) h)

end Reference

end Untranslated
