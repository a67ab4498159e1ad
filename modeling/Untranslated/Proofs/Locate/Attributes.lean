import Untranslated.Proofs.Locate.OpenTag
import Untranslated.Proofs.Markup.Tree
import Untranslated.Proofs.Text.Case

/-!
# Two readers of attributes

An opening tag is read twice: as markup (`Event.readTag`), for its names and decoded values, and in the
source (`OpenTag.scan`), for the places of its values. Both readers take the same steps as long as no
name begins with an equals sign and not more than one sign stands before a value (`Event.Regular`).

* Behind a name: the value in the source is the one that was read, and both readers go on at the same
  place (`placedAt_valuePlace`). The cases are a bare value, a closed quote and an unclosed one.
* One attribute: `Event.readAttribute?` is a step of the markup reader, `scanFrom_cons` one of the
  other.
* All attributes: `scanFrom_of_regular`, by induction along the regular attributes.
* `scan_agrees` is the result for a text that is one whole tag; `scan_disagrees` shows tags outside its
  conditions.
-/

namespace Untranslated

/-! ## Values -/

namespace Text

/-- Cutting at a character and searching for it are the same. -/
theorem cutAt?_eq_find? (c : Char) (s : Text) :
    cutAt? c s = (find? [c] s).map fun n => (s.take n, s.drop (n + 1)) := by
  induction s with
  | nil => rfl
  | cons d s ih =>
    by_cases hd : d = c
    · simp [cutAt?, find?, startsWith, hd]
    · simp only [cutAt?, if_neg hd, ih, find?]
      rw [if_neg (by simpa [startsWith] using fun h : c = d => hd h.symm)]
      cases find? [c] s <;> simp

theorem cutAt?_eq_none {c : Char} {s : Text} (h : c ∉ s) : cutAt? c s = none := by
  induction s with
  | nil => rfl
  | cons d s ih =>
    rw [List.mem_cons, not_or] at h
    rw [cutAt?, if_neg (Ne.symm h.1), ih h.2]
    rfl

end Text

namespace OpenTag

open Event (readValue? bareValue)

/-- Whether a text begins with a quote that is never closed. -/
def isUnclosed : Text → Bool
  | q :: rest => (q == '\x27' || q == '"') && !rest.contains q
  | [] => false

theorem exists_of_isUnclosed {s : Text} (h : isUnclosed s = true) :
    ∃ q rest, s = q :: rest ∧ (q = '\x27' ∨ q = '"') ∧ q ∉ rest := by
  cases s with
  | nil => cases h
  | cons q rest => exact ⟨q, rest, rfl, by simpa [isUnclosed] using h⟩

/-- How many equals signs stand before the value of an attribute, read from behind the attribute's name.
The last sign before a quote that is never closed begins the value. -/
def signCount (s : Text) : Nat :=
  let (signs, rest) := Text.span (· == '=') (s.dropWhile Text.isSpace)
  if isUnclosed rest then signs.length - 1 else signs.length

/-- The value and what follows it stand at the given places behind the name of an attribute. -/
def PlacedAt (s : Text) (place : Nat × Nat × Nat) (value rest : Text) : Prop :=
  Text.slice s place.1 place.2.1 = value ∧ s.drop place.2.2 = rest

/-- What follows the sign and the whitespace around it. -/
theorem drop_sign (u v body : Text) :
    (u ++ '=' :: (v ++ body)).drop (u.length + 1 + v.length) = body := by
  have hwhole : u ++ '=' :: (v ++ body) = (u ++ '=' :: v) ++ body := by simp
  rw [hwhole]
  exact List.drop_left' (by simp; omega)

section
variable {u v : Text} (hu : ∀ c ∈ u, Text.isSpace c = true) (hv : ∀ c ∈ v, Text.isSpace c = true)
include hu hv

/-- A value without quotes stands behind the sign and the whitespace. -/
theorem placedAt_bare {body : Text}
    (hbody : ∀ c ∈ body.head?, Text.isSpace c = false ∧ c ≠ '\x27' ∧ c ≠ '"') :
    PlacedAt (u ++ '=' :: (v ++ body)) (valuePlace (u ++ '=' :: (v ++ body))) (bareValue body).1
      (bareValue body).2 := by
  have hdrop : (u ++ '=' :: (v ++ body)).drop (u.length + 1 + v.length) =
      (bareValue body).1 ++ (bareValue body).2 := by
    rw [drop_sign]
    exact List.takeWhile_append_dropWhile.symm
  have hvalue : body.takeWhile (fun c => !Text.isSpace c && c != '>') = (bareValue body).1 := by
    simp only [bareValue, Text.span, Bool.and_comm]
  rw [valuePlace_bare hu hv hbody, hvalue]
  exact ⟨Text.slice_of_drop hdrop, Text.drop_of_drop hdrop⟩

end

/-- The value in quotes stands inside them. A quote that is never closed leaves no value, or an empty
one before the last whitespace. -/
theorem placedAt_quoted {u v : Text} (hu : ∀ c ∈ u, Text.isSpace c = true)
    (hv : ∀ c ∈ v, Text.isSpace c = true) {q : Char} (hq : q = '\x27' ∨ q = '"') (rest : Text) :
    let s := u ++ '=' :: (v ++ q :: rest)
    let read := ((Text.cutAt? q rest).or (v.getLast?.map fun c => ([], c :: q :: rest))).getD ([], s)
    PlacedAt s (valuePlace s) read.1 read.2 := by
  intro s read
  have hdrop := drop_sign u v (q :: rest)
  have hplace := valuePlace_quote hu hv hq rest
  simp only [read, Text.cutAt?_eq_find?]
  cases hfind : Text.find? [q] rest with
  | some n =>
    rw [hfind] at hplace
    simp only [s, hplace]
    have hlength := Text.find?_le hfind
    have hinside : s.drop (u.length + 1 + v.length + 1) = rest.take n ++ rest.drop n := by
      rw [List.take_append_drop, ← List.drop_drop, hdrop]
      rfl
    have htake : (rest.take n).length = n := by
      rw [List.length_take]
      simp only [List.length_cons, List.length_nil] at hlength
      omega
    refine ⟨?_, ?_⟩
    · have hslice := Text.slice_of_drop hinside
      rwa [htake] at hslice
    · have hrest := Text.drop_of_drop hinside
      rw [htake] at hrest
      change s.drop (u.length + 1 + v.length + 2 + n) = rest.drop (n + 1)
      rw [show u.length + 1 + v.length + 2 + n = u.length + 1 + v.length + 1 + n + 1 by omega,
        ← List.drop_drop, hrest, List.drop_drop]
  | none =>
    rw [hfind] at hplace
    simp only [s, hplace]
    rcases List.eq_nil_or_concat v with rfl | ⟨v', c, rfl⟩
    · simp [PlacedAt, Text.slice]
    · have hlast := drop_sign u v' (c :: q :: rest)
      simpa [PlacedAt, Text.slice] using hlast

theorem readValue?_quoted {s v : Text} {q : Char} (hq : q = '\x27' ∨ q = '"') {rest : Text}
    (hsigns : Text.span (· == '=') (s.dropWhile Text.isSpace) = (['='], v ++ q :: rest))
    (hv : ∀ c ∈ v, Text.isSpace c = true) :
    readValue? s = (Text.cutAt? q rest).or (v.getLast?.map fun c => ([], c :: q :: rest)) := by
  simp only [readValue?, hsigns, span_quote hv hq]
  cases hcut : Text.cutAt? q rest with
  | some found => rcases hq with rfl | rfl <;> simp [hcut]
  | none => rcases hq with rfl | rfl <;> cases v.getLast? <;> simp [hcut]

theorem readValue?_bare {s v body : Text}
    (hsigns : Text.span (· == '=') (s.dropWhile Text.isSpace) = (['='], v ++ body))
    (hv : ∀ c ∈ v, Text.isSpace c = true)
    (hbody : ∀ c ∈ body.head?, Text.isSpace c = false ∧ c ≠ '\x27' ∧ c ≠ '"') :
    readValue? s = some (bareValue body) := by
  have hblank : Text.span Text.isSpace (v ++ body) = (v, body) :=
    Text.span_append hv fun c hc => (hbody c hc).1
  simp only [readValue?, hsigns, hblank, List.isEmpty_cons, Bool.false_eq_true, if_false]
  split
  · exact absurd rfl (hbody _ rfl).2.1
  · exact absurd rfl (hbody _ rfl).2.2
  · rfl

/-- Of two signs before a quote that is never closed, the second one begins the value. -/
theorem readValue?_unclosed {s : Text} {q : Char} (hq : q = '\x27' ∨ q = '"') {rest : Text}
    (hsigns : Text.span (· == '=') (s.dropWhile Text.isSpace) = (['=', '='], q :: rest))
    (hrest : q ∉ rest) : readValue? s = some (bareValue ('=' :: q :: rest)) := by
  have hblank : Text.span Text.isSpace (q :: rest) = ([], q :: rest) :=
    span_quote (v := []) (by simp) hq rest
  have hcut : Text.cutAt? q rest = none := Text.cutAt?_eq_none hrest
  simp only [readValue?, hsigns, hblank]
  rcases hq with rfl | rfl <;> simp [hcut]

/-- Behind a name with at most one sign, both readers find the same value and go on at the same place. -/
theorem placedAt_valuePlace {s : Text} (h : signCount s ≤ 1) :
    PlacedAt s (valuePlace s) ((readValue? s).getD ([], s)).1 ((readValue? s).getD ([], s)).2 := by
  rcases hbefore : Text.span Text.isSpace s with ⟨u, tail⟩
  rcases hsigns : Text.span (· == '=') tail with ⟨signs, tail'⟩
  rcases hblank : Text.span Text.isSpace tail' with ⟨v, body⟩
  obtain ⟨hs, hu, htail⟩ := Text.span_eq hbefore
  obtain ⟨rfl, hsign, htail'⟩ := Text.span_eq hsigns
  obtain ⟨rfl, hv, hbody⟩ := Text.span_eq hblank
  have hdrop : s.dropWhile Text.isSpace = signs ++ (v ++ body) := (Prod.mk.inj hbefore).2
  obtain ⟨n, rfl⟩ : ∃ n, signs = List.replicate n '=' :=
    ⟨signs.length, List.eq_replicate_of_mem fun c hc => by simpa using hsign c hc⟩
  rw [← hdrop] at hsigns
  simp only [signCount, hsigns, List.length_replicate] at h
  match n with
  | 0 =>
    have hnone : readValue? s = none := by simp [readValue?, hsigns]
    have hplace : valuePlace s = (0, 0, 0) := by
      rw [hs]
      exact valuePlace_signless hu htail fun c hc => by simpa using htail' c hc
    rw [hnone, hplace]
    simp [PlacedAt, Text.slice]
  | 1 =>
    by_cases hq : ∃ q rest, body = q :: rest ∧ (q = '\x27' ∨ q = '"')
    · obtain ⟨q, rest, rfl, hq⟩ := hq
      rw [readValue?_quoted hq hsigns hv, hs]
      exact placedAt_quoted hu hv hq rest
    · have hplain : ∀ c ∈ body.head?, Text.isSpace c = false ∧ c ≠ '\x27' ∧ c ≠ '"' := by
        intro c hc
        refine ⟨hbody c hc, ?_⟩
        rw [← not_or]
        intro hcq
        obtain ⟨rest, rfl⟩ := List.head?_eq_some_iff.mp hc
        exact hq ⟨c, rest, rfl, hcq⟩
      rw [readValue?_bare hsigns hv hplain, hs]
      exact placedAt_bare hu hv hplain
  | n + 2 =>
    have hunclosed : isUnclosed (v ++ body) = true ∧ n = 0 := by
      split at h
      · exact ⟨‹_›, by omega⟩
      · omega
    obtain ⟨hunclosed, rfl⟩ := hunclosed
    obtain ⟨q, rest, hbody', hq, hrest⟩ := exists_of_isUnclosed hunclosed
    rw [hbody'] at hsigns
    rw [readValue?_unclosed hq hsigns hrest, hs, hbody']
    exact placedAt_bare (v := []) hu (by simp) (by rintro c ⟨⟩; decide)

end OpenTag

/-! ## Attributes -/

namespace Event

/-- One attribute as it is read: its name and value as written, what follows its name, what is left
behind it and behind the gap, and the character before that. -/
structure AttributeReading where
  name : Text
  tail : Text
  value : Text
  last : Char
  rest : Text
  deriving DecidableEq, Repr

/-- The attribute that a text begins with. -/
def readAttribute? (prev : Char) (s : Text) : Option AttributeReading :=
  match s with
  | [] => none
  | c :: rest =>
    if precedesAttribute prev && !Text.isSpace c && c != '/' && c != '>' then
      let name := Text.span (fun d => !Text.isSpace d && d != '/' && d != '=' && d != '>') rest
      let value := (readValue? name.2).getD ([], name.2)
      let last := ((c :: rest).take (rest.length + 1 - value.2.length)).getLast?.getD c
      let gap := skipGap last value.2
      some ⟨c :: name.1, name.2, value.1, gap.1, gap.2⟩
    else none

theorem readAttributes_of_none {prev : Char} {s : Text} (h : readAttribute? prev s = none) :
    readAttributes prev s = ([], s) := by
  cases s with
  | nil => rw [readAttributes]
  | cons c rest =>
    rw [readAttribute?] at h
    split at h
    · cases h
    · rw [readAttributes, if_neg ‹_›]

theorem readAttributes_of_some {prev : Char} {s : Text} {r : AttributeReading}
    (h : readAttribute? prev s = some r) (hrest : r.rest.length < s.length) :
    readAttributes prev s = ((Text.lower r.name, r.value) :: (readAttributes r.last r.rest).1,
      (readAttributes r.last r.rest).2) := by
  cases s with
  | nil => cases h
  | cons c rest =>
    rw [readAttribute?] at h
    split at h
    · rw [readAttributes, if_pos ‹_›]
      have hr := (Option.some.inj h).symm
      subst hr
      exact if_pos hrest
    · cases h

/-- What an attribute that was read is made of. -/
theorem readAttribute?_eq_some {prev : Char} {s : Text} {r : AttributeReading}
    (h : readAttribute? prev s = some r) :
    s = r.name ++ r.tail ∧ (∃ c more, r.name = c :: more ∧
      (Text.isSpace c = false ∧ c ≠ '/' ∧ c ≠ '>') ∧
      ∀ d ∈ more, OpenTag.isNameChar d = true) ∧
      (∀ d ∈ r.tail.head?, OpenTag.isNameChar d = false) ∧
      ∃ last behind, (readValue? r.tail).getD ([], r.tail) = (r.value, behind) ∧
        skipGap last behind = (r.last, r.rest) := by
  cases s with
  | nil => cases h
  | cons c rest =>
    rw [readAttribute?] at h
    split at h
    · rename_i hc
      have hr := (Option.some.inj h).symm
      subst hr
      obtain ⟨hrest, hmore, htail⟩ := Text.span_eq (t := rest)
        (p := fun d => !Text.isSpace d && d != '/' && d != '=' && d != '>') rfl
      have hchar : ∀ d, OpenTag.isNameChar d =
          (!Text.isSpace d && d != '/' && d != '=' && d != '>') := fun d =>
        Bool.and_right_comm _ _ _
      refine ⟨congrArg (c :: ·) hrest, ⟨c, _, rfl, ?_, ?_⟩, ?_, _, _, rfl, rfl⟩
      · simp only [Bool.and_eq_true, Bool.not_eq_true', bne_iff_ne] at hc
        exact ⟨hc.1.1.2, hc.1.2, hc.2⟩
      · exact fun d hd => (hchar d).trans (hmore d hd)
      · exact fun d hd => (hchar d).trans (htail d hd)
    · cases h

/-- The attributes that are read from a text on are regular: no name begins with an equals sign, and
not more than one sign stands before a value. -/
inductive Regular : Char → Text → Prop where
  | stop {prev : Char} {s : Text} (h : readAttribute? prev s = none) : Regular prev s
  | step {prev : Char} {s : Text} {r : AttributeReading} (h : readAttribute? prev s = some r)
    (hname : r.name.head? ≠ some '=') (hsigns : OpenTag.signCount r.tail ≤ 1)
    (hrest : Regular r.last r.rest) : Regular prev s

theorem skipGap_eq_drop (prev : Char) (s : Text) :
    (skipGap prev s).2 = s.drop (OpenTag.gapLength s) := by
  induction s generalizing prev with
  | nil => rfl
  | cons c rest ih =>
    rw [skipGap, OpenTag.gapLength]
    split_ifs with hspace hslash
    · rw [ih, Nat.add_comm, List.drop_succ_cons]
    · rw [ih, Nat.add_comm, List.drop_succ_cons]
    · rfl

end Event

/-! ## Whole tags -/

namespace OpenTag

open Event (Regular readAttribute? readAttributes readValue? skipGap)

/-- A tag that ends is read up to its end. -/
theorem scanFrom_close {s close : Text} (pos : Nat) (hs : s.drop (gapLength s) = close)
    (hclose : close = ['>'] ∨ close = ['/', '>']) : scanFrom pos s = ([], pos + s.length) := by
  have hlength : (s.drop (gapLength s)).length = close.length := congrArg List.length hs
  rw [List.length_drop] at hlength
  rw [scanFrom]
  split
  · rfl
  · rename_i c rest hcons
    rw [hcons] at hs
    rcases hclose with rfl | rfl
    · cases hs
      rw [if_pos rfl]
      simp only [List.length_cons, List.length_nil] at hlength
      rw [show s.length = gapLength s + 1 by omega, Nat.add_assoc]
    · cases hs
      rw [if_neg (by decide), if_pos (by simp)]
      simp only [List.length_cons, List.length_nil] at hlength
      rw [show s.length = gapLength s + 2 by omega, Nat.add_assoc]

/-- An attribute with a name is read, and reading goes on behind its value. -/
theorem scanFrom_cons {s name tail : Text} (pos : Nat) (hs : s.drop (gapLength s) = name ++ tail)
    (hne : name ≠ []) (hname : ∀ c ∈ name, isNameChar c = true)
    (htail : ∀ c ∈ tail.head?, isNameChar c = false) :
    scanFrom pos s =
      let nameEnd := pos + gapLength s + name.length
      let place := valuePlace tail
      let others := scanFrom (nameEnd + place.2.2) (tail.drop place.2.2)
      (⟨name, ⟨nameEnd + place.1, nameEnd + place.2.1⟩⟩ :: others.1, others.2) := by
  rw [scanFrom]
  split
  · rename_i hnil
    rw [hnil] at hs
    simp_all
  · rename_i c rest hcons
    have htake : (c :: rest).takeWhile isNameChar = name := by
      rw [← hcons, hs]
      exact (Prod.mk.inj (Text.span_append hname htail)).1
    have hc : isNameChar c = true := by
      obtain ⟨d, name, rfl⟩ := List.exists_cons_of_ne_nil hne
      rw [hs] at hcons
      rw [← (List.cons.inj hcons).1]
      exact hname d List.mem_cons_self
    have hdrop : (c :: rest).drop name.length = tail := by
      rw [← hcons, hs, List.drop_left]
    simp only [isNameChar, Bool.and_eq_true, bne_iff_ne] at hc
    rw [if_neg hc.1.2, if_neg fun h => hc.1.1.2 h.1]
    simp only [htake, List.isEmpty_iff, hne, if_false, hdrop, ← List.drop_drop]

/-- What was read as markup stands at the place that was found in the source. -/
def Shows (t : Text) (p : Text × Text) (a : WrittenAttribute) : Prop :=
  Text.lower a.name = p.1 ∧ Text.slice t a.value.start a.value.stop = p.2

/-- Both readers go through the attributes in step: they read the same names and values, and end at the
same place. -/
theorem scanFrom_of_regular {prev : Char} {s' t : Text} (h : Regular prev s') (s : Text) (pos : Nat)
    (hpos : t.drop pos = s) (hs : s.drop (gapLength s) = s')
    (hclose : (readAttributes prev s').2 = ['>'] ∨ (readAttributes prev s').2 = ['/', '>']) :
    (scanFrom pos s).2 = pos + s.length ∧
      List.Forall₂ (Shows t) (readAttributes prev s').1 (scanFrom pos s).1 := by
  induction h generalizing pos s with
  | stop hnone =>
    rw [Event.readAttributes_of_none hnone] at hclose ⊢
    rw [scanFrom_close pos hs hclose]
    exact ⟨rfl, .nil⟩
  | @step prev s' r hsome hname hsigns _ ih =>
    obtain ⟨rfl, ⟨c, more, hcons, hc, hmore⟩, htail, last, behind, hvalue, hgap⟩ :=
      Event.readAttribute?_eq_some hsome
    have hchars : ∀ d ∈ r.name, isNameChar d = true := by
      rw [hcons] at hname ⊢
      refine List.forall_mem_cons.mpr ⟨?_, hmore⟩
      have hsign : c ≠ '=' := fun hc => hname (by simp [hc])
      simp [isNameChar, hc, hsign]
    have hplaced : PlacedAt r.tail (valuePlace r.tail) r.value behind := by
      simpa only [hvalue] using placedAt_valuePlace hsigns
    obtain ⟨hslice, hbehind⟩ := hplaced
    have hbounds := valuePlace_bounds r.tail
    have hlength : r.tail.length = (valuePlace r.tail).2.2 + behind.length := by
      rw [← hbehind, List.length_drop]
      omega
    have hnext : r.rest.length < (r.name ++ r.tail).length := by
      have hgapLength := Event.length_skipGap_le last behind
      rw [hgap] at hgapLength
      rw [List.length_append, hcons, List.length_cons]
      simp only at hgapLength
      omega
    have hdrop : t.drop (pos + gapLength s + r.name.length) = r.tail := by
      rw [← List.drop_drop, ← List.drop_drop, hpos, hs, List.drop_left]
    rw [Event.readAttributes_of_some hsome hnext] at hclose ⊢
    obtain ⟨hstop, hothers⟩ := ih behind (pos + gapLength s + r.name.length + (valuePlace r.tail).2.2)
      (by rw [← List.drop_drop, hdrop, hbehind]) (by rw [← Event.skipGap_eq_drop last, hgap]) hclose
    rw [scanFrom_cons pos hs (by simp [hcons]) hchars htail]
    simp only [hbehind]
    refine ⟨?_, .cons ⟨rfl, ?_⟩ hothers⟩
    · have hwhole := congrArg List.length hs
      simp only [List.length_drop, List.length_append] at hwhole
      have hpositive : 0 < r.name.length := by simp [hcons]
      omega
    · change Text.slice t _ _ = r.value
      rw [← hslice]
      simp only [Text.slice]
      rw [← hdrop, List.drop_drop, Nat.add_sub_add_left]

end OpenTag

namespace Event

deriving instance DecidableEq for Step

/-- The step reads a start tag with the given name and attributes, and leaves nothing. -/
def Step.IsTag (name : Text) (pairs : List (Text × Text)) (s : Step) : Prop :=
  ∃ verbatim, s = .next [.startTag name pairs] verbatim [] ∨
    s = .next [.selfClosed name pairs] verbatim []

/-- The name of the tag that a text begins with, as written, and what follows it. -/
def writtenName (t : Text) : Text × Text := Text.span (fun c => !endsTagName c) (t.drop 1)

/-- The attributes of the tag that a text begins with are regular. -/
def IsRegularTag (t : Text) : Prop :=
  let gap := skipGap ((writtenName t).1.getLast?.getD '<') (writtenName t).2
  Regular gap.1 gap.2

theorem not_isTag_unfinished (name : Text) (pairs : List (Text × Text)) (final : Bool)
    (verbatim : Option Text) (s : Text) : ¬(unfinished final verbatim s).IsTag name pairs := by
  unfold unfinished Step.IsTag
  split <;> simp

theorem not_isTag_stepEndTag (name : Text) (pairs : List (Text × Text)) (final : Bool)
    (verbatim : Option Text) (s : Text) : ¬(stepEndTag final verbatim s).IsTag name pairs := by
  fun_cases stepEndTag final verbatim s
  case case1 => exact not_isTag_unfinished _ _ _ _ _
  all_goals simp [Step.IsTag]

theorem not_isTag_stepReference (name : Text) (pairs : List (Text × Text)) (final : Bool) (s : Text) :
    ¬(stepReference final s).IsTag name pairs := by
  fun_cases stepReference final s <;> simp [Step.IsTag]

theorem readTag_of_isTag {name : Text} {pairs : List (Text × Text)} {final : Bool}
    {verbatim : Option Text} {s : Text} (h : (stepMarkup final verbatim s).IsTag name pairs) :
    ∃ rest selfClosed, s = '<' :: rest ∧ readTag rest = .tag name pairs selfClosed [] := by
  revert h
  fun_cases stepMarkup final verbatim s
  case case1 => exact fun h => absurd h (not_isTag_stepEndTag _ _ _ _ _)
  case case3 | case6 | case11 => exact fun h => absurd h (not_isTag_unfinished _ _ _ _ _)
  case case7 c rest _ _ _ _ name' attributes behind hread =>
    intro h
    simp only [Step.IsTag, Step.next.injEq, List.cons.injEq, reduceCtorEq, false_and, false_or,
      selfClosed.injEq, and_true] at h
    obtain ⟨_, ⟨rfl, rfl⟩, -, rfl⟩ := h
    exact ⟨_, true, rfl, hread⟩
  case case8 c rest _ _ _ _ name' attributes behind hread _ =>
    intro h
    simp only [Step.IsTag, Step.next.injEq, List.cons.injEq, reduceCtorEq, false_and, or_false,
      startTag.injEq, and_true] at h
    obtain ⟨_, ⟨rfl, rfl⟩, -, rfl⟩ := h
    exact ⟨_, false, rfl, hread⟩
  all_goals simp [Step.IsTag]

theorem readTag_of_step {name : Text} {pairs : List (Text × Text)} {final : Bool} {t : Text}
    (h : (step final none t).IsTag name pairs) :
    ∃ s selfClosed, t = '<' :: s ∧ readTag s = .tag name pairs selfClosed [] := by
  unfold step at h
  simp only at h
  split at h
  · exact readTag_of_isTag h
  · exact absurd h (not_isTag_stepReference _ _ _ _)
  · unfold textEvents Step.IsTag at h
    split at h <;> simp at h

theorem decoded_eq_tag {attributes pairs : List (Text × Text)}
    {reading : List (Text × Text) → TagReading} {name rest : Text} {selfClosed : Bool}
    (h : readTag.decoded attributes reading = .tag name pairs selfClosed rest) :
    reading (attributes.map fun p => (p.1, Reference.decode p.2)) = .tag name pairs selfClosed rest := by
  unfold readTag.decoded at h
  split at h
  · cases h
  · exact h

/-- A tag that is read ends behind its attributes, whose values are decoded. -/
theorem readTag_eq_tag {s name : Text} {pairs : List (Text × Text)} {selfClosed : Bool}
    (h : readTag s = .tag name pairs selfClosed []) :
    let written := Text.span (fun c => !endsTagName c) s
    let gap := skipGap (written.1.getLast?.getD '<') written.2
    let read := readAttributes gap.1 gap.2
    (read.2 = ['>'] ∨ read.2 = ['/', '>']) ∧ pairs = read.1.map fun p => (p.1, Reference.decode p.2) := by
  intro written gap read
  simp only [readTag] at h
  split at h
  · cases h
  · rename_i rest hrest
    have htag := decoded_eq_tag h
    cases htag
    exact ⟨.inl hrest, rfl⟩
  · rename_i rest hrest
    have htag := decoded_eq_tag h
    cases htag
    exact ⟨.inr hrest, rfl⟩
  · split at h
    · cases h
    · have htag := decoded_eq_tag h
      cases htag

end Event

namespace OpenTag

theorem find?_of_forall₂ {α β : Type} {r : α → β → Prop} {p : α → Bool} {q : β → Bool} {xs : List α}
    {ys : List β} (h : List.Forall₂ r xs ys) (hpq : ∀ x y, r x y → p x = q y) {x : α}
    (hx : xs.find? p = some x) : ∃ y, ys.find? q = some y ∧ r x y := by
  induction h with
  | nil => cases hx
  | @cons x' y' xs ys hxy _ ih =>
    rw [List.find?_cons] at hx ⊢
    rw [← hpq x' y' hxy]
    cases hp : p x' with
    | true =>
      rw [hp] at hx
      cases hx
      exact ⟨y', rfl, hxy⟩
    | false =>
      rw [hp] at hx
      exact ih hx

/-- The last attribute of a name is the same for both readers. -/
theorem attribute?_of_mem {t : Text} {pairs : List (Text × Text)} {tag : OpenTag}
    (h : List.Forall₂ (fun p a => Text.lower a.name = p.1 ∧
      Reference.decode (Text.slice t a.value.start a.value.stop) = p.2) pairs tag.attributes)
    {n v : Text} (hmem : (n, v) ∈ Document.mergeAttributes pairs) :
    ∃ a, tag.attribute? n = some a ∧ Reference.decode (Text.slice t a.value.start a.value.stop) = v := by
  obtain ⟨a, ha, hname, hvalue⟩ := find?_of_forall₂ (List.forall₂_reverse_iff.mpr h)
    (q := fun a => Text.lower a.name == n) (fun p a hpa => by rw [hpa.1])
    (Document.find?_of_mem_mergeAttributes hmem)
  -- The name was put in lower case when it was read, so it is in lower case.
  have hlower : Text.lower n = n := by
    rw [← show Text.lower a.name = n from hname, Text.lower_lower]
  exact ⟨a, by rw [attribute?, hlower]; exact ha, hvalue⟩

/-- **The two readers of attributes agree.** Let a text be one whole start tag, with a name as long as
it is written and with regular attributes. Then the source is read up to the end of the text, and for
every attribute of the element its place is found, and what stands there decodes to its value. -/
theorem scan_agrees {t name : Text} {pairs : List (Text × Text)}
    (htag : (Event.step false none t).IsTag name pairs)
    (hname : (Event.writtenName t).1.length = name.length) (hregular : Event.IsRegularTag t) :
    (scan t 0 (1 + name.length)).stop = t.length ∧
      ∀ n v, (n, v) ∈ Document.mergeAttributes pairs →
        ∃ a, (scan t 0 (1 + name.length)).attribute? n = some a ∧
          Reference.decode (Text.slice t a.value.start a.value.stop) = v := by
  obtain ⟨s, selfClosed, rfl, hread⟩ := Event.readTag_of_step htag
  obtain ⟨hclose, hpairs⟩ := Event.readTag_eq_tag hread
  unfold Event.IsRegularTag at hregular
  -- What follows the name, where the source is read from.
  obtain ⟨written, rest, hspan⟩ : ∃ u v, Text.span (fun c => !Event.endsTagName c) s = (u, v) :=
    ⟨_, _, rfl⟩
  obtain ⟨rfl, -, -⟩ := Text.span_eq hspan
  have hwritten : Event.writtenName ('<' :: (written ++ rest)) = (written, rest) := hspan
  rw [hwritten] at hname hregular
  simp only [hspan] at hname hregular hclose hpairs
  have hne : rest ≠ [] := by
    rintro rfl
    simp [Event.skipGap, Event.readAttributes] at hclose
  have hdrop : ('<' :: (written ++ rest)).drop (1 + name.length) = rest := by
    rw [← hname, Nat.add_comm, List.drop_succ_cons, List.drop_left]
  have hlength : ('<' :: (written ++ rest)).length = 1 + name.length + rest.length := by
    rw [List.length_cons, List.length_append]
    omega
  obtain ⟨hstop, hshows⟩ := scanFrom_of_regular hregular rest (1 + name.length) hdrop
    (Event.skipGap_eq_drop _ _).symm hclose
  have hscan : scan ('<' :: (written ++ rest)) 0 (1 + name.length) =
      ⟨0, (scanFrom (1 + name.length) rest).2, (scanFrom (1 + name.length) rest).1⟩ := by
    have hlt : 1 + name.length < ('<' :: (written ++ rest)).length := by
      have := List.length_pos_iff.mpr hne
      omega
    rw [scan, if_pos hlt, hdrop]
  rw [hscan]
  refine ⟨hstop.trans hlength.symm, fun n v hmem => attribute?_of_mem ?_ hmem⟩
  rw [hpairs, List.forall₂_map_left_iff]
  exact hshows.imp fun p a h => ⟨h.1, congrArg Reference.decode h.2⟩

/-- Of an attribute that is written twice, in either letter case, the last value is found. -/
theorem scan_agrees_repeated :
    ∃ a, (scan "<p title='a&lt;b' Title=\"x>&amp;y\">".toList 0 2).attribute? "title".toList = some a ∧
      Reference.decode (Text.slice "<p title='a&lt;b' Title=\"x>&amp;y\">".toList a.value.start
        a.value.stop) = "x>&y".toList := by
  have htag : (Event.step false none "<p title='a&lt;b' Title=\"x>&amp;y\">".toList).IsTag "p".toList
      [("title".toList, "a<b".toList), ("title".toList, "x>&y".toList)] :=
    ⟨none, .inl (by decide +kernel)⟩
  have hregular : Event.IsRegularTag "<p title='a&lt;b' Title=\"x>&amp;y\">".toList :=
    .step rfl (by decide) (by decide) (.step rfl (by decide) (by decide) (.stop rfl))
  exact (scan_agrees htag (by decide) hregular).2 _ _ (by decide)

/-- Outside the conditions the readers differ. A second equals sign becomes a part of the value in the
source; a quote behind it does not count, so that the tag ends inside the value; and a name that begins
with a sign is not found. A name that is longer in lower case hides what follows it. -/
theorem scan_disagrees :
    ((Event.step false none "<p title==x>".toList).IsTag "p".toList [("title".toList, "x".toList)] ∧
      (scan "<p title==x>".toList 0 2).attribute? "title".toList = some ⟨"title".toList, ⟨9, 11⟩⟩ ∧
      Reference.decode (Text.slice "<p title==x>".toList 9 11) = "=x".toList) ∧
    ((Event.step false none "<p title==\">x\">".toList).IsTag "p".toList
        [("title".toList, ">x".toList)] ∧
      (scan "<p title==\">x\">".toList 0 2).stop ≠ "<p title==\">x\">".toList.length) ∧
    ((Event.step false none "<p =b=c>".toList).IsTag "p".toList [("=b".toList, "c".toList)] ∧
      (scan "<p =b=c>".toList 0 2).attribute? "=b".toList = none) ∧
    (Event.step false none "<p\u0130\u0130 t=x>".toList).IsTag "pi\u0307i\u0307".toList
        [("t".toList, "x".toList)] ∧
      (scan "<p\u0130\u0130 t=x>".toList 0 6).attribute? "t".toList = none := by
  refine ⟨⟨⟨none, .inl ?_⟩, ?_, ?_⟩, ⟨⟨none, .inl ?_⟩, ?_⟩, ⟨⟨none, .inl ?_⟩, ?_⟩,
    ⟨none, .inl ?_⟩, ?_⟩ <;> decide +kernel

end OpenTag

end Untranslated
