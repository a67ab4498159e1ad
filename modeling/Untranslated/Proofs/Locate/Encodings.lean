import Untranslated.Proofs.Locate.ValuePattern
import Untranslated.Proofs.Reference.Grammar

/-!
# The ways to write a value

`ValuePattern.Encodes` says character by character how a value may be written in markup: letters and digits
as they are, any other visible character as it is or as a reference, a run of whitespace as any run of
whitespace and references, and a semicolon where a name behind an ampersand ends in the value. It looks at
the value alone, not at a pattern.

The pattern of a value matches exactly these texts (`matchesWhole_encodes`). The proof goes through the texts
that the pieces of a pattern spell (`Spells`). Trying all ways to read a piece, and backing up, finds a
reading just if there is one (`matchesWhole_iff_spells`); and what the pieces spell is read off the value
run by run, where the relation goes character by character (`spells_ofValue_iff`).
-/

namespace Untranslated

open WrittenReference (IsReference)

namespace Text

/-- A text with a single blank for each of its runs of whitespace. -/
def collapse : Text → Text
  | [] => []
  | c :: rest =>
    if isSpace c then
      if rest.head?.any isSpace then collapse rest else ' ' :: collapse rest
    else c :: collapse rest

theorem collapse_run {run rest : Text} (hne : run ≠ []) (hrun : ∀ c ∈ run, isSpace c = true)
    (hrest : ∀ c ∈ rest.head?, isSpace c = false) : collapse (run ++ rest) = ' ' :: collapse rest := by
  induction run with
  | nil => exact absurd rfl hne
  | cons c run ih =>
    obtain ⟨hc, hrun⟩ := List.forall_mem_cons.mp hrun
    rw [List.cons_append, collapse, if_pos hc]
    cases run with
    | nil =>
      have hlast : ¬ rest.head?.any isSpace = true := by
        rw [Option.any_eq_true]
        rintro ⟨d, hd, hspace⟩
        rw [hrest d hd] at hspace
        cases hspace
      rw [List.nil_append, if_neg hlast]
    | cons d run =>
      rw [if_pos (by simpa using hrun d List.mem_cons_self)]
      exact ih (List.cons_ne_nil _ _) hrun

end Text

/-! ## Pieces -/

namespace Piece

/-- A whitespace character or a reference. -/
def IsSpaceUnit (u : Text) : Prop := (∃ c, u = [c] ∧ Text.isSpace c = true) ∨ IsReference u

/-- A sequence of whitespace characters and references that is not empty. -/
def IsSpaceRun (t : Text) : Prop :=
  ∃ units : List Text, units ≠ [] ∧ (∀ u ∈ units, IsSpaceUnit u) ∧ t = units.flatten

/-- The text is a way to write the piece. -/
def Spells : Piece → Text → Prop
  | .plain c, t => t = [c]
  | .encodable c, t => t = [c] ∨ IsReference t
  | .space, t => IsSpaceRun t
  | .semicolon, t => t = [] ∨ t = [';']

variable {s r t : Text}

theorem IsSpaceUnit.ne_nil (h : IsSpaceUnit t) : t ≠ [] := by
  obtain ⟨c, rfl, -⟩ | h := h
  · exact List.cons_ne_nil _ _
  · exact List.ne_nil_of_mem h.mem

theorem IsSpaceRun.ne_nil (h : IsSpaceRun t) : t ≠ [] := by
  obtain ⟨units, hne, hunits, rfl⟩ := h
  obtain ⟨u, units, rfl⟩ := List.exists_cons_of_ne_nil hne
  simp [(hunits u List.mem_cons_self).ne_nil]

/-- Whitespace is a run. -/
theorem isSpaceRun_of_isSpace (hne : t ≠ []) (h : ∀ c ∈ t, Text.isSpace c = true) : IsSpaceRun t := by
  refine ⟨t.map fun c => [c], by simpa using hne, ?_, ?_⟩
  · intro u hu
    obtain ⟨c, hc, rfl⟩ := List.mem_map.mp hu
    exact .inl ⟨c, rfl, h c hc⟩
  · rw [← List.flatMap_def]
    simp

/-- A run without references is whitespace. -/
theorem IsSpaceRun.isSpace (h : IsSpaceRun t) (hamp : '&' ∉ t) : ∀ c ∈ t, Text.isSpace c = true := by
  obtain ⟨units, -, hunits, rfl⟩ := h
  intro c hc
  obtain ⟨u, hu, hcu⟩ := List.mem_flatten.mp hc
  obtain ⟨d, rfl, hd⟩ | hreference := hunits u hu
  · rw [List.mem_singleton.mp hcu]
    exact hd
  · exact absurd (List.mem_flatten.mpr ⟨u, hu, hreference.mem⟩) hamp

theorem mem_afterSpaceUnit_iff : r ∈ afterSpaceUnit s ↔ ∃ u, s = u ++ r ∧ IsSpaceUnit u := by
  unfold afterSpaceUnit
  split
  · simp only [List.not_mem_nil, false_iff]
    rintro ⟨u, hu, hunit⟩
    exact hunit.ne_nil (List.append_eq_nil_iff.mp hu.symm).1
  · rename_i c rest
    rw [List.mem_append, WrittenReference.mem_rests_iff]
    constructor
    · rintro (h | ⟨u, hu, hreference⟩)
      · split at h
        · rename_i hc
          rw [List.mem_singleton.mp h]
          exact ⟨[c], rfl, .inl ⟨c, rfl, hc⟩⟩
        · cases h
      · exact ⟨u, hu, .inr hreference⟩
    · rintro ⟨u, hu, ⟨d, rfl, hd⟩ | hreference⟩
      · obtain ⟨rfl, rfl⟩ := List.cons.inj hu
        exact .inl (by simp [hd])
      · exact .inr ⟨u, hu, hreference⟩

/-- What can follow a run is found whatever the length of the run. -/
theorem mem_afterSpace_iff : r ∈ afterSpace s ↔ ∃ t, s = t ++ r ∧ IsSpaceRun t := by
  induction s using afterSpace.induct with
  | case1 s ih =>
    have hshorter : ∀ {u r' : Text}, s = u ++ r' → IsSpaceUnit u → r'.length < s.length := by
      intro u r' hs hu
      have := List.length_pos_iff.mpr hu.ne_nil
      rw [hs, List.length_append]
      omega
    rw [afterSpace_eq, List.mem_flatMap]
    constructor
    · rintro ⟨r', hr', hr⟩
      obtain ⟨u, hs, hu⟩ := mem_afterSpaceUnit_iff.mp hr'
      rw [if_pos (hshorter hs hu), List.mem_append, ih r' (hshorter hs hu)] at hr
      rcases hr with ⟨t, rfl, units, -, hunits, rfl⟩ | hr
      · exact ⟨u ++ units.flatten, by simp [hs], u :: units, by simp,
          List.forall_mem_cons.mpr ⟨hu, hunits⟩, rfl⟩
      · rw [List.mem_singleton.mp hr]
        exact ⟨u, hs, [u], by simp, by simpa using hu, by simp⟩
    · rintro ⟨_, hs, units, hne, hunits, rfl⟩
      obtain ⟨u, units, rfl⟩ := List.exists_cons_of_ne_nil hne
      obtain ⟨hu, hunits⟩ := List.forall_mem_cons.mp hunits
      rw [List.flatten_cons, List.append_assoc] at hs
      refine ⟨units.flatten ++ r, mem_afterSpaceUnit_iff.mpr ⟨u, hs, hu⟩, ?_⟩
      rw [if_pos (hshorter hs hu), List.mem_append, ih _ (hshorter hs hu)]
      by_cases hnil : units = []
      · exact .inr (by simp [hnil])
      · exact .inl ⟨units.flatten, rfl, units, hnil, hunits, rfl⟩

/-- What can follow a piece follows one of the ways to write it. -/
theorem mem_rests_iff {p : Piece} : r ∈ p.rests s ↔ ∃ t, s = t ++ r ∧ p.Spells t := by
  cases p with
  | plain c =>
    cases s with
    | nil => simp [rests, Spells]
    | cons d rest =>
      by_cases hc : c = d
      · simp [rests, Spells, hc, eq_comm]
      · simp [rests, Spells, hc, eq_comm]
  | encodable c =>
    cases s with
    | nil =>
      simp only [rests, List.not_mem_nil, false_iff]
      rintro ⟨t, ht, rfl | hreference⟩
      · cases ht
      · rw [(List.append_eq_nil_iff.mp ht.symm).1] at hreference
        cases hreference.mem
    | cons d rest =>
      rw [rests, List.mem_append, WrittenReference.mem_rests_iff]
      constructor
      · rintro (h | ⟨t, ht, hreference⟩)
        · split at h
          · rename_i heq
            rw [List.mem_singleton.mp h, heq]
            exact ⟨[d], rfl, .inl rfl⟩
          · cases h
        · exact ⟨t, ht, .inr hreference⟩
      · rintro ⟨t, ht, rfl | hreference⟩
        · obtain ⟨rfl, rfl⟩ := List.cons.inj ht
          exact .inl (by simp)
        · exact .inr ⟨t, ht, hreference⟩
  | space => exact mem_afterSpace_iff
  | semicolon => exact WrittenReference.mem_afterSemicolon_iff

end Piece

/-! ## Patterns -/

namespace ValuePattern

/-- The text is a way to write the pieces one after the other. -/
def Spells : ValuePattern → Text → Prop
  | [], s => s = []
  | p :: ps, s => ∃ t u, s = t ++ u ∧ p.Spells t ∧ Spells ps u

/-- A whole text is matched just if it is a way to write the pieces: of all readings of the pieces, none is
passed over. -/
theorem matchesWhole_iff_spells {p : ValuePattern} {s : Text} : p.matchesWhole s = true ↔ p.Spells s := by
  induction p generalizing s with
  | nil => simp [matchesWhole, match?, Spells]
  | cons p ps ih =>
    have hsome : matchesWhole (p :: ps) s = true ↔ ∃ r ∈ p.rests s, matchesWhole ps r = true := by
      rw [matchesWhole, match?, List.findSome?_isSome_iff]
      rfl
    rw [hsome, Spells]
    constructor
    · rintro ⟨r, hr, hmatch⟩
      obtain ⟨t, rfl, ht⟩ := Piece.mem_rests_iff.mp hr
      exact ⟨t, r, rfl, ht, ih.mp hmatch⟩
    · rintro ⟨t, u, rfl, ht, hu⟩
      exact ⟨u, Piece.mem_rests_iff.mpr ⟨t, rfl, ht⟩, ih.mpr hu⟩

theorem spells_append {p q : ValuePattern} {s : Text} :
    Spells (p ++ q) s ↔ ∃ t u, s = t ++ u ∧ p.Spells t ∧ q.Spells u := by
  induction p generalizing s with
  | nil =>
    constructor
    · intro h
      exact ⟨[], s, rfl, rfl, h⟩
    · rintro ⟨t, u, rfl, rfl, h⟩
      exact h
  | cons p ps ih =>
    rw [List.cons_append, Spells]
    constructor
    · rintro ⟨t, u, rfl, ht, hu⟩
      obtain ⟨t', u', rfl, ht', hu'⟩ := ih.mp hu
      exact ⟨t ++ t', u', by simp, ⟨t, t', rfl, ht, ht'⟩, hu'⟩
    · rintro ⟨_, u', rfl, ⟨t, t', rfl, ht, ht'⟩, hu'⟩
      exact ⟨t, t' ++ u', by simp, ht, ih.mpr ⟨t', u', rfl, ht', hu'⟩⟩

/-! ## Values -/

/-- What may be written for a character of a value, `before` being what stands before it. The first
character of a run of whitespace is written for the whole run. -/
inductive EncodesChar (before : Text) : Char → Text → Prop
  | letter {c : Char} (hc : Text.isLetterOrDigit c = true) : EncodesChar before c [c]
  | symbol {c : Char} {t : Text} (hletter : Text.isLetterOrDigit c = false)
      (hspace : Text.isSpace c = false) (ht : t = [c] ∨ IsReference t) : EncodesChar before c t
  | space {c : Char} {t : Text} (hc : Text.isSpace c = true)
      (hfirst : ∀ d ∈ before.getLast?, Text.isSpace d = false) (ht : Piece.IsSpaceRun t) :
      EncodesChar before c t
  | within {c d : Char} (hc : Text.isSpace c = true) (hd : d ∈ before.getLast?)
      (hspace : Text.isSpace d = true) : EncodesChar before c []

/-- A name behind an ampersand, which begins with a letter, ends between `before` and `after`. Names of this
kind do not overlap, as none holds an ampersand. -/
def EndsName (before after : Text) : Prop :=
  ∃ u name, before = u ++ '&' :: name ∧ name.head?.any Text.isLetter = true ∧
    (∀ c ∈ name, isNameChar c = true) ∧ ∀ c ∈ after.head?, isNameChar c = false

/-- The text `s` is a way to write `value`, which stands behind `before`. -/
inductive Encodes : Text → Text → Text → Prop
  | nil {before : Text} : Encodes before [] []
  | cons {before after t semicolon s : Text} {c : Char} (hc : EncodesChar before c t)
      (hsemicolon : semicolon = [] ∨ semicolon = [';'] ∧ EndsName (before ++ [c]) after)
      (hs : Encodes (before ++ [c]) after s) : Encodes before (c :: after) (t ++ (semicolon ++ s))

theorem encodes_nil {before s : Text} : Encodes before [] s ↔ s = [] := by
  constructor
  · intro h
    cases h
    rfl
  · rintro rfl
    exact .nil

/-- Where no name ends, nothing stands between what is written for two characters. -/
theorem encodes_cons {before after s : Text} {c : Char} (hends : ¬ EndsName (before ++ [c]) after) :
    Encodes before (c :: after) s ↔
      ∃ t u, s = t ++ u ∧ EncodesChar before c t ∧ Encodes (before ++ [c]) after u := by
  constructor
  · intro h
    cases h with
    | @cons _ _ t semicolon u _ hc hsemicolon hu =>
      obtain rfl | ⟨-, h⟩ := hsemicolon
      · exact ⟨t, u, rfl, hc, hu⟩
      · exact absurd h hends
  · rintro ⟨t, u, rfl, hc, hu⟩
    exact .cons hc (.inl rfl) hu

theorem isSpace_of_isLetterOrDigit {c : Char} (h : Text.isLetterOrDigit c = true) :
    Text.isSpace c = false :=
  WrittenReference.isSpace_of_isBodyChar (WrittenReference.isBodyChar_of_isLetterOrDigit h)

theorem isSpace_of_isNameChar {c : Char} (h : isNameChar c = true) : Text.isSpace c = false := by
  simp only [isNameChar, Bool.or_eq_true, beq_iff_eq] at h
  obtain (h | rfl) | rfl := h
  · exact isSpace_of_isLetterOrDigit h
  · decide
  · decide

theorem isNameChar_of_isSpace {c : Char} (h : Text.isSpace c = true) : isNameChar c = false := by
  refine Bool.eq_false_iff.mpr fun hname => ?_
  rw [isSpace_of_isNameChar hname] at h
  cases h

theorem isNameChar_of_isLetter {c : Char} (h : Text.isLetter c = true) : isNameChar c = true := by
  simp [isNameChar, Text.isLetterOrDigit, h]

/-- Visible characters are written as their pieces say. -/
theorem encodesChar_iff {before t : Text} {c : Char} (hc : Text.isSpace c = false) :
    EncodesChar before c t ↔ (Piece.ofChar c).Spells t := by
  unfold Piece.ofChar
  constructor
  · intro h
    cases h with
    | letter hletter => rw [if_pos hletter]; rfl
    | symbol hletter _ ht => rw [if_neg (by simp [hletter])]; exact ht
    | space hspace => simp [hc] at hspace
    | within hspace => simp [hc] at hspace
  · intro h
    split at h
    · rename_i hletter
      rw [show t = [c] from h]
      exact .letter hletter
    · rename_i hletter
      exact .symbol (by simpa using hletter) hc h

/-- The first character of a run of whitespace stands for the run. -/
theorem encodesChar_space {before t : Text} {c : Char} (hc : Text.isSpace c = true)
    (hfirst : ∀ d ∈ before.getLast?, Text.isSpace d = false) :
    EncodesChar before c t ↔ Piece.IsSpaceRun t := by
  constructor
  · intro h
    cases h with
    | letter hletter => rw [isSpace_of_isLetterOrDigit hletter] at hc; cases hc
    | symbol _ hvisible => rw [hvisible] at hc; cases hc
    | space _ _ ht => exact ht
    | @within d _ hd hspace => rw [hfirst d hd] at hspace; cases hspace
  · exact .space hc hfirst

/-- The other characters of a run of whitespace are written as nothing. -/
theorem encodesChar_within {before t : Text} {c d : Char} (hc : Text.isSpace c = true)
    (hd : d ∈ before.getLast?) (hspace : Text.isSpace d = true) : EncodesChar before c t ↔ t = [] := by
  constructor
  · intro h
    cases h with
    | letter hletter => rw [isSpace_of_isLetterOrDigit hletter] at hc; cases hc
    | symbol _ hvisible => rw [hvisible] at hc; cases hc
    | space _ hfirst => rw [hfirst d hd] at hspace; cases hspace
    | within => rfl
  · rintro rfl
    exact .within hc hd hspace

/-- The last character of a text is the ampersand in question, or belongs to the name behind it. -/
theorem concat_eq_name {before u name : Text} {c : Char} (h : before ++ [c] = u ++ '&' :: name) :
    name = [] ∧ c = '&' ∨ ∃ init, name = init ++ [c] ∧ before = u ++ '&' :: init := by
  obtain rfl | ⟨init, d, hconcat⟩ := List.eq_nil_or_concat name
  · obtain ⟨-, hc⟩ := List.append_inj' h rfl
    exact .inl ⟨rfl, (List.cons.inj hc).1⟩
  · rw [List.concat_eq_append] at hconcat
    subst hconcat
    rw [← List.cons_append, ← List.append_assoc] at h
    obtain ⟨hbefore, hc⟩ := List.append_inj' h rfl
    obtain ⟨rfl, -⟩ := List.cons.inj hc
    exact .inr ⟨init, rfl, hbefore⟩

/-- No name ends behind a character that no name holds. -/
theorem not_endsName {before after : Text} {c : Char} (hc : isNameChar c = false) :
    ¬ EndsName (before ++ [c]) after := by
  rintro ⟨u, name, hbefore, hletter, hname, -⟩
  obtain ⟨rfl, -⟩ | ⟨init, rfl, -⟩ := concat_eq_name hbefore
  · cases hletter
  · rw [hname c (by simp)] at hc
    cases hc

/-! ### Runs of whitespace, and names -/

/-- Behind the first character, a run of whitespace is passed over. -/
theorem encodes_space {before run after s : Text} {d : Char} (hd : d ∈ before.getLast?)
    (hspace : Text.isSpace d = true) (hrun : ∀ c ∈ run, Text.isSpace c = true) :
    Encodes before (run ++ after) s ↔ Encodes (before ++ run) after s := by
  induction run generalizing before d with
  | nil => simp
  | cons c run ih =>
    obtain ⟨hc, hrun⟩ := List.forall_mem_cons.mp hrun
    have hrest : Encodes (before ++ [c]) (run ++ after) s ↔ Encodes (before ++ [c] ++ run) after s :=
      ih (d := c) (by simp) hc hrun
    rw [List.append_assoc, List.singleton_append] at hrest
    rw [List.cons_append, encodes_cons (not_endsName (isNameChar_of_isSpace hc)), ← hrest]
    simp [encodesChar_within hc hd hspace]

/-- The characters of a name are written one by one, and a semicolon may stand behind the last one. -/
theorem encodes_name {u name after s : Text} (part : Text) (hne : name ≠ [])
    (hletter : (part ++ name).head?.any Text.isLetter = true)
    (hname : ∀ c ∈ part ++ name, isNameChar c = true) (hafter : ∀ c ∈ after.head?, isNameChar c = false) :
    Encodes (u ++ '&' :: part) (name ++ after) s ↔
      ∃ t semicolon rest, s = t ++ (semicolon ++ rest) ∧ Spells (name.map Piece.ofChar) t ∧
        (semicolon = [] ∨ semicolon = [';']) ∧ Encodes (u ++ '&' :: (part ++ name)) after rest := by
  induction name generalizing part s with
  | nil => exact absurd rfl hne
  | cons c name ih =>
    have hc : Text.isSpace c = false := isSpace_of_isNameChar (hname c (by simp))
    have hstep : u ++ '&' :: part ++ [c] = u ++ '&' :: (part ++ [c]) := by simp
    have hcons : part ++ c :: name = part ++ [c] ++ name := by simp
    by_cases hnil : name = []
    · subst hnil
      have hends : EndsName (u ++ '&' :: part ++ [c]) after :=
        ⟨u, part ++ [c], hstep, hletter, hname, hafter⟩
      rw [← hstep]
      constructor
      · intro h
        cases h with
        | @cons _ _ t semicolon s _ hchar hsemicolon hs =>
          refine ⟨t, semicolon, s, rfl, ⟨t, [], by simp, (encodesChar_iff hc).mp hchar, rfl⟩, ?_, hs⟩
          exact hsemicolon.imp_right And.left
      · rintro ⟨_, semicolon, rest, rfl, ⟨t, _, rfl, ht, rfl⟩, hsemicolon, hrest⟩
        rw [List.append_nil]
        exact .cons ((encodesChar_iff hc).mpr ht) (hsemicolon.imp_right fun h => ⟨h, hends⟩) hrest
    · -- The name goes on, so it does not end here.
      have hends : ¬ EndsName (u ++ '&' :: part ++ [c]) (name ++ after) := by
        rintro ⟨-, -, -, -, -, hbehind⟩
        obtain ⟨d, name, rfl⟩ := List.exists_cons_of_ne_nil hnil
        have hd := hbehind d rfl
        rw [hname d (by simp)] at hd
        cases hd
      rw [hcons] at hletter hname ⊢
      rw [List.cons_append, encodes_cons hends, hstep]
      constructor
      · rintro ⟨t, rest, rfl, ht, hrest⟩
        obtain ⟨t', semicolon, rest, rfl, ht', hsemicolon, hrest⟩ := (ih _ hnil hletter hname).mp hrest
        refine ⟨t ++ t', semicolon, rest, by simp, ?_, hsemicolon, hrest⟩
        exact ⟨t, t', rfl, (encodesChar_iff hc).mp ht, ht'⟩
      · rintro ⟨_, semicolon, rest, rfl, ⟨t, t', rfl, ht, ht'⟩, hsemicolon, hrest⟩
        refine ⟨t, t' ++ (semicolon ++ rest), by simp, (encodesChar_iff hc).mpr ht, ?_⟩
        exact (ih _ hnil hletter hname).mpr ⟨t', semicolon, rest, rfl, ht', hsemicolon, hrest⟩

/-! ### From characters to pieces -/

/-- Neither a run of whitespace nor a name goes on from `before` to `after`. -/
structure Cut (before after : Text) : Prop where
  space : ∀ c ∈ after.head?, Text.isSpace c = true → ∀ d ∈ before.getLast?, Text.isSpace d = false
  name : ∀ u name, before = u ++ '&' :: name → (name ++ after).head?.any Text.isLetter = true →
    (∀ c ∈ name, isNameChar c = true) → ∀ c ∈ after.head?, isNameChar c = false

theorem cut_nil (value : Text) : Cut [] value where
  space := by simp
  name := by simp

/-- A run of whitespace that is over is cut off. -/
theorem cut_space {before after : Text} {c : Char} (hc : c ∈ before.getLast?)
    (hspace : Text.isSpace c = true) (hafter : ∀ d ∈ after.head?, Text.isSpace d = false) :
    Cut before after where
  space d hd hspace' := by
    rw [hafter d hd] at hspace'
    cases hspace'
  name u name hbefore hletter hname d hd := by
    obtain ⟨init, rfl⟩ := List.getLast?_eq_some_iff.mp hc
    obtain ⟨rfl, rfl⟩ | ⟨init, rfl, -⟩ := concat_eq_name hbefore
    · cases hspace
    · have hfalse := hname c (by simp)
      rw [isNameChar_of_isSpace hspace] at hfalse
      cases hfalse

/-- A name that is over is cut off. -/
theorem cut_name {before after : Text} {c : Char} (hc : c ∈ before.getLast?) (hname : isNameChar c = true)
    (hafter : ∀ d ∈ after.head?, isNameChar d = false) : Cut before after where
  space d hd hspace e he := by
    obtain rfl : c = e := Option.some.inj (hc.symm.trans he)
    exact isSpace_of_isNameChar hname
  name _ _ _ _ _ := hafter

/-- A visible character that begins no name is cut off. -/
theorem Cut.next {before after : Text} {c : Char} (h : Cut before (c :: after)) (hc : Text.isSpace c = false)
    (hamp : ¬ (c = '&' ∧ after.head?.any Text.isLetter = true)) : Cut (before ++ [c]) after where
  space d hd hspace e he := by
    rw [List.getLast?_concat, Option.mem_some_iff] at he
    rwa [← he]
  name u name hbefore hletter hname := by
    obtain ⟨rfl, rfl⟩ | ⟨init, rfl, rfl⟩ := concat_eq_name hbefore
    · exact absurd ⟨rfl, hletter⟩ hamp
    · rw [List.append_assoc, List.singleton_append] at hletter
      have hfalse := h.name u init rfl hletter (fun d hd => hname d (by simp [hd])) c rfl
      rw [hname c (by simp)] at hfalse
      cases hfalse

/-- A name that ends behind a visible character began with it, or was not cut off before it. -/
theorem Cut.not_endsName {before after : Text} {c : Char} (h : Cut before (c :: after)) :
    ¬ EndsName (before ++ [c]) after := by
  rintro ⟨u, name, hbefore, hletter, hname, -⟩
  obtain ⟨rfl, -⟩ | ⟨init, rfl, rfl⟩ := concat_eq_name hbefore
  · cases hletter
  · have hhead : (init ++ c :: after).head?.any Text.isLetter = true := by
      cases init with
      | nil => exact hletter
      | cons => exact hletter
    have hfalse := h.name u init rfl hhead (fun d hd => hname d (by simp [hd])) c rfl
    rw [hname c (by simp)] at hfalse
    cases hfalse

theorem head?_dropWhile {p : Char → Bool} {s : Text} : ∀ c ∈ (s.dropWhile p).head?, p c = false := by
  intro c hc
  have h := List.head?_dropWhile_not p s
  rw [Option.mem_def.mp hc] at h
  simpa using h

theorem exists_mem_getLast? {p : Char → Bool} {run : Text} (before : Text) (hne : run ≠ [])
    (hrun : ∀ c ∈ run, p c = true) : ∃ c ∈ (before ++ run).getLast?, p c = true := by
  refine ⟨run.getLast hne, ?_, hrun _ (List.getLast_mem hne)⟩
  rw [List.getLast?_append_of_ne_nil _ hne]
  exact List.getLast?_eq_some_getLast hne

theorem isSpace_of_mem_takeWhile {s : Text} : ∀ c ∈ s.takeWhile Text.isSpace, Text.isSpace c = true :=
  List.all_eq_true.mp List.all_takeWhile

theorem cut_takeWhile_space {before rest : Text} {c : Char} (hc : Text.isSpace c = true) :
    Cut (before ++ c :: rest.takeWhile Text.isSpace) (rest.dropWhile Text.isSpace) := by
  obtain ⟨d, hd, hspace⟩ := exists_mem_getLast? before (List.cons_ne_nil c _)
    (List.forall_mem_cons.mpr ⟨hc, isSpace_of_mem_takeWhile⟩)
  exact cut_space hd hspace head?_dropWhile

theorem isNameChar_of_mem_takeWhile {s : Text} : ∀ c ∈ s.takeWhile isNameChar, isNameChar c = true :=
  List.all_eq_true.mp List.all_takeWhile

section Name

variable {before rest s : Text} (hletter : rest.head?.any Text.isLetter = true)

include hletter

theorem head?_takeWhile_name : (rest.takeWhile isNameChar).head?.any Text.isLetter = true := by
  cases rest with
  | nil => cases hletter
  | cons first others => rwa [List.takeWhile_cons_of_pos (isNameChar_of_isLetter hletter)]

theorem takeWhile_name_ne_nil : rest.takeWhile isNameChar ≠ [] := by
  intro hnil
  have hhead := head?_takeWhile_name hletter
  rw [hnil] at hhead
  cases hhead

theorem cut_takeWhile_name :
    Cut (before ++ '&' :: rest.takeWhile isNameChar) (rest.dropWhile isNameChar) := by
  obtain ⟨d, hd, hname⟩ := exists_mem_getLast? (before ++ ['&']) (takeWhile_name_ne_nil hletter)
    isNameChar_of_mem_takeWhile
  rw [List.append_assoc, List.singleton_append] at hd
  exact cut_name hd hname head?_dropWhile

/-- Behind an ampersand, a whole name is written and then what follows it. -/
theorem encodes_takeWhile_name :
    Encodes (before ++ ['&']) rest s ↔
      ∃ t semicolon u, s = t ++ (semicolon ++ u) ∧
        Spells ((rest.takeWhile isNameChar).map Piece.ofChar) t ∧ (semicolon = [] ∨ semicolon = [';']) ∧
          Encodes (before ++ '&' :: rest.takeWhile isNameChar) (rest.dropWhile isNameChar) u := by
  have h := encodes_name (u := before) (s := s) [] (takeWhile_name_ne_nil hletter)
    (head?_takeWhile_name hletter) isNameChar_of_mem_takeWhile (head?_dropWhile (s := rest))
  rwa [List.takeWhile_append_dropWhile] at h

end Name

/-- The pieces of a value spell exactly the ways to write it, behind any text from which it is cut off. -/
theorem spells_ofValue_iff {before value s : Text} (hcut : Cut before value) :
    (ofValue value).Spells s ↔ Encodes before value s := by
  induction value using ofValue.induct generalizing before s with
  | case1 =>
    rw [ofValue, encodes_nil]
    rfl
  | case2 c rest hc ih =>
    -- A whole run of whitespace is one piece.
    have hrest : ∀ u, (ofValue (rest.dropWhile Text.isSpace)).Spells u ↔ Encodes (before ++ [c]) rest u := by
      intro u
      rw [ih (cut_takeWhile_space hc), List.append_cons,
        ← encodes_space (d := c) (by simp) hc isSpace_of_mem_takeWhile, List.takeWhile_append_dropWhile]
    rw [ofValue, if_pos hc, Spells, encodes_cons (not_endsName (isNameChar_of_isSpace hc))]
    simp only [hrest, encodesChar_space hc (hcut.space c rfl hc)]
    rfl
  | case3 c rest hspace hamp ih =>
    -- An ampersand, and the name behind it.
    rw [ofValue, if_neg hspace, if_pos hamp]
    rw [Bool.and_eq_true, decide_eq_true_eq] at hamp
    obtain ⟨rfl, hletter⟩ := hamp
    have hafter : ∀ u, (ofValue (rest.dropWhile isNameChar)).Spells u ↔
        Encodes (before ++ '&' :: rest.takeWhile isNameChar) (rest.dropWhile isNameChar) u :=
      fun _ => ih (cut_takeWhile_name hletter)
    have hrest : ∀ u, Spells ((rest.takeWhile isNameChar).map Piece.ofChar ++
        .semicolon :: ofValue (rest.dropWhile isNameChar)) u ↔ Encodes (before ++ ['&']) rest u := by
      intro u
      rw [encodes_takeWhile_name hletter, spells_append]
      constructor
      · rintro ⟨t, _, rfl, ht, semicolon, v, rfl, hsemicolon, hv⟩
        exact ⟨t, semicolon, v, rfl, ht, hsemicolon, (hafter v).mp hv⟩
      · rintro ⟨t, semicolon, v, rfl, ht, hsemicolon, hv⟩
        exact ⟨t, semicolon ++ v, rfl, ht, semicolon, v, rfl, hsemicolon, (hafter v).mpr hv⟩
    rw [List.cons_append, Spells, encodes_cons (not_endsName (by decide))]
    simp only [hrest, encodesChar_iff (show Text.isSpace '&' = false by decide)]
    rfl
  | case4 c rest hspace hamp ih =>
    have hc : Text.isSpace c = false := by simpa using hspace
    have hnext := hcut.next hc (by simpa using hamp)
    rw [ofValue, if_neg hspace, if_neg hamp, Spells, encodes_cons hcut.not_endsName]
    simp only [encodesChar_iff hc, ih hnext]

/-! ### Texts without references -/

theorem spells_ofChar_self (c : Char) : (Piece.ofChar c).Spells [c] := by
  unfold Piece.ofChar
  split
  · rfl
  · exact .inl rfl

/-- A value is spelled by its own pieces. -/
theorem spells_self (value : Text) : (ofValue value).Spells value := by
  induction value using ofValue.induct with
  | case1 =>
    rw [ofValue]
    rfl
  | case2 c rest hc ih =>
    rw [ofValue, if_pos hc]
    refine ⟨c :: rest.takeWhile Text.isSpace, rest.dropWhile Text.isSpace, ?_, ?_, ih⟩
    · rw [List.cons_append, List.takeWhile_append_dropWhile]
    · exact Piece.isSpaceRun_of_isSpace (List.cons_ne_nil _ _)
        (List.forall_mem_cons.mpr ⟨hc, isSpace_of_mem_takeWhile⟩)
  | case3 c rest hspace hamp ih =>
    have hname : ∀ name : Text, Spells (name.map Piece.ofChar) name := by
      intro name
      induction name with
      | nil => rfl
      | cons d name ih => exact ⟨[d], name, rfl, spells_ofChar_self d, ih⟩
    rw [ofValue, if_neg hspace, if_pos hamp]
    rw [Bool.and_eq_true, decide_eq_true_eq] at hamp
    refine ⟨['&'], rest, by rw [hamp.1]; rfl, .inl rfl, spells_append.mpr ?_⟩
    refine ⟨_, _, List.takeWhile_append_dropWhile.symm, hname _, [], _, rfl, .inl rfl, ih⟩
  | case4 c rest hspace hamp ih =>
    rw [ofValue, if_neg hspace, if_neg hamp]
    exact ⟨[c], rest, rfl, spells_ofChar_self c, ih⟩

/-- Without references, what the pieces of a value spell is the value but for its whitespace. -/
theorem collapse_of_spells {value s : Text} (h : (ofValue value).Spells s) (hamp : '&' ∉ s) :
    Text.collapse s = Text.collapse value ∧ s.head?.map Text.isSpace = value.head?.map Text.isSpace := by
  induction value using ofValue.induct generalizing s with
  | case1 =>
    rw [ofValue] at h
    rw [show s = [] from h]
    exact ⟨rfl, rfl⟩
  | case2 c rest hc ih =>
    rw [ofValue, if_pos hc] at h
    obtain ⟨t, u, rfl, ht, hu⟩ := h
    rw [List.mem_append, not_or] at hamp
    obtain ⟨hcollapse, hhead⟩ := ih hu hamp.2
    obtain ⟨d, more, rfl⟩ := List.exists_cons_of_ne_nil ht.ne_nil
    have hrun := ht.isSpace hamp.1
    have hu : ∀ d ∈ u.head?, Text.isSpace d = false := by
      intro d hd
      rw [Option.mem_def.mp hd] at hhead
      obtain ⟨e, he, hspace⟩ := Option.map_eq_some_iff.mp hhead.symm
      rw [← hspace]
      exact head?_dropWhile e he
    refine ⟨?_, by simp [hrun d List.mem_cons_self, hc]⟩
    have hspaces : ∀ e ∈ c :: rest.takeWhile Text.isSpace, Text.isSpace e = true :=
      List.forall_mem_cons.mpr ⟨hc, isSpace_of_mem_takeWhile⟩
    calc Text.collapse (d :: more ++ u)
        = ' ' :: Text.collapse u := Text.collapse_run (List.cons_ne_nil _ _) hrun hu
      _ = ' ' :: Text.collapse (rest.dropWhile Text.isSpace) := by rw [hcollapse]
      _ = Text.collapse (c :: rest.takeWhile Text.isSpace ++ rest.dropWhile Text.isSpace) :=
        (Text.collapse_run (List.cons_ne_nil _ _) hspaces head?_dropWhile).symm
      _ = Text.collapse (c :: rest) := by rw [List.cons_append, List.takeWhile_append_dropWhile]
  | case3 c rest hspace hname ih =>
    -- However the ampersand is written, an ampersand is written.
    rw [ofValue, if_neg hspace, if_pos hname] at h
    obtain ⟨t, u, rfl, rfl | hreference, -⟩ := h
    · exact absurd List.mem_cons_self hamp
    · exact absurd (List.mem_append_left _ hreference.mem) hamp
  | case4 c rest hspace hname ih =>
    rw [ofValue, if_neg hspace, if_neg hname] at h
    obtain ⟨t, u, rfl, ht, hu⟩ := h
    rw [List.mem_append, not_or] at hamp
    obtain rfl : t = [c] := by
      unfold Piece.ofChar at ht
      split at ht
      · exact ht
      · rcases ht with rfl | hreference
        · rfl
        · exact absurd hreference.mem hamp.1
    obtain ⟨hcollapse, -⟩ := ih hu hamp.2
    refine ⟨?_, rfl⟩
    rw [List.singleton_append, Text.collapse, Text.collapse, if_neg hspace, if_neg hspace, hcollapse]

/-- The pattern of a value matches exactly the ways to write the value: the value itself is one, and one
without ampersands differs from it only in the length and the kind of its runs of whitespace. -/
theorem matchesWhole_encodes (value s : Text) :
    ((ofValue value).matchesWhole s = true ↔ Encodes [] value s) ∧
      (ofValue value).matchesWhole value = true ∧
      ('&' ∉ s → (ofValue value).matchesWhole s = true → Text.collapse s = Text.collapse value) := by
  refine ⟨?_, matchesWhole_iff_spells.mpr (spells_self value), fun hamp h => ?_⟩
  · rw [matchesWhole_iff_spells]
    exact spells_ofValue_iff (cut_nil value)
  · exact (collapse_of_spells (matchesWhole_iff_spells.mp h) hamp).1

/-- The name behind an ampersand may get a semicolon, and only at its end. -/
example : (ofValue "&Tx, y".toList).matchesWhole "&amp;Tx;&#44\n&nbsp;y".toList = true ∧
    (ofValue "&Tx, y".toList).matchesWhole "&T;x, y".toList = false := by
  decide +kernel

end ValuePattern

end Untranslated
