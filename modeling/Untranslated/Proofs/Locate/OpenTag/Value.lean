import Untranslated.Locate.OpenTag
import Untranslated.Proofs.Text

/-!
# Values of attributes

What stands behind the name of an attribute, by the three ways to write it: a value without quotes
(`valuePlace_bare`), one that begins with a quote (`valuePlace_quote`), and none (`valuePlace_signless`).
Reading goes on inside the text (`valuePlace_bounds`), and passes a closing bracket only if the value
stands in quotes (`quoted_or_bracketless`).
-/

namespace Untranslated

/-- What stands between the name of an attribute and a value in quotes: an equals sign, which may have
whitespace on either side, and the quote. -/
def Text.OpensQuote (q : Char) (lead : Text) : Prop :=
  (q = '\x27' ∨ q = '"') ∧
    ∃ u v : Text, (∀ c ∈ u, Text.isSpace c = true) ∧ (∀ c ∈ v, Text.isSpace c = true) ∧
      lead = u ++ '=' :: (v ++ [q])

/-- The attribute is written in quotes: its name, the sign and a quote stand before its value, which
ends at the next such quote. -/
def WrittenAttribute.Quoted (text : Text) (a : WrittenAttribute) : Prop :=
  ∃ (place : Nat) (lead value rest : Text) (q : Char),
    text.drop place = a.name ++ (lead ++ (value ++ q :: rest)) ∧ Text.OpensQuote q lead ∧ q ∉ value ∧
      a.value.start = place + a.name.length + lead.length ∧
      a.value.stop = a.value.start + value.length

namespace Text

theorem not_mem_of_isSpace {s : Text} {c : Char} (hs : ∀ d ∈ s, isSpace d = true)
    (hc : isSpace c = false) : c ∉ s := fun hmem => by
  rw [hs c hmem] at hc
  cases hc

theorem OpensQuote.bracketless {q : Char} {lead : Text} (h : OpensQuote q lead) : '>' ∉ lead := by
  obtain ⟨hq, u, v, hu, hv, rfl⟩ := h
  have hbracket : isSpace '>' = false := by decide
  have hquote : '>' ≠ q := by rcases hq with rfl | rfl <;> decide
  simp [not_mem_of_isSpace hu hbracket, not_mem_of_isSpace hv hbracket, hquote]

end Text

namespace OpenTag

/-- The value behind a name does not end before it begins, and reading goes on at or behind its end but
not behind the text. -/
theorem valuePlace_bounds (s : Text) :
    (valuePlace s).1 ≤ (valuePlace s).2.1 ∧ (valuePlace s).2.1 ≤ (valuePlace s).2.2 ∧
      (valuePlace s).2.2 ≤ s.length := by
  -- How much of `s` lies behind the equals sign and the whitespace around it.
  have key {before blank : Nat} {rest body : Text} (hrest : s.drop before = '=' :: rest)
      (hbody : rest.drop blank = body) (hblank : blank ≤ rest.length) :
      before + 1 + blank + body.length = s.length := by
    have h1 := congrArg List.length hrest
    have h2 := congrArg List.length hbody
    simp only [List.length_drop, List.length_cons] at h1 h2
    omega
  have hspace (rest : Text) : (rest.takeWhile Text.isSpace).length ≤ rest.length :=
    (List.takeWhile_prefix _).length_le
  fun_cases valuePlace s
  case case1 before rest hrest blank place quoted body hbody |
      case2 before rest hrest blank place quoted body hbody =>
    have := key hrest hbody (hspace rest)
    simp only [List.length_cons] at this
    simp only [quoted]
    split
    · rename_i n hn
      have := Text.find?_le hn
      simp only [List.length_cons, List.length_nil] at this
      simp only [place]; omega
    · split <;> simp only [place] <;> omega
  case case3 before rest hrest blank place _ _ n =>
    have := key hrest rfl (hspace rest)
    have hn : n ≤ (rest.drop blank).length := (List.takeWhile_prefix _).length_le
    simp only [List.length_drop] at this hn
    simp only [place]; omega
  case case4 => simp

/-! ## Ways to write a value -/

/-- Whitespace before a quote ends there. -/
theorem span_quote {v : Text} (hv : ∀ c ∈ v, Text.isSpace c = true) {q : Char}
    (hq : q = '\x27' ∨ q = '"') (rest : Text) :
    Text.span Text.isSpace (v ++ q :: rest) = (v, q :: rest) := by
  refine Text.span_append hv ?_
  rintro c ⟨⟩
  rcases hq with rfl | rfl <;> decide

section
variable {u v : Text} (hu : ∀ c ∈ u, Text.isSpace c = true) (hv : ∀ c ∈ v, Text.isSpace c = true)
include hu hv

theorem valuePlace_bare {body : Text}
    (hbody : ∀ c ∈ body.head?, Text.isSpace c = false ∧ c ≠ '\x27' ∧ c ≠ '"') :
    let value := body.takeWhile fun c => !Text.isSpace c && c != '>'
    valuePlace (u ++ '=' :: (v ++ body)) =
      (u.length + 1 + v.length, u.length + 1 + v.length + value.length,
        u.length + 1 + v.length + value.length) := by
  have hbefore : (u ++ '=' :: (v ++ body)).takeWhile Text.isSpace = u :=
    (Prod.mk.inj (Text.span_append hu (by rintro c ⟨⟩; decide))).1
  have hblank : (v ++ body).takeWhile Text.isSpace = v :=
    (Prod.mk.inj (Text.span_append hv fun c hc => (hbody c hc).1)).1
  simp only [valuePlace, hbefore, List.drop_left, hblank]
  split
  · exact absurd rfl (hbody _ rfl).2.1
  · exact absurd rfl (hbody _ rfl).2.2
  · rfl

theorem valuePlace_quote {q : Char} (hq : q = '\x27' ∨ q = '"') (rest : Text) :
    valuePlace (u ++ '=' :: (v ++ q :: rest)) =
      match Text.find? [q] rest with
      | some n => (u.length + 1 + v.length + 1, u.length + 1 + v.length + 1 + n,
          u.length + 1 + v.length + 2 + n)
      | none => if v.length = 0 then (0, 0, 0)
        else (u.length + 1 + v.length - 1, u.length + 1 + v.length - 1, u.length + 1 + v.length - 1) := by
  have hbefore : (u ++ '=' :: (v ++ q :: rest)).takeWhile Text.isSpace = u :=
    (Prod.mk.inj (Text.span_append hu (by rintro c ⟨⟩; decide))).1
  have hblank : (v ++ q :: rest).takeWhile Text.isSpace = v := (Prod.mk.inj (span_quote hv hq rest)).1
  simp only [valuePlace, hbefore, List.drop_left, hblank]
  rcases hq with rfl | rfl <;> rfl

end

/-- Without an equals sign, there is no value. -/
theorem valuePlace_signless {u rest : Text} (hu : ∀ c ∈ u, Text.isSpace c = true)
    (hrest : ∀ c ∈ rest.head?, Text.isSpace c = false) (hsign : ∀ c ∈ rest.head?, c ≠ '=') :
    valuePlace (u ++ rest) = (0, 0, 0) := by
  have hbefore : (u ++ rest).takeWhile Text.isSpace = u := (Prod.mk.inj (Text.span_append hu hrest)).1
  simp only [valuePlace, hbefore, List.drop_left]
  split
  · exact absurd rfl (hsign _ rfl)
  · rfl

/-! ## Closing brackets -/

theorem not_mem_take_append {lead tail : Text} {c : Char} {n : Nat} (hc : c ∉ lead)
    (hn : n ≤ lead.length) : c ∉ (lead ++ tail).take n := by
  rw [List.take_append_of_le_length hn]
  exact fun hmem => hc (List.mem_of_mem_take hmem)

/-- A value in quotes is read, up to the place behind its closing quote. -/
def ReadsQuoted (s : Text) : Prop :=
  ∃ q lead value rest, Text.OpensQuote q lead ∧ q ∉ value ∧ s = lead ++ (value ++ q :: rest) ∧
    valuePlace s = (lead.length, lead.length + value.length, lead.length + value.length + 1)

section
variable {u v : Text} (hu : ∀ c ∈ u, Text.isSpace c = true) (hv : ∀ c ∈ v, Text.isSpace c = true)
include hu hv

theorem bracketless_sign : '>' ∉ u ++ '=' :: v := by
  have hbracket : Text.isSpace '>' = false := by decide
  simp [Text.not_mem_of_isSpace hu hbracket, Text.not_mem_of_isSpace hv hbracket]

/-- Behind a quote that is never closed, reading goes on where the name or the whitespace ends. -/
theorem readsQuoted_or_bracketless {q : Char} (hq : q = '\x27' ∨ q = '"') (behind : Text) :
    ReadsQuoted (u ++ '=' :: (v ++ q :: behind)) ∨
      '>' ∉ (u ++ '=' :: (v ++ q :: behind)).take (valuePlace (u ++ '=' :: (v ++ q :: behind))).2.2 := by
  have hplace := valuePlace_quote hu hv hq behind
  cases hfind : Text.find? [q] behind with
  | some n =>
    obtain ⟨value, rest, rfl, hvalue, rfl⟩ := Text.exists_of_find?_singleton hfind
    refine .inl ⟨q, u ++ '=' :: (v ++ [q]), value, rest, ⟨hq, u, v, hu, hv, rfl⟩, hvalue, by simp, ?_⟩
    rw [hplace, hfind]
    simp only [List.length_append, List.length_cons, List.length_nil, Prod.mk.injEq]
    omega
  | none =>
    have hnext : (valuePlace (u ++ '=' :: (v ++ q :: behind))).2.2 ≤ (u ++ '=' :: v).length := by
      rw [hplace, hfind]
      simp only [List.length_append, List.length_cons]
      split <;> simp only <;> omega
    have hwhole : u ++ '=' :: (v ++ q :: behind) = (u ++ '=' :: v) ++ q :: behind := by simp
    rw [hwhole] at hnext ⊢
    exact .inr (not_mem_take_append (bracketless_sign hu hv) hnext)

/-- A value without quotes ends before a closing bracket. -/
theorem bracketless_bare {body : Text}
    (hbody : ∀ c ∈ body.head?, Text.isSpace c = false ∧ c ≠ '\x27' ∧ c ≠ '"') :
    '>' ∉ (u ++ '=' :: (v ++ body)).take (valuePlace (u ++ '=' :: (v ++ body))).2.2 := by
  have hplace := valuePlace_bare hu hv hbody
  rcases hcut : Text.span (fun c => !Text.isSpace c && c != '>') body with ⟨value, rest⟩
  have htake : body.takeWhile (fun c => !Text.isSpace c && c != '>') = value := (Prod.mk.inj hcut).1
  have hbare : '>' ∉ value := fun hmem => by simpa using (Text.span_eq hcut).2.1 '>' hmem
  have hwhole : u ++ '=' :: (v ++ body) = (u ++ '=' :: v ++ value) ++ rest := by
    rw [(Text.span_eq hcut).1]
    simp
  rw [hplace, htake, hwhole]
  refine not_mem_take_append (fun hmem => ?_) ?_
  · exact (List.mem_append.mp hmem).elim (bracketless_sign hu hv) hbare
  · simp only [List.length_append, List.length_cons]
    omega

end

/-- Behind a name stands a value in quotes, or no closing bracket is passed. -/
theorem quoted_or_bracketless (s : Text) : ReadsQuoted s ∨ '>' ∉ s.take (valuePlace s).2.2 := by
  rcases hbefore : Text.span Text.isSpace s with ⟨u, tail⟩
  obtain ⟨rfl, hu, htail⟩ := Text.span_eq hbefore
  by_cases hsign : ∃ rest, tail = '=' :: rest
  · obtain ⟨rest, rfl⟩ := hsign
    rcases hblank : Text.span Text.isSpace rest with ⟨v, body⟩
    obtain ⟨rfl, hv, hbody⟩ := Text.span_eq hblank
    by_cases hquote : ∃ q behind, body = q :: behind ∧ (q = '\x27' ∨ q = '"')
    · obtain ⟨q, behind, rfl, hq⟩ := hquote
      exact readsQuoted_or_bracketless hu hv hq behind
    · refine .inr (bracketless_bare hu hv fun c hc => ?_)
      obtain ⟨rest, rfl⟩ := List.head?_eq_some_iff.mp hc
      exact ⟨hbody c rfl, not_or.mp fun hq => hquote ⟨c, rest, rfl, hq⟩⟩
  · have hnone : ∀ c ∈ tail.head?, c ≠ '=' := by
      rintro c hc rfl
      exact hsign (List.head?_eq_some_iff.mp hc)
    right
    rw [valuePlace_signless hu htail hnone, List.take_zero]
    exact List.not_mem_nil

end OpenTag

end Untranslated
