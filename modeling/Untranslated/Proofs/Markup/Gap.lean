import Untranslated.Proofs.Markup.Reading

/-!
# What stands between two nodes

Between a node and the next one that can be located there are only end tags and comments: a *gap*.
Where texts are passed over there may be more: a *lag* is a text in which every `<` begins an end tag or
a comment.

* The resolver skips a gap before a text (`gapLength_gap`), and it never skips more than a lag
  (`gapLength_lag`).
* It finds no opening tag in a lag but what a comment hides (`hidden_of_startsTag`), and the lag does
  not hide what follows it (`not_hidden_behind_lag`).
* What is left of a lag is a lag, from every place that is not hidden (`Lag.drop_visible`).
-/

namespace Untranslated

namespace Text

/-- The offset of a character that is not in the first part. -/
theorem find?_singleton_append {c : Char} {s : Text} (h : ∀ d ∈ s, d ≠ c) (rest : Text) :
    find? [c] (s ++ c :: rest) = some s.length := by
  induction s with
  | nil => simp [find?, startsWith]
  | cons d s ih =>
    obtain ⟨hd, hs⟩ := List.forall_mem_cons.mp h
    rw [List.cons_append, find?, ih hs]
    simp [startsWith, Ne.symm hd]

end Text

namespace Markup

/-- A comment ends at the first `-->`. -/
theorem find?_commentEnd {s : Text} (h : IsComment s) (rest : Text) :
    Text.find? "-->".toList (s ++ '-' :: '-' :: '>' :: rest) = some s.length := by
  induction s with
  | nil => rfl
  | cons c s ih =>
    have hnot : ¬ Text.startsWith "-->".toList (c :: (s ++ '-' :: '-' :: '>' :: rest)) = true := by
      intro hstarts
      obtain ⟨after, hafter⟩ := Text.startsWith_iff.mp hstarts
      obtain ⟨rfl, hdash⟩ := List.cons.inj hafter
      obtain ⟨d, s, rfl, hd⟩ := h.behind_dash
      exact hd (List.cons.inj hdash).1.symm
    rw [List.cons_append, Text.find?, if_neg hnot, ih h.tail]
    rfl

end Markup

namespace Hidden

open Markup

theorem length?_comment {s : Text} (h : IsComment s) (rest : Text) :
    length? (commentTag s ++ rest) = some (commentTag s).length := by
  have hfind := find?_commentEnd h rest
  have hstarts : Text.startsWith "<!--".toList (commentTag s ++ rest) = true := rfl
  have hdrop : (commentTag s ++ rest).drop 4 = s ++ '-' :: '-' :: '>' :: rest := by simp [commentTag]
  rw [length?, if_pos hstarts, lengthThrough, hdrop, hfind]
  simp [commentTag]
  omega

/-- Nothing is hidden where no tag begins, nor by an end tag or an opening tag. -/
theorem length?_of_ne {c : Char} (h : c ≠ '<') (s : Text) : length? (c :: s) = none := by
  simp [length?, Text.startsWith, Ne.symm h]

theorem length?_of_next {c : Char} (hmark : c ≠ '!') (hquestion : c ≠ '?') (s : Text) :
    length? ('<' :: c :: s) = none := by
  simp [length?, Text.startsWith, Ne.symm hmark, Ne.symm hquestion]

end Hidden

namespace Markup

/-! ## Gaps -/

/-- Only end tags and comments. -/
inductive Token.Gap : List Token → Prop
  | nil : Token.Gap []
  | closing {name : Text} {ts : List Token} (h : IsName name) (hts : Token.Gap ts) :
      Token.Gap (.closing name :: ts)
  | comment {s : Text} {ts : List Token} (h : IsComment s) (hts : Token.Gap ts) :
      Token.Gap (.comment s :: ts)

theorem Token.Gap.append {ts us : List Token} (h : Token.Gap ts) (h' : Token.Gap us) :
    Token.Gap (ts ++ us) := by
  induction h with
  | nil => exact h'
  | closing h _ ih => exact .closing h ih
  | comment h _ ih => exact .comment h ih

/-- A text in which every `<` begins an end tag or a comment. Its other characters, those in comments
apart, and the names of its end tags are as `P` and `Q` say. -/
inductive Lag (P : Char → Prop) (Q : Text → Prop) : Text → Prop
  | nil : Lag P Q []
  | plain {c : Char} {lag : Text} (hc : c ≠ '<' ∧ c ≠ '&') (hP : P c) (h : Lag P Q lag) :
      Lag P Q (c :: lag)
  | closing {name lag : Text} (hname : IsName name) (hQ : Q name) (h : Lag P Q lag) :
      Lag P Q (closeTag name ++ lag)
  | comment {s lag : Text} (hs : IsComment s) (h : Lag P Q lag) : Lag P Q (commentTag s ++ lag)

theorem Token.Gap.lag {P : Char → Prop} {gap : List Token} (h : Token.Gap gap) :
    Lag P (fun _ => True) (Token.renderAll gap) := by
  induction h with
  | nil => exact .nil
  | closing hname _ ih => exact .closing hname trivial ih
  | comment hs _ ih => exact .comment hs ih

namespace Lag

variable {P : Char → Prop} {Q : Text → Prop} {lag : Text}

theorem append (h : Lag P Q lag) {more : Text} (hmore : Lag P Q more) : Lag P Q (lag ++ more) := by
  induction h with
  | nil => exact hmore
  | plain hc hP _ ih => exact .plain hc hP ih
  | closing hname hQ _ ih =>
    rw [List.append_assoc]
    exact .closing hname hQ ih
  | comment hs _ ih =>
    rw [List.append_assoc]
    exact .comment hs ih

/-- A text without brackets and references is a lag. -/
theorem of_plain {s : Text} (hs : ∀ c ∈ s, (c ≠ '<' ∧ c ≠ '&') ∧ P c) : Lag P Q s := by
  induction s with
  | nil => exact .nil
  | cons c s ih =>
    obtain ⟨⟨hc, hP⟩, hs⟩ := List.forall_mem_cons.mp hs
    exact .plain hc hP (ih hs)

theorem tail {c : Char} (h : Lag P Q (c :: lag)) (hc : c ≠ '<') :
    (c ≠ '&' ∧ P c) ∧ Lag P Q lag := by
  generalize hwhole : c :: lag = whole at h
  cases h with
  | nil => cases hwhole
  | plain hc hP h =>
    obtain ⟨rfl, rfl⟩ := List.cons.inj hwhole
    exact ⟨⟨hc.2, hP⟩, h⟩
  | closing => exact absurd (List.cons.inj hwhole).1 hc
  | comment => exact absurd (List.cons.inj hwhole).1 hc

/-- Behind characters that begin nothing, the rest of a lag is a lag. -/
theorem drop_plain {t rest : Text} (h : Lag P Q (t ++ rest)) (ht : ∀ c ∈ t, c ≠ '<') :
    (∀ c ∈ t, c ≠ '&' ∧ P c) ∧ Lag P Q rest := by
  induction t with
  | nil => exact ⟨by simp, h⟩
  | cons c t ih =>
    obtain ⟨hc, ht⟩ := List.forall_mem_cons.mp ht
    obtain ⟨hP, h⟩ := h.tail hc
    obtain ⟨hPs, hrest⟩ := ih h ht
    exact ⟨List.forall_mem_cons.mpr ⟨hP, hPs⟩, hrest⟩

end Lag

/-- The characters of an end tag behind its first one begin nothing. -/
theorem not_lt_of_mem_closeTag {name : Text} (h : IsName name) :
    ∀ c ∈ '/' :: name ++ ['>'], c ≠ '<' := by
  intro c hc
  rcases List.mem_append.mp hc with hc | hc
  · rcases List.mem_cons.mp hc with rfl | hc
    · decide
    · exact ne_of_nameLetter (.inl (h.2 c hc)) (by decide)
  · rw [List.mem_singleton.mp hc]
    decide

end Markup

namespace Hidden

open Markup

theorem lengthThrough_closeTag {name : Text} (h : IsName name) (rest : Text) :
    lengthThrough 2 ">".toList (closeTag name ++ rest) = (closeTag name).length := by
  have hfind : Text.find? ">".toList (name ++ '>' :: rest) = some name.length := by
    refine Text.find?_singleton_append (c := '>') (fun c hc => ?_) rest
    exact ne_of_nameLetter (.inl (h.2 c hc)) (by decide)
  have hdrop : (closeTag name ++ rest).drop 2 = name ++ '>' :: rest := by simp [closeTag]
  rw [lengthThrough, hdrop, hfind]
  simp [closeTag]
  omega

/-- A construct at the beginning of a gap is skipped. -/
theorem gapLength_append {u : Text} (hne : u ≠ []) {v : Text}
    (h : (if Text.startsWith "</".toList (u ++ v) then
      some (lengthThrough 2 ">".toList (u ++ v)) else length? (u ++ v)) = some u.length) :
    gapLength (u ++ v) = u.length + gapLength v := by
  have hpos := List.length_pos_iff.mpr hne
  rw [gapLength, h]
  simp only
  rw [if_pos ⟨hpos, by simp⟩, List.drop_left]

theorem gapLength_closeTag {name : Text} (h : IsName name) (rest : Text) :
    gapLength (closeTag name ++ rest) = (closeTag name).length + gapLength rest := by
  refine gapLength_append (by simp [closeTag]) ?_
  rw [if_pos (by simp [closeTag, Text.startsWith]), lengthThrough_closeTag h]

theorem gapLength_commentTag {s : Text} (h : IsComment s) (rest : Text) :
    gapLength (commentTag s ++ rest) = (commentTag s).length + gapLength rest := by
  refine gapLength_append (by simp [commentTag]) ?_
  rw [if_neg (by simp [commentTag, Text.startsWith]), length?_comment h]

theorem gapLength_of_ne {s : Text} (h : ∀ c ∈ s.head?, c ≠ '<') : gapLength s = 0 := by
  rw [gapLength]
  cases s with
  | nil => rfl
  | cons c s => simp [length?_of_ne (h c rfl), Text.startsWith, Ne.symm (h c rfl)]

/-- The gap before a text is skipped. -/
theorem gapLength_gap {gap : List Token} (h : Token.Gap gap) {rest : Text}
    (hrest : ∀ c ∈ rest.head?, c ≠ '<') :
    gapLength (Token.renderAll gap ++ rest) = (Token.renderAll gap).length := by
  induction h with
  | nil => exact gapLength_of_ne hrest
  | closing hname _ ih =>
    rw [Token.renderAll_cons, Token.render, List.append_assoc, gapLength_closeTag hname, ih,
      List.length_append]
  | comment hs _ ih =>
    rw [Token.renderAll_cons, Token.render, List.append_assoc, gapLength_commentTag hs, ih,
      List.length_append]

/-- No more than a lag is skipped before a text, and what is left is a lag. -/
theorem gapLength_lag {P : Char → Prop} {Q : Text → Prop} {lag : Text} (h : Lag P Q lag) {rest : Text}
    (hrest : ∀ c ∈ rest.head?, c ≠ '<') :
    gapLength (lag ++ rest) ≤ lag.length ∧ Lag P Q (lag.drop (gapLength (lag ++ rest))) := by
  induction h with
  | nil =>
    rw [List.nil_append, gapLength_of_ne hrest]
    exact ⟨Nat.le_refl _, .nil⟩
  | @plain c lag hc hP h _ =>
    rw [gapLength_of_ne (by simpa using hc.1)]
    exact ⟨Nat.zero_le _, .plain hc hP h⟩
  | closing hname _ _ ih =>
    rw [List.append_assoc, gapLength_closeTag hname, List.length_append, List.drop_length_add_append]
    exact ⟨Nat.add_le_add_left ih.1 _, ih.2⟩
  | comment hs _ ih =>
    rw [List.append_assoc, gapLength_commentTag hs, List.length_append, List.drop_length_add_append]
    exact ⟨Nat.add_le_add_left ih.1 _, ih.2⟩

/-! ## Hidden ranges of a gap -/

theorem spansFrom_plain {u : Text} (h : ∀ c ∈ u, c ≠ '<') (p : Nat) (rest : Text) :
    spansFrom p (u ++ rest) = spansFrom (p + u.length) rest := by
  induction u generalizing p with
  | nil => rfl
  | cons c u ih =>
    obtain ⟨hc, hu⟩ := List.forall_mem_cons.mp h
    rw [List.cons_append, spansFrom, length?_of_ne hc]
    simp only
    rw [ih hu, List.length_cons, Nat.add_assoc, Nat.add_comm 1]

theorem spansFrom_closeTag {name : Text} (h : IsName name) (p : Nat) (rest : Text) :
    spansFrom p (closeTag name ++ rest) = spansFrom (p + (closeTag name).length) rest := by
  have htext : closeTag name ++ rest = '<' :: ('/' :: name ++ ['>'] ++ rest) := by simp [closeTag]
  rw [htext, spansFrom, List.cons_append, List.cons_append, length?_of_next (by decide) (by decide)]
  simp only
  rw [← List.cons_append, ← List.cons_append, spansFrom_plain (not_lt_of_mem_closeTag h)]
  congr 1
  simp [closeTag]
  omega

theorem spansFrom_commentTag {s : Text} (h : IsComment s) (p : Nat) (rest : Text) :
    spansFrom p (commentTag s ++ rest) =
      ⟨p, p + (commentTag s).length⟩ :: spansFrom (p + (commentTag s).length) rest := by
  have htext : commentTag s ++ rest = '<' :: ((commentTag s).tail ++ rest) := rfl
  rw [htext, spansFrom, ← htext, length?_comment h]
  simp only
  rw [if_pos (by simp [commentTag]), List.drop_left]

/-- No opening tag begins inside an end tag. -/
theorem not_startsTag_closeTag {name nm : Text} (hname : IsName name) (hnm : IsName nm) (rest : Text)
    {j : Nat} (hj : j < (closeTag nm).length) :
    Resolver.startsTag name ((closeTag nm ++ rest).drop j) = false := by
  refine Bool.eq_false_iff.mpr fun hstarts => ?_
  obtain ⟨head, after, htext, hsame, -⟩ := Resolver.startsTag_iff.mp hstarts
  cases j with
  | zero =>
    -- The slash is not the first letter of a name.
    obtain ⟨c, more, rfl, -, hall⟩ := hname.isAttributeName.cons
    cases hsame with
    | @cons _ d _ _ hd _ =>
      obtain rfl : '/' = d := (List.cons.inj (List.cons.inj htext).2).1
      have := of_nameLetters (p := fun c => !Text.sameLetter c '/') (by decide)
        (hall c List.mem_cons_self)
      simp [hd] at this
  | succ j =>
    have hlength : j < ('/' :: nm ++ ['>']).length := by simpa [closeTag] using hj
    have hdrop : (closeTag nm ++ rest).drop (j + 1) = ('/' :: nm ++ ['>']).drop j ++ rest := by
      rw [← List.drop_append_of_le_length (Nat.le_of_lt hlength)]
      rfl
    rw [hdrop, List.drop_eq_getElem_cons hlength] at htext
    exact not_lt_of_mem_closeTag hnm _ (List.getElem_mem hlength) (List.cons.inj htext).1

variable {P : Char → Prop} {Q : Text → Prop} {lag : Text}

/-- In a lag, what looks like an opening tag is hidden by a comment. -/
theorem hidden_of_startsTag (h : Lag P Q lag) {name : Text} (hname : IsName name) (p : Nat)
    (rest : Text) {j : Nat} (hj : j < lag.length)
    (hstarts : Resolver.startsTag name ((lag ++ rest).drop j) = true) :
    ∃ s ∈ spansFrom p (lag ++ rest), s.start ≤ p + j ∧ p + j < s.stop := by
  induction h generalizing p j with
  | nil => cases hj
  | @plain c lag hc _ _ ih =>
    rw [List.cons_append] at hstarts ⊢
    rw [spansFrom, length?_of_ne hc.1]
    cases j with
    | zero =>
      obtain ⟨_, _, htext, -⟩ := Resolver.startsTag_iff.mp hstarts
      exact absurd (List.cons.inj htext).1 hc.1
    | succ j =>
      obtain ⟨s, hs, hstart, hstop⟩ := ih (p + 1) (Nat.lt_of_succ_lt_succ hj) hstarts
      exact ⟨s, hs, by omega, by omega⟩
  | @closing nm lag hnm _ _ ih =>
    rw [List.append_assoc] at hstarts ⊢
    rw [spansFrom_closeTag hnm]
    by_cases hinside : j < (closeTag nm).length
    · rw [not_startsTag_closeTag hname hnm _ hinside] at hstarts
      cases hstarts
    · rw [List.length_append] at hj
      rw [List.drop_append, List.drop_eq_nil_of_le (by omega), List.nil_append] at hstarts
      obtain ⟨s, hs, hstart, hstop⟩ := ih (p + (closeTag nm).length) (by omega) hstarts
      exact ⟨s, hs, by omega, by omega⟩
  | @comment c lag hc _ ih =>
    rw [List.append_assoc] at hstarts ⊢
    rw [spansFrom_commentTag hc]
    by_cases hinside : j < (commentTag c).length
    · exact ⟨_, List.mem_cons_self, by simp, by simpa using hinside⟩
    · rw [List.length_append] at hj
      rw [List.drop_append, List.drop_eq_nil_of_le (by omega), List.nil_append] at hstarts
      obtain ⟨s, hs, hstart, hstop⟩ := ih (p + (commentTag c).length) (by omega) hstarts
      exact ⟨s, List.mem_cons_of_mem _ hs, by omega, by omega⟩

/-- A lag does not hide what follows it. -/
theorem not_hidden_behind_lag (h : Lag P Q lag) (p : Nat) {rest : Text} (hrest : length? rest = none) :
    ∀ s ∈ spansFrom p (lag ++ rest), s.stop ≤ p + lag.length ∨ p + lag.length < s.start := by
  induction h generalizing p with
  | nil =>
    intro s hs
    cases rest with
    | nil =>
      rw [List.nil_append, spansFrom] at hs
      cases hs
    | cons c rest =>
      rw [List.nil_append, spansFrom, hrest] at hs
      exact .inr (spansFrom_bounds s hs).1
  | @plain c lag hc _ _ ih =>
    rw [List.cons_append, spansFrom, length?_of_ne hc.1, List.length_cons, Nat.add_comm lag.length,
      ← Nat.add_assoc]
    exact ih (p + 1)
  | @closing nm lag hnm _ _ ih =>
    rw [List.append_assoc, spansFrom_closeTag hnm, List.length_append, ← Nat.add_assoc]
    exact ih (p + (closeTag nm).length)
  | @comment s lag hs _ ih =>
    rw [List.append_assoc, spansFrom_commentTag hs, List.length_append, ← Nat.add_assoc]
    refine List.forall_mem_cons.mpr ⟨.inl ?_, ih (p + (commentTag s).length)⟩
    exact Nat.le_add_right _ _

end Hidden

/-! ## Opening tags behind a lag -/

namespace Resolver

open Markup

/-- The name of an opening tag ends before the next bracket. -/
theorem length_le_of_startsTag {name : Text} (h : IsName name) {c : Char} {v rest : Text}
    (hstarts : startsTag name (c :: (v ++ '>' :: rest)) = true) : name.length ≤ v.length := by
  obtain ⟨head, after, htext, hsame, -⟩ := startsTag_iff.mp hstarts
  have hhead : '>' ∉ head := by
    intro hmem
    obtain ⟨i, hi, hget⟩ := List.getElem_of_mem hmem
    have hletter := hsame.get (by rw [hsame.length_eq]; exact hi) hi
    have := of_nameLetters (p := fun c => !Text.sameLetter c '>') (by decide)
      (.inl (h.2 _ (List.getElem_mem (show i < name.length by rw [hsame.length_eq]; exact hi))))
    simp_all
  rw [hsame.length_eq]
  rcases List.append_eq_append_iff.mp (List.cons.inj htext).2 with ⟨w, rfl, hw⟩ | ⟨w, rfl, hw⟩
  · cases w with
    | nil => simp
    | cons d w =>
      obtain rfl : '>' = d := (List.cons.inj hw).1
      exact absurd (by simp) hhead
  · simp

/-- Looking for opening tags goes on behind the next bracket. -/
theorem tagStarts_through {name : Text} (h : IsName name) (p skip : Nat) {v : Text}
    (hskip : skip ≤ v.length) (rest : Text) :
    ∃ found, tagStarts name p skip (v ++ '>' :: rest) =
        found ++ tagStarts name (p + v.length + 1) 0 rest ∧
      ∀ o ∈ found, p ≤ o ∧ o < p + v.length + 1 := by
  induction v generalizing p skip with
  | nil =>
    obtain rfl : skip = 0 := Nat.le_zero.mp hskip
    refine ⟨[], ?_, by simp⟩
    rw [List.nil_append, tagStarts, if_neg (by simp [startsTag])]
    rfl
  | cons c v ih =>
    have hnext : ∀ skip, skip ≤ v.length → ∃ found, tagStarts name (p + 1) skip (v ++ '>' :: rest) =
        found ++ tagStarts name (p + (c :: v).length + 1) 0 rest ∧
        ∀ o ∈ found, p ≤ o ∧ o < p + (c :: v).length + 1 := by
      intro skip hskip
      obtain ⟨found, hfound, hbounds⟩ := ih (p + 1) skip hskip
      refine ⟨found, ?_, fun o ho => ?_⟩
      · rw [hfound, List.length_cons]
        congr 2
        omega
      · have := hbounds o ho
        simp only [List.length_cons]
        omega
    cases skip with
    | succ skip => exact hnext skip (Nat.le_of_succ_le_succ hskip)
    | zero =>
      rw [List.cons_append, tagStarts]
      split
      · rename_i hstarts
        obtain ⟨found, hfound, hbounds⟩ := hnext name.length (length_le_of_startsTag h hstarts)
        refine ⟨p :: found, by rw [hfound]; rfl, ?_⟩
        exact List.forall_mem_cons.mpr ⟨⟨Nat.le_refl _, by omega⟩, hbounds⟩
      · exact hnext 0 (Nat.zero_le _)

theorem tagStarts_lag {name : Text} (hname : IsName name) {P : Char → Prop} {Q : Text → Prop}
    {lag : Text} (h : Lag P Q lag) (p : Nat) (rest : Text) :
    ∃ found, tagStarts name p 0 (lag ++ rest) =
        found ++ tagStarts name (p + lag.length) 0 rest ∧
      ∀ o ∈ found, p ≤ o ∧ o < p + lag.length := by
  -- End tags and comments end with a bracket.
  have hcons : ∀ (v lag : Text) (p : Nat),
      (∃ found, tagStarts name (p + (v ++ ['>']).length) 0 (lag ++ rest) =
        found ++ tagStarts name (p + (v ++ ['>']).length + lag.length) 0 rest ∧
        ∀ o ∈ found, p + (v ++ ['>']).length ≤ o ∧ o < p + (v ++ ['>']).length + lag.length) →
      ∃ found, tagStarts name p 0 (v ++ ['>'] ++ lag ++ rest) =
        found ++ tagStarts name (p + (v ++ ['>'] ++ lag).length) 0 rest ∧
        ∀ o ∈ found, p ≤ o ∧ o < p + (v ++ ['>'] ++ lag).length := by
    rintro v lag p ⟨found', hfound', hbounds'⟩
    obtain ⟨found, hfound, hbounds⟩ :=
      tagStarts_through hname p 0 (Nat.zero_le v.length) (lag ++ rest)
    have htext : v ++ ['>'] ++ lag ++ rest = v ++ '>' :: (lag ++ rest) := by simp
    have htotal : p + (v ++ ['>'] ++ lag).length = p + v.length + 1 + lag.length := by
      simp only [List.length_append, List.length_cons, List.length_nil]
      omega
    rw [List.length_append, List.length_singleton, ← Nat.add_assoc] at hfound' hbounds'
    rw [htext, htotal]
    refine ⟨found ++ found', by rw [hfound, hfound', List.append_assoc], fun o ho => ?_⟩
    rcases List.mem_append.mp ho with ho | ho
    · have := hbounds o ho
      omega
    · have := hbounds' o ho
      omega
  induction h generalizing p with
  | nil => exact ⟨[], rfl, by simp⟩
  | @plain c lag hc _ _ ih =>
    have hnot : startsTag name (c :: (lag ++ rest)) = false := by
      refine Bool.eq_false_iff.mpr fun hstarts => ?_
      obtain ⟨_, _, htext, -⟩ := startsTag_iff.mp hstarts
      exact hc.1 (List.cons.inj htext).1
    obtain ⟨found, hfound, hbounds⟩ := ih (p + 1)
    refine ⟨found, ?_, fun o ho => ?_⟩
    · rw [List.cons_append, tagStarts, hnot, if_neg Bool.false_ne_true, hfound, List.length_cons,
        Nat.add_comm lag.length, ← Nat.add_assoc]
    · have := hbounds o ho
      rw [List.length_cons]
      omega
  | @closing nm lag hnm _ _ ih => exact hcons ('<' :: '/' :: nm) lag p (ih _)
  | @comment s lag hs _ ih =>
    have htag : commentTag s = '<' :: '!' :: '-' :: '-' :: s ++ ['-', '-'] ++ ['>'] := by
      simp [commentTag]
    rw [htag]
    exact hcons _ lag p (ih _)

end Resolver

/-! ## Places in a lag -/

namespace Markup.Lag

variable {P : Char → Prop} {Q : Text → Prop} {lag : Text}

/-- From a place that is not hidden, what is left of a lag is a lag, if its characters may be any. -/
theorem drop_visible (hP : ∀ c, P c) (h : Lag P Q lag) (p : Nat) (rest : Text) {i : Nat}
    (hi : i ≤ lag.length)
    (hvisible : ∀ s ∈ Hidden.spansFrom p (lag ++ rest), ¬(s.start ≤ p + i ∧ p + i < s.stop)) :
    Lag P Q (lag.drop i) := by
  induction h generalizing p i with
  | nil =>
    rw [List.drop_nil]
    exact .nil
  | @plain c lag hc hPc h ih =>
    cases i with
    | zero => exact .plain hc hPc h
    | succ i =>
      refine ih (p + 1) (Nat.le_of_succ_le_succ hi) fun s hs hin => hvisible s ?_ (by omega)
      rwa [List.cons_append, Hidden.spansFrom, Hidden.length?_of_ne hc.1]
  | @closing nm lag hnm hQ h ih =>
    rw [List.append_assoc, Hidden.spansFrom_closeTag hnm] at hvisible
    rw [List.length_append] at hi
    by_cases hinside : i < (closeTag nm).length
    · rw [List.drop_append_of_le_length (Nat.le_of_lt hinside)]
      cases i with
      | zero => exact .closing hnm hQ h
      | succ i =>
        refine Lag.append (of_plain fun c hc => ⟨?_, hP c⟩) h
        have hmem : c ∈ '/' :: nm ++ ['>'] := (List.drop_sublist i _).subset hc
        refine ⟨not_lt_of_mem_closeTag hnm c hmem, ?_⟩
        rcases List.mem_append.mp hmem with hmem | hmem
        · rcases List.mem_cons.mp hmem with rfl | hmem
          · decide
          · exact ne_of_nameLetter (.inl (hnm.2 c hmem)) (by decide)
        · rw [List.mem_singleton.mp hmem]
          decide
    · rw [List.drop_append, List.drop_eq_nil_of_le (by omega), List.nil_append]
      exact ih (p + (closeTag nm).length) (by omega) fun s hs hin => hvisible s hs (by omega)
  | @comment c lag hc h ih =>
    rw [List.append_assoc, Hidden.spansFrom_commentTag hc] at hvisible
    rw [List.length_append] at hi
    by_cases hinside : i < (commentTag c).length
    · exact absurd ⟨Nat.le_add_right p i, by simpa using hinside⟩ (hvisible _ List.mem_cons_self)
    · rw [List.drop_append, List.drop_eq_nil_of_le (by omega), List.nil_append]
      exact ih (p + (commentTag c).length) (by omega) fun s hs hin =>
        hvisible s (List.mem_cons_of_mem _ hs) (by omega)

/-- What stands at the beginning of a lag before the first bracket. -/
theorem prefix_plain (h : Lag P Q lag) (hlast : lag.getLast? = some '>') {t rest : Text}
    (ht : Text.Bracketless t) (hpre : t <+: lag ++ rest) : ∀ c ∈ t, c ≠ '&' ∧ P c := by
  obtain ⟨v, rfl⟩ := List.getLast?_eq_some_iff.mp hlast
  rw [List.append_assoc, List.singleton_append] at hpre
  obtain ⟨w, hw⟩ := Text.prefix_of_not_mem hpre fun hmem => (ht _ hmem).2 rfl
  rw [← hw, List.append_assoc] at h
  exact (h.drop_plain fun c hc => (ht c hc).1).1

/-- What stands at a place of a lag that is not hidden, up to the next bracket: plain characters or a part
of an end tag. -/
theorem stretch (h : Lag P Q lag) (hlast : lag.getLast? = some '>') (p : Nat) {rest : Text} {i : Nat}
    (hi : i < lag.length)
    (hvisible : ∀ s ∈ Hidden.spansFrom p (lag ++ rest), ¬(s.start ≤ p + i ∧ p + i < s.stop))
    {t : Text} (ht : Text.Bracketless t) (hpre : t <+: (lag ++ rest).drop i) :
    (∀ c ∈ t, c ≠ '&' ∧ P c) ∨ ∃ name, IsName name ∧ Q name ∧ t <:+: closeTag name := by
  -- What follows the first construct of a lag ends as the lag does.
  have hbehind : ∀ {u lag : Text} {i : Nat}, (u ++ lag).getLast? = some '>' → u.length ≤ i →
      i < (u ++ lag).length → lag.getLast? = some '>' := by
    intro u lag i hlast hle hlt
    rw [List.length_append] at hlt
    have hne : lag ≠ [] := List.length_pos_iff.mp (by omega)
    rwa [List.getLast?_append_of_ne_nil _ hne] at hlast
  induction h generalizing p i with
  | nil => cases hi
  | @plain c lag hc hPc h ih =>
    cases i with
    | zero => exact .inl ((Lag.plain hc hPc h).prefix_plain hlast ht hpre)
    | succ i =>
      have hlast : lag.getLast? = some '>' := hbehind (u := [c]) hlast (by simp) hi
      refine ih hlast (p + 1) (Nat.lt_of_succ_lt_succ hi) (fun s hs hin => hvisible s ?_ (by omega)) hpre
      rwa [List.cons_append, Hidden.spansFrom, Hidden.length?_of_ne hc.1]
  | @closing nm lag hnm hQ h ih =>
    rw [List.append_assoc, Hidden.spansFrom_closeTag hnm] at hvisible
    rw [List.append_assoc] at hpre
    by_cases hinside : i < (closeTag nm).length
    · refine .inr ⟨nm, hnm, hQ, ?_⟩
      rw [List.drop_append_of_le_length (Nat.le_of_lt hinside)] at hpre
      have hend : (closeTag nm).drop i = ('<' :: '/' :: nm).drop i ++ ['>'] := by
        rw [closeTag, List.drop_append_of_le_length]
        simpa [closeTag] using Nat.le_of_lt_succ hinside
      rw [hend, List.append_assoc, List.singleton_append] at hpre
      have hpart := Text.prefix_of_not_mem hpre fun hmem => (ht _ hmem).2 rfl
      refine hpart.isInfix.trans ((List.drop_suffix i _).isInfix.trans ?_)
      exact (List.prefix_append ('<' :: '/' :: nm) ['>']).isInfix
    · have hlast : lag.getLast? = some '>' := hbehind hlast (by omega) hi
      rw [List.length_append] at hi
      rw [List.drop_append, List.drop_eq_nil_of_le (by omega), List.nil_append] at hpre
      exact ih hlast (p + (closeTag nm).length) (by omega)
        (fun s hs hin => hvisible s hs (by omega)) hpre
  | @comment c lag hc h ih =>
    rw [List.append_assoc, Hidden.spansFrom_commentTag hc] at hvisible
    rw [List.append_assoc] at hpre
    by_cases hinside : i < (commentTag c).length
    · exact absurd ⟨Nat.le_add_right p i, by simpa using hinside⟩ (hvisible _ List.mem_cons_self)
    · have hlast : lag.getLast? = some '>' := hbehind hlast (by omega) hi
      rw [List.length_append] at hi
      rw [List.drop_append, List.drop_eq_nil_of_le (by omega), List.nil_append] at hpre
      exact ih hlast (p + (commentTag c).length) (by omega)
        (fun s hs hin => hvisible s (List.mem_cons_of_mem _ hs) (by omega)) hpre

end Markup.Lag

end Untranslated
