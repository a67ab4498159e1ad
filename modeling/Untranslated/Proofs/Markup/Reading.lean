import Untranslated.Proofs.Markup.Basic

/-!
# Reading compact markup

Markup is read as what it was written from: each token is one event (`read_tokens`). This holds of all
legible tokens, whether or not the tags fit together.
-/

namespace Untranslated

/-! ## Letters of names -/

namespace Markup

/-- The characters of element names. -/
def nameLetters : Text := "abcdefghijklmnopqrstuvwxyz0123456789".toList

theorem mem_nameLetters {c : Char} (h : isNameLetter c = true) : c ∈ nameLetters := by
  have hsmall : ∀ n < 123, 97 ≤ n → Char.ofNat n ∈ nameLetters := by decide
  have hdigit : ∀ n < 58, 48 ≤ n → Char.ofNat n ∈ nameLetters := by decide
  simp only [isNameLetter, isSmall, Text.isDigit, Bool.or_eq_true, Bool.and_eq_true,
    decide_eq_true_eq] at h
  rw [← Char.ofNat_toNat c]
  rcases h with ⟨hlo, hhi⟩ | ⟨hlo, hhi⟩
  · exact hsmall c.toNat (Nat.lt_succ_of_le hhi) hlo
  · exact hdigit c.toNat (Nat.lt_succ_of_le hhi) hlo

theorem isLetter_of_isSmall {c : Char} (h : isSmall c = true) : Text.isLetter c = true := by
  simp only [isSmall] at h
  rw [Text.isLetter, h, Bool.true_or]

theorem IsName.isAttributeName {s : Text} (h : IsName s) : IsAttributeName s :=
  ⟨h.1, fun c hc => .inl (h.2 c hc)⟩

/-- A name begins with a small letter. -/
theorem IsAttributeName.cons {s : Text} (h : IsAttributeName s) :
    ∃ c rest, s = c :: rest ∧ isSmall c = true ∧ ∀ d ∈ c :: rest, isNameLetter d = true ∨ d = '-' := by
  obtain ⟨⟨c, hc, hsmall⟩, hall⟩ := h
  cases s with
  | nil => cases hc
  | cons d rest =>
    cases hc
    exact ⟨c, rest, rfl, hsmall, hall⟩

theorem IsComment.tail {c : Char} {s : Text} (h : IsComment (c :: s)) : IsComment s := by
  refine ⟨fun hin => h.no_dashes (hin.trans (List.suffix_cons c s).isInfix), fun hlast => ?_⟩
  cases s with
  | nil => cases hlast
  | cons d s => exact h.last (by simpa using hlast)

/-- A dash in a comment is followed by something else than a dash. -/
theorem IsComment.behind_dash {s : Text} (h : IsComment ('-' :: s)) :
    ∃ d rest, s = d :: rest ∧ d ≠ '-' := by
  cases s with
  | nil => exact absurd rfl h.last
  | cons d rest => exact ⟨d, rest, rfl, fun hd => h.no_dashes ⟨[], rest, by simp [hd]⟩⟩

theorem openTag_append (name : Text) (attributes : List (Text × Text)) (rest : Text) :
    openTag name attributes ++ rest =
      '<' :: name ++ (renderAttributes attributes ++ '>' :: rest) := by
  simp [openTag]

/-- What is checked for all characters of names holds for each. -/
theorem of_nameLetters {p : Char → Bool} (hall : ('-' :: nameLetters).all p = true) {c : Char}
    (h : isNameLetter c = true ∨ c = '-') : p c = true := by
  refine List.all_eq_true.mp hall c ?_
  rcases h with h | rfl
  · exact List.mem_cons_of_mem _ (mem_nameLetters h)
  · exact List.mem_cons_self

theorem ne_of_nameLetter {c d : Char} (h : isNameLetter c = true ∨ c = '-')
    (hd : (('-' :: nameLetters).all (· != d)) = true) : c ≠ d := by
  simpa using of_nameLetters hd h

theorem isSpace_of_nameLetter {c : Char} (h : isNameLetter c = true ∨ c = '-') :
    Text.isSpace c = false := by
  simpa using of_nameLetters (p := fun c => !Text.isSpace c) (by decide) h

/-- Names are in lower case. -/
theorem lower_eq_self {s : Text} (h : ∀ c ∈ s, isNameLetter c = true ∨ c = '-') :
    Text.lower s = s := by
  have hlower : ∀ before, Text.lowerAfter before s = s := by
    induction s with
    | nil => exact fun _ => rfl
    | cons c rest ih =>
      intro before
      obtain ⟨hc, hrest⟩ := List.forall_mem_cons.mp h
      have hself := of_nameLetters (p := fun c =>
        c.toNat != 0x3A3 && c.toNat != 0x130 && Text.lowerChar c == c) (by decide) hc
      simp only [Bool.and_eq_true, bne_iff_ne, ne_eq, beq_iff_eq] at hself
      rw [Text.lowerAfter, if_neg hself.1.1, if_neg hself.1.2, hself.2, ih hrest]
      rfl
  exact hlower []

/-! ## Values -/

theorem IsTag.isOpening {name : Text} {attributes : List (Text × Text)} (h : IsTag name attributes) :
    IsOpening name attributes where
  is_name := h.is_name
  not_verbatim := h.not_verbatim
  attribute_name := h.attribute_name
  no_quote a ha c hc := (h.attribute_value a ha c hc).1
  readable a ha := Reference.overlong?_eq_none fun c hc => (h.attribute_value a ha c hc).2

/-- Values without references are what they are written as. -/
theorem decoded_eq_self {attributes : List (Text × Text)} (h : ∀ a ∈ attributes, IsValue a.2) :
    decoded attributes = attributes := by
  refine (List.map_congr_left fun a ha => ?_).trans (List.map_id attributes)
  simp only [Reference.decode_eq_self fun c hc => (h a ha c hc).2, id]

theorem IsText.isRun {s : Text} (h : IsText s) : IsRun s := by
  refine ⟨fun hnil => ?_, h.plain⟩
  rw [hnil] at h
  cases h.visible

theorem Token.WellFormed.isLegible {t : Token} (h : t.WellFormed) : t.IsLegible := by
  match t with
  | .opening _ _ => exact IsTag.isOpening h
  | .closing _ => exact h.1
  | .comment _ => exact h
  | .text _ => exact IsText.isRun h

end Markup

namespace Text

/-- A cut at a character that is not in the first part. -/
theorem cutAt?_append {c : Char} {s : Text} (h : ∀ d ∈ s, d ≠ c) (rest : Text) :
    cutAt? c (s ++ c :: rest) = some (s, rest) := by
  induction s with
  | nil => simp [cutAt?]
  | cons d s ih =>
    obtain ⟨hd, hs⟩ := List.forall_mem_cons.mp h
    rw [List.cons_append, cutAt?, if_neg hd, ih hs]
    rfl

end Text

/-! ## One token -/

namespace Event

open Markup

theorem step_text {s : Text} (h : IsRun s) {rest : Text} (hrest : ∀ c ∈ rest.head?, c = '<') :
    step false none (s ++ rest) = .next [.text s] none rest := by
  have hspan : Text.span (fun c => c != '<' && c != '&') (s ++ rest) = (s, rest) := by
    refine Text.span_append (fun c hc => ?_) (fun c hc => ?_)
    · simp [h.plain c hc]
    · simp [hrest c hc]
  obtain ⟨c, more, rfl⟩ := List.exists_cons_of_ne_nil h.ne_nil
  obtain ⟨hlt, hamp⟩ := h.plain c List.mem_cons_self
  unfold step
  simp only
  split
  · rename_i heq
    exact absurd (List.cons.inj heq).1 hlt
  · rename_i heq
    exact absurd (List.cons.inj heq).1 hamp
  · rw [hspan]
    rfl

theorem step_closing {name : Text} (h : IsName name) (rest : Text) :
    step false none (closeTag name ++ rest) = .next [.endTag name] none rest := by
  have hcut : Text.cutAt? '>' (name ++ '>' :: rest) = some (name, rest) := by
    exact Text.cutAt?_append (fun c hc => ne_of_nameLetter (.inl (h.2 c hc)) (by decide)) rest
  obtain ⟨c, more, rfl, hsmall, hall⟩ := h.isAttributeName.cons
  have hname : readEndTag? (c :: more ++ '>' :: rest) = some (c :: more, rest) := by
    have hspace := isSpace_of_nameLetter (hall c List.mem_cons_self)
    have hmore : ∀ d ∈ more, (Text.isLetterOrDigit d || d == '-' || d == '.' || d == ':' || d == '_') =
        true := fun d hd =>
      of_nameLetters (p := fun d => Text.isLetterOrDigit d || d == '-' || d == '.' || d == ':' ||
        d == '_') (by decide) (hall d (List.mem_cons_of_mem _ hd))
    rw [readEndTag?, List.cons_append, List.dropWhile_cons_of_neg (by simp [hspace])]
    simp only [if_pos (isLetter_of_isSmall hsmall)]
    rw [Text.span_append hmore (by rintro d ⟨⟩; decide)]
    simp only
    rw [List.dropWhile_cons_of_neg (by decide), lower_eq_self hall]
    rfl
  have hstep : step false none (closeTag (c :: more) ++ rest) =
      stepEndTag false none ('<' :: '/' :: (c :: more ++ '>' :: rest)) := by
    simp [closeTag, step, stepMarkup]
  rw [hstep, stepEndTag]
  simp only [List.drop_succ_cons, List.drop_zero, hcut, hname]

/-- A comment ends at the first two dashes. -/
theorem cutAtCommentEnd?_append {s : Text} (h : IsComment s) (rest : Text) :
    cutAtCommentEnd? (s ++ '-' :: '-' :: '>' :: rest) = some (s, rest) := by
  induction s with
  | nil =>
    rw [List.nil_append, cutAtCommentEnd?, List.dropWhile_cons_of_neg (by decide)]
    rfl
  | cons c s ih =>
    rw [List.cons_append, cutAtCommentEnd?, ih h.tail]
    · rfl
    · rintro after rfl hdash
      obtain ⟨d, s, rfl, hd⟩ := h.behind_dash
      exact hd (List.cons.inj hdash).1

theorem step_comment {s : Text} (h : IsComment s) (rest : Text) :
    step false none (commentTag s ++ rest) = .next [.leaf .comment s] none rest := by
  simp [commentTag, step, stepMarkup, readDeclaration, cutAtCommentEnd?_append h]

/-- A value in double quotes. -/
theorem readValue?_quoted {v : Text} (h : ∀ c ∈ v, c ≠ '"') (rest : Text) :
    readValue? ('=' :: '"' :: v ++ '"' :: rest) = some (v, rest) := by
  have hsigns : Text.span (· == '=') ('=' :: '"' :: (v ++ '"' :: rest)) =
      (['='], '"' :: (v ++ '"' :: rest)) :=
    Text.span_append (s := ['=']) (by simp) (by rintro c ⟨⟩; decide)
  have hblank : Text.span Text.isSpace ('"' :: (v ++ '"' :: rest)) = ([], '"' :: (v ++ '"' :: rest)) :=
    Text.span_append (s := []) (by simp) (by rintro c ⟨⟩; decide)
  have hcut : Text.cutAt? '"' (v ++ '"' :: rest) = some (v, rest) :=
    Text.cutAt?_append h rest
  rw [readValue?, List.cons_append, List.cons_append, List.dropWhile_cons_of_neg (by decide)]
  simp only [hsigns, hblank, hcut]
  rfl

theorem length_skipGap_le (prev : Char) (s : Text) : (skipGap prev s).2.length ≤ s.length := by
  induction s generalizing prev with
  | nil => exact Nat.le_refl _
  | cons c rest ih =>
    rw [skipGap]
    split
    · exact Nat.le_succ_of_le (ih c)
    · split
      · exact Nat.le_succ_of_le (ih c)
      · exact Nat.le_refl _

/-- The attributes of an opening tag are read as they were written. -/
theorem readAttributes_render {attributes : List (Text × Text)}
    (hname : ∀ a ∈ attributes, IsAttributeName a.1)
    (hvalue : ∀ a ∈ attributes, ∀ c ∈ a.2, c ≠ '"') (prev : Char) (rest : Text) :
    readAttributes (skipGap prev (renderAttributes attributes ++ '>' :: rest)).1
        (skipGap prev (renderAttributes attributes ++ '>' :: rest)).2 =
      (attributes, '>' :: rest) := by
  induction attributes generalizing prev with
  | nil =>
    have hgap : skipGap prev ('>' :: rest) = (prev, '>' :: rest) := by
      simp [skipGap, show Text.isSpace '>' = false by decide]
    simp only [renderAttributes, List.flatMap_nil, List.nil_append, hgap]
    rw [readAttributes]
    simp
  | cons a attributes ih =>
    obtain ⟨k, v⟩ := a
    obtain ⟨hk, hnames⟩ := List.forall_mem_cons.mp hname
    obtain ⟨hv, hvalues⟩ := List.forall_mem_cons.mp hvalue
    obtain ⟨c, more, rfl, -, hall⟩ := IsAttributeName.cons hk
    have hc := hall c List.mem_cons_self
    have ih := ih hnames hvalues
    generalize htail : renderAttributes attributes ++ '>' :: rest = tail at ih
    have hwhole : renderAttributes ((c :: more, v) :: attributes) ++ '>' :: rest =
        ' ' :: c :: (more ++ ('=' :: '"' :: v ++ '"' :: tail)) := by
      rw [← htail]
      simp [renderAttributes, pair]
    have hspace : Text.isSpace c = false := isSpace_of_nameLetter hc
    have hslash : c ≠ '/' := ne_of_nameLetter hc (by decide)
    have hbracket : c ≠ '>' := ne_of_nameLetter hc (by decide)
    have hgap : skipGap prev (' ' :: c :: (more ++ ('=' :: '"' :: v ++ '"' :: tail))) =
        (' ', c :: (more ++ ('=' :: '"' :: v ++ '"' :: tail))) := by
      rw [skipGap, if_pos (by decide), skipGap, if_neg (by simp [hspace]), if_neg (by simp [hslash])]
    have hspan : Text.span (fun d => !Text.isSpace d && d != '/' && d != '=' && d != '>')
        (more ++ ('=' :: '"' :: v ++ '"' :: tail)) = (more, '=' :: '"' :: v ++ '"' :: tail) := by
      refine Text.span_append (fun d hd => ?_) (by rintro d ⟨⟩; decide)
      exact of_nameLetters (p := fun d => !Text.isSpace d && d != '/' && d != '=' && d != '>')
        (by decide) (hall d (List.mem_cons_of_mem _ hd))
    rw [hwhole, hgap, readAttributes,
      if_pos (by simp [hspace, hslash, hbracket, precedesAttribute]; decide)]
    simp only [hspan, readValue?_quoted hv, Option.getD_some]
    generalize Option.getD _ c = last
    have hlength := length_skipGap_le last tail
    have ih := ih last
    generalize skipGap last tail = gap at hlength ih
    obtain ⟨last', tail'⟩ := gap
    simp only at hlength ih ⊢
    rw [if_pos (by simp only [List.length_append, List.length_cons]; omega), ih, lower_eq_self hall]

theorem readTag_openTag {name : Text} {attributes : List (Text × Text)} (h : IsOpening name attributes)
    (rest : Text) :
    readTag (name ++ (renderAttributes attributes ++ '>' :: rest)) =
      .tag name (decoded attributes) false rest := by
  have hspan : Text.span (fun c => !endsTagName c)
        (name ++ (renderAttributes attributes ++ '>' :: rest)) =
      (name, renderAttributes attributes ++ '>' :: rest) := by
    refine Text.span_append (fun c hc => ?_) ?_
    · exact of_nameLetters (p := fun c => !endsTagName c) (by decide) (.inl (h.is_name.2 c hc))
    · cases attributes with
      | nil => rintro c ⟨⟩; decide
      | cons a attributes => rintro c ⟨⟩; decide
  have hoverlong : (attributes.findSome? fun a => Reference.overlong? a.2) = none :=
    List.findSome?_eq_none_iff.mpr h.readable
  have hattributes := readAttributes_render h.attribute_name h.no_quote (name.getLast?.getD '<') rest
  rw [readTag, hspan]
  simp only
  generalize skipGap _ _ = gap at hattributes
  obtain ⟨last, tail⟩ := gap
  simp only at hattributes ⊢
  rw [hattributes]
  simp only [readTag.decoded, hoverlong, decoded]
  rw [lower_eq_self fun c hc => .inl (h.is_name.2 c hc)]

theorem step_opening {name : Text} {attributes : List (Text × Text)} (h : IsOpening name attributes)
    (rest : Text) :
    step false none (openTag name attributes ++ rest) =
      .next [.startTag name (decoded attributes)] none rest := by
  have hread := readTag_openTag h rest
  rw [openTag_append, List.cons_append]
  obtain ⟨c, more, rfl, hsmall, -⟩ := h.is_name.isAttributeName.cons
  rw [List.cons_append] at hread ⊢
  show stepMarkup false none ('<' :: c :: _) = _
  unfold stepMarkup
  split
  · rename_i heq
    exact absurd ((List.cons.inj (List.cons.inj heq).2).1 ▸ hsmall) (by decide)
  · rename_i heq
    exact absurd ((List.cons.inj (List.cons.inj heq).2).1 ▸ hsmall) (by decide)
  · rename_i heq
    exact absurd ((List.cons.inj (List.cons.inj heq).2).1 ▸ hsmall) (by decide)
  · rename_i heq
    obtain ⟨rfl, rfl⟩ := List.cons.inj (List.cons.inj heq).2
    rw [if_pos (isLetter_of_isSmall hsmall), hread]
    simp only [if_neg h.not_verbatim]
  · rename_i hne
    exact absurd rfl (hne c _)

/-- What is not a text begins with a bracket. -/
theorem head?_renderAll {ts : List Token} (h : ∀ t ∈ ts.head?, t.isText = false) :
    ∀ c ∈ (Token.renderAll ts).head?, c = '<' := by
  intro c hc
  match ts with
  | [] => cases hc
  | .opening _ _ :: _ | .closing _ :: _ | .comment _ :: _ => cases hc; rfl
  | .text s :: _ => cases h _ rfl

/-- The first step at a token reads it, if no text follows a text. -/
theorem step_token {t : Token} {ts : List Token} (h : Token.Spaced Token.IsLegible (t :: ts)) :
    step false none (t.render ++ Token.renderAll ts) = .next [t.event] none (Token.renderAll ts) := by
  obtain ⟨ht, hnext, hts⟩ := h
  match t with
  | .opening name attributes => exact step_opening ht _
  | .closing name => exact step_closing ht _
  | .comment s => exact step_comment ht _
  | .text s => exact step_text ht (head?_renderAll (hnext rfl))

theorem render_ne_nil {t : Token} (h : t.IsLegible) : t.render ≠ [] := by
  match t with
  | .opening _ _ | .closing _ | .comment _ => exact List.cons_ne_nil _ _
  | .text s => exact h.ne_nil

theorem pass_tokens {ts : List Token} (h : Token.Spaced Token.IsLegible ts) :
    pass false none (Token.renderAll ts) = .ok (ts.map Token.event, none, []) := by
  induction ts with
  | nil => rw [pass]; rfl
  | cons t ts ih =>
    have hpos := List.length_pos_iff.mpr (render_ne_nil h.1)
    have hne : (t.render ++ Token.renderAll ts).isEmpty = false := by
      rw [List.isEmpty_eq_false_iff]
      exact List.append_ne_nil_of_left_ne_nil (render_ne_nil h.1) _
    rw [Token.renderAll_cons, pass, hne, step_token h]
    simp only [Bool.false_eq_true, if_false]
    rw [if_pos (by rw [List.length_append]; omega), ih h.2.2]
    rfl

/-- Each token is read as its event. -/
theorem read_tokens {ts : List Token} (h : Token.Spaced Token.IsLegible ts) :
    read (Token.renderAll ts) = .ok (ts.map Token.event) := by
  have hrest : pass true none [] = .ok ([], none, []) := by rw [pass]; rfl
  simp [read, pass_tokens h, hrest, Bind.bind, Except.bind, Pure.pure, Except.pure, textEvents]

end Event

end Untranslated
