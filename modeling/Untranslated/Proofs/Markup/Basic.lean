import Mathlib.Data.List.Infix
import Untranslated.Proofs.Locate.Independence
import Untranslated.Proofs.Walk

/-!
# Compact markup

`Markup` is markup as a careful author writes it: every element has an opening and an end tag, names
are in lower case, values stand in double quotes and hold no references. Its texts may still look like
tags, and its values may hold anything, even what begins a comment.

* `Markup.render` writes it down.
* `Markup.WellFormed` says which names, values, comments and texts are meant.
* `Markup.tree` is the document that it stands for, and `Markup.written` lists the strings of that
  document that may need translation, each with the range at which it was written.
* `Markup.tokens` cuts it into tags, comments and texts. Other markup is given by what its tokens are, as
  pieces (`Markup.EachAll`) or as tokens in any order (`Token.Spaced`).
-/

namespace Untranslated

/-- A piece of markup. -/
inductive Markup where
  | element (name : Text) (attributes : List (Text × Text)) (children : List Markup)
  | comment (s : Text)
  | text (s : Text)
  deriving Repr, Inhabited

namespace Markup

/-! ## Writing -/

/-- An attribute with the blank before it. -/
def pair (k v : Text) : Text := ' ' :: k ++ '=' :: '"' :: v ++ ['"']

/-- The attributes of an opening tag. -/
def renderAttributes (attributes : List (Text × Text)) : Text :=
  attributes.flatMap fun (k, v) => pair k v

/-- An opening tag. -/
def openTag (name : Text) (attributes : List (Text × Text)) : Text :=
  '<' :: name ++ renderAttributes attributes ++ ['>']

/-- An end tag. -/
def closeTag (name : Text) : Text := '<' :: '/' :: name ++ ['>']

/-- A comment. -/
def commentTag (s : Text) : Text := '<' :: '!' :: '-' :: '-' :: s ++ ['-', '-', '>']

mutual

/-- A piece of markup as it is written. -/
def render : Markup → Text
  | .element name attributes children =>
    openTag name attributes ++ renderAll children ++ closeTag name
  | .comment s => commentTag s
  | .text s => s

/-- Pieces of markup written one after the other. -/
def renderAll : List Markup → Text
  | [] => []
  | m :: ms => render m ++ renderAll ms

end

/-! ## Well-formedness -/

/-- Small ASCII letters. -/
def isSmall (c : Char) : Bool := 'a' ≤ c && c ≤ 'z'

/-- Small letters and digits. -/
def isNameLetter (c : Char) : Bool := isSmall c || Text.isDigit c

/-- Element names: small letters and digits, a letter first. -/
def IsName (s : Text) : Prop := (∃ c ∈ s.head?, isSmall c = true) ∧ ∀ c ∈ s, isNameLetter c = true

/-- Attribute names: small letters, digits and dashes, a letter first. -/
def IsAttributeName (s : Text) : Prop :=
  (∃ c ∈ s.head?, isSmall c = true) ∧ ∀ c ∈ s, isNameLetter c = true ∨ c = '-'

/-- Attribute values: no double quote and no ampersand. -/
def IsValue (s : Text) : Prop := ∀ c ∈ s, c ≠ '"' ∧ c ≠ '&'

/-- The name and the attributes of an element: the element has content and is not read verbatim, and
its attributes have different names. -/
structure IsTag (name : Text) (attributes : List (Text × Text)) : Prop where
  is_name : IsName name
  not_void : name ∉ Document.voidElements
  not_verbatim : name ∉ Event.verbatimElements
  attribute_name : ∀ a ∈ attributes, IsAttributeName a.1
  attribute_value : ∀ a ∈ attributes, IsValue a.2
  nodup : (attributes.map Prod.fst).Nodup

/-- What the name and the attributes of an opening tag need to be read as they are written. -/
structure IsOpening (name : Text) (attributes : List (Text × Text)) : Prop where
  is_name : IsName name
  not_verbatim : name ∉ Event.verbatimElements
  attribute_name : ∀ a ∈ attributes, IsAttributeName a.1
  no_quote : ∀ a ∈ attributes, ∀ c ∈ a.2, c ≠ '"'
  readable : ∀ a ∈ attributes, Reference.overlong? a.2 = none

/-- Comments: no two dashes in a row, and no dash at the end. -/
structure IsComment (s : Text) : Prop where
  no_dashes : ¬ ['-', '-'] <:+: s
  last : s.getLast? ≠ some '-'

/-- Texts: neither a tag nor a reference can begin, and something other than plain space is there. -/
structure IsText (s : Text) : Prop where
  plain : ∀ c ∈ s, c ≠ '<' ∧ c ≠ '&'
  visible : Document.isPlainSpace s = false

/-- Runs of text: neither a tag nor a reference can begin. -/
structure IsRun (s : Text) : Prop where
  ne_nil : s ≠ []
  plain : ∀ c ∈ s, c ≠ '<' ∧ c ≠ '&'

/-- Whether a piece is a text. -/
def isText : Markup → Bool
  | .text _ => true
  | _ => false

mutual

/-- All names, values, comments and texts are of the right form, and no text follows another. -/
def WellFormed : Markup → Prop
  | .element name attributes children => IsTag name attributes ∧ WellFormedAll children
  | .comment s => IsComment s
  | .text s => IsText s

/-- All pieces are well formed, and no text follows another. -/
def WellFormedAll : List Markup → Prop
  | [] => True
  | m :: ms =>
    WellFormed m ∧ (m.isText = true → ∀ n ∈ ms.head?, n.isText = false) ∧ WellFormedAll ms

end

instance decidableIsName (s : Text) : Decidable (IsName s) :=
  decidable_of_iff (s.head?.any isSmall = true ∧ s.all isNameLetter = true) (by
    cases s <;> simp [IsName])

instance decidableIsAttributeName (s : Text) : Decidable (IsAttributeName s) :=
  decidable_of_iff
    (s.head?.any isSmall = true ∧ (s.all fun c => isNameLetter c || c == '-') = true)
    (by cases s <;> simp [IsAttributeName])

instance decidableIsValue (s : Text) : Decidable (IsValue s) :=
  decidable_of_iff ((s.all fun c => c != '"' && c != '&') = true) (by simp [IsValue])

instance decidableIsTag (name : Text) (attributes : List (Text × Text)) :
    Decidable (IsTag name attributes) :=
  decidable_of_iff (IsName name ∧ name ∉ Document.voidElements ∧ name ∉ Event.verbatimElements ∧
      (attributes.all fun a => decide (IsAttributeName a.1) && decide (IsValue a.2)) = true ∧
      (attributes.map Prod.fst).Nodup) (by
    simp only [List.all_eq_true, Bool.and_eq_true, decide_eq_true_eq]
    exact ⟨fun ⟨h₁, h₂, h₃, h₄, h₅⟩ =>
        ⟨h₁, h₂, h₃, fun a ha => (h₄ a ha).1, fun a ha => (h₄ a ha).2, h₅⟩,
      fun h => ⟨h.is_name, h.not_void, h.not_verbatim,
        fun a ha => ⟨h.attribute_name a ha, h.attribute_value a ha⟩, h.nodup⟩⟩)

instance decidableIsOpening (name : Text) (attributes : List (Text × Text)) :
    Decidable (IsOpening name attributes) :=
  decidable_of_iff (IsName name ∧ name ∉ Event.verbatimElements ∧
      (attributes.all fun a => decide (IsAttributeName a.1) && a.2.all (· != '"') &&
        (Reference.overlong? a.2).isNone) = true) (by
    simp only [List.all_eq_true, Bool.and_eq_true, decide_eq_true_eq, bne_iff_ne, Option.isNone_iff_eq_none]
    exact ⟨fun ⟨h₁, h₂, h₃⟩ =>
        ⟨h₁, h₂, fun a ha => (h₃ a ha).1.1, fun a ha => (h₃ a ha).1.2, fun a ha => (h₃ a ha).2⟩,
      fun h => ⟨h.is_name, h.not_verbatim,
        fun a ha => ⟨⟨h.attribute_name a ha, h.no_quote a ha⟩, h.readable a ha⟩⟩⟩)

instance decidableIsComment (s : Text) : Decidable (IsComment s) :=
  decidable_of_iff (¬ ['-', '-'] <:+: s ∧ s.getLast? ≠ some '-')
    ⟨fun h => ⟨h.1, h.2⟩, fun h => ⟨h.no_dashes, h.last⟩⟩

instance decidableIsText (s : Text) : Decidable (IsText s) :=
  decidable_of_iff ((s.all fun c => c != '<' && c != '&') = true ∧ Document.isPlainSpace s = false) (by
    simp only [List.all_eq_true, Bool.and_eq_true, bne_iff_ne]
    exact ⟨fun h => ⟨h.1, h.2⟩, fun h => ⟨h.plain, h.visible⟩⟩)

mutual

/-- Well-formedness of a piece can be checked. -/
def decidableWellFormed : (m : Markup) → Decidable m.WellFormed
  | .element name attributes children =>
    @instDecidableAnd (IsTag name attributes) _ _ (decidableWellFormedAll children)
  | .comment s => decidableIsComment s
  | .text s => decidableIsText s

/-- Well-formedness of pieces can be checked. -/
def decidableWellFormedAll : (ms : List Markup) → Decidable (WellFormedAll ms)
  | [] => instDecidableTrue
  | m :: ms =>
    have := decidableWellFormed m
    have := decidableWellFormedAll ms
    decidable_of_iff (m.WellFormed ∧ (!(m.isText && ms.head?.any isText)) = true ∧ WellFormedAll ms)
      (by rw [WellFormedAll]; cases m.isText <;> cases ms <;> simp)

end

instance : DecidablePred WellFormedAll := decidableWellFormedAll

/-! ## The document -/

/-- The attributes of an element of the document. -/
def attributesOf (attributes : List (Text × Text)) : Attributes :=
  attributes.map fun (k, v) => (k, .single v)

mutual

/-- The node that a piece stands for. Plain space in comments is `kept` inside some elements. -/
def tree (kept : Bool) : Markup → Node
  | .element name attributes children =>
    .element name (attributesOf attributes)
      (treeAll (decide (name ∈ Document.preformatted) || kept) children)
  | .comment s => .leaf .comment (if kept then s else Document.shrinkSpace s)
  | .text s => .leaf .text s

/-- The nodes that pieces stand for. -/
def treeAll (kept : Bool) : List Markup → List Node
  | [] => []
  | m :: ms => tree kept m :: treeAll kept ms

end

mutual

/-- How many nodes a piece stands for. -/
def size : Markup → Nat
  | .element _ _ children => 1 + sizeAll children
  | .comment _ => 1
  | .text _ => 1

/-- How many nodes pieces stand for. -/
def sizeAll : List Markup → Nat
  | [] => 0
  | m :: ms => size m + sizeAll ms

end

/-! ## Strings that may need translation -/

/-- A candidate with the range at which it is written and the scope that it is reported with. -/
structure Written where
  candidate : Candidate
  span : Span
  scope : Option Text
  deriving Repr, Inhabited

/-- The wanted ones of an element's attributes, which are written from the offset on. The element
stands at a place of the document and has the given name and attributes. -/
def writtenAttributes (wanted : List Text) (name : Text) (all : List (Text × Text)) (place : Nat) :
    Nat → List (Text × Text) → List Written
  | _, [] => []
  | offset, (k, v) :: rest =>
    let start := offset + k.length + 3
    (if Text.lower k ∈ wanted then
      [⟨⟨.attribute, v, renderOpenTag name (attributesOf all), name, some k, place⟩,
        ⟨start, start + v.length⟩, some (openTag name all)⟩]
    else []) ++ writtenAttributes wanted name all place (offset + (pair k v).length) rest

mutual

/-- The strings of a piece that is written at the offset and whose node stands at a place of the
document, in the element `owner` if any. Ignored elements have none. -/
def written (ignored wanted : List Text) (owner : Option (Text × Attributes)) (offset place : Nat) :
    Markup → List Written
  | .element name attributes children =>
    if Text.lower name ∈ ignored then []
    else
      writtenAttributes wanted name attributes place (offset + 1 + name.length) attributes ++
        writtenAll ignored wanted (some (name, attributesOf attributes))
          (offset + (openTag name attributes).length) (place + 1) children
  | .comment _ => []
  | .text s =>
    (Document.textCandidates owner place s).map fun c => ⟨c, ⟨offset, offset + s.length⟩, none⟩

/-- The strings of pieces that are written one after the other. -/
def writtenAll (ignored wanted : List Text) (owner : Option (Text × Attributes))
    (offset place : Nat) : List Markup → List Written
  | [] => []
  | m :: ms =>
    written ignored wanted owner offset place m ++
      writtenAll ignored wanted owner (offset + (render m).length) (place + m.size) ms

end

/-! ## Tokens -/

/-- Attributes with the references in their values decoded. -/
def decoded (attributes : List (Text × Text)) : List (Text × Text) :=
  attributes.map fun (k, v) => (k, Reference.decode v)

/-- What markup consists of when its nesting is forgotten. -/
inductive Token where
  | opening (name : Text) (attributes : List (Text × Text))
  | closing (name : Text)
  | comment (s : Text)
  | text (s : Text)

namespace Token

/-- A token as it is written. -/
def render : Token → Text
  | .opening name attributes => openTag name attributes
  | .closing name => closeTag name
  | .comment s => commentTag s
  | .text s => s

/-- The event that a token is read as. -/
def event : Token → Event
  | .opening name attributes => .startTag name (decoded attributes)
  | .closing name => .endTag name
  | .comment s => .leaf .comment s
  | .text s => .text s

/-- Whether a token is a text. -/
def isText : Token → Bool
  | .text _ => true
  | _ => false

/-- The names, values and strings of a token are of the right form. -/
def WellFormed : Token → Prop
  | .opening name attributes => IsTag name attributes
  | .closing name => IsName name ∧ name ∉ Document.voidElements
  | .comment s => IsComment s
  | .text s => IsText s

/-- The token is read as it is written. -/
def IsLegible : Token → Prop
  | .opening name attributes => IsOpening name attributes
  | .closing name => IsName name
  | .comment s => IsComment s
  | .text s => IsRun s

/-- All tokens are as `W` says, and no text follows another. -/
def Spaced (W : Token → Prop) : List Token → Prop
  | [] => True
  | t :: ts => W t ∧ (t.isText = true → ∀ u ∈ ts.head?, u.isText = false) ∧ Spaced W ts

theorem Spaced.imp {W W' : Token → Prop} {ts : List Token} (h : Spaced W ts)
    (himp : ∀ t ∈ ts, W t → W' t) : Spaced W' ts := by
  induction ts with
  | nil => trivial
  | cons t ts ih =>
    obtain ⟨ht, hts⟩ := List.forall_mem_cons.mp himp
    exact ⟨ht h.1, h.2.1, ih h.2.2 hts⟩

/-- Whether tokens are as `W` says can be checked one by one. -/
instance decidableSpaced {W : Token → Prop} [DecidablePred W] : (ts : List Token) → Decidable (Spaced W ts)
  | [] => instDecidableTrue
  | t :: ts =>
    have := decidableSpaced (W := W) ts
    decidable_of_iff (W t ∧ (!(t.isText && ts.head?.any isText)) = true ∧ Spaced W ts)
      (by rw [Spaced]; cases t.isText <;> cases ts <;> simp)

theorem Spaced.of_mem {W : Token → Prop} {ts : List Token} (h : Spaced W ts) : ∀ t ∈ ts, W t := by
  induction ts with
  | nil => simp
  | cons t ts ih => exact List.forall_mem_cons.mpr ⟨h.1, ih h.2.2⟩

/-- Tokens written one after the other. -/
def renderAll (ts : List Token) : Text := ts.flatMap render

@[simp] theorem renderAll_nil : renderAll [] = [] := rfl

@[simp] theorem renderAll_cons (t : Token) (ts : List Token) :
    renderAll (t :: ts) = t.render ++ renderAll ts := List.flatMap_cons

end Token

mutual

/-- The tokens of a piece, followed by further tokens. -/
def tokens (more : List Token) : Markup → List Token
  | .element name attributes children =>
    .opening name attributes :: tokensAll (.closing name :: more) children
  | .comment s => .comment s :: more
  | .text s => .text s :: more

/-- The tokens of pieces, followed by further tokens. -/
def tokensAll (more : List Token) : List Markup → List Token
  | [] => more
  | m :: ms => tokens (tokensAll more ms) m

end

mutual

theorem render_tokens (more : List Token) (m : Markup) :
    Token.renderAll (tokens more m) = m.render ++ Token.renderAll more := by
  match m with
  | .element name attributes children =>
    simp only [tokens, render, Token.renderAll_cons, Token.render, List.append_assoc,
      render_tokensAll (.closing name :: more) children]
  | .comment s => rfl
  | .text s => rfl

theorem render_tokensAll (more : List Token) (ms : List Markup) :
    Token.renderAll (tokensAll more ms) = renderAll ms ++ Token.renderAll more := by
  match ms with
  | [] => rfl
  | m :: ms =>
    simp only [tokensAll, renderAll, render_tokens (tokensAll more ms) m, render_tokensAll more ms,
      List.append_assoc]

end

mutual

theorem tokens_eq_append (more : List Token) (m : Markup) : tokens more m = tokens [] m ++ more := by
  match m with
  | .element name attributes children =>
    rw [tokens, tokens, tokensAll_eq_append (.closing name :: more), tokensAll_eq_append [.closing name]]
    simp
  | .comment s => rfl
  | .text s => rfl

theorem tokensAll_eq_append (more : List Token) (ms : List Markup) :
    tokensAll more ms = tokensAll [] ms ++ more := by
  match ms with
  | [] => rfl
  | m :: ms =>
    rw [tokensAll, tokensAll, tokens_eq_append (tokensAll more ms), tokens_eq_append (tokensAll [] ms),
      tokensAll_eq_append more ms, List.append_assoc]

end

/-- The first token of a piece is a text just if the piece is. -/
theorem head?_tokens (more : List Token) (m : Markup) :
    ∃ t, (tokens more m).head? = some t ∧ t.isText = m.isText := by
  cases m with
  | element name attributes children => exact ⟨_, rfl, rfl⟩
  | comment s => exact ⟨_, rfl, rfl⟩
  | text s => exact ⟨_, rfl, rfl⟩

mutual

/-- All tokens of a piece are as `W` says, and no text follows another. -/
def Each (W : Token → Prop) : Markup → Prop
  | .element name attributes children =>
    W (.opening name attributes) ∧ W (.closing name) ∧ EachAll W children
  | .comment s => W (.comment s)
  | .text s => W (.text s)

/-- All tokens of pieces are as `W` says, and no text follows another. -/
def EachAll (W : Token → Prop) : List Markup → Prop
  | [] => True
  | m :: ms =>
    Each W m ∧ (m.isText = true → ∀ n ∈ ms.head?, n.isText = false) ∧ EachAll W ms

end

mutual

/-- Whether the tokens of a piece are as `W` says can be checked one by one. -/
def decidableEach {W : Token → Prop} [DecidablePred W] : (m : Markup) → Decidable (m.Each W)
  | .element name attributes children =>
    have := decidableEachAll (W := W) children
    inferInstanceAs (Decidable (W (.opening name attributes) ∧ W (.closing name) ∧ EachAll W children))
  | .comment s => inferInstanceAs (Decidable (W (.comment s)))
  | .text s => inferInstanceAs (Decidable (W (.text s)))

/-- Whether the tokens of pieces are as `W` says can be checked one by one. -/
def decidableEachAll {W : Token → Prop} [DecidablePred W] : (ms : List Markup) → Decidable (EachAll W ms)
  | [] => instDecidableTrue
  | m :: ms =>
    have := decidableEach (W := W) m
    have := decidableEachAll (W := W) ms
    decidable_of_iff (m.Each W ∧ (!(m.isText && ms.head?.any isText)) = true ∧ EachAll W ms)
      (by rw [EachAll]; cases m.isText <;> cases ms <;> simp)

end

instance {W : Token → Prop} [DecidablePred W] : DecidablePred (EachAll W) := decidableEachAll

mutual

theorem WellFormed.each {m : Markup} (h : m.WellFormed) : m.Each Token.WellFormed := by
  match m with
  | .element name attributes children => 
    exact ⟨h.1, ⟨h.1.is_name, h.1.not_void⟩, each_of_wellFormedAll h.2⟩
  | .comment s => exact h
  | .text s => exact h

theorem each_of_wellFormedAll {ms : List Markup} (h : WellFormedAll ms) :
    EachAll Token.WellFormed ms := by
  match ms with
  | [] => trivial
  | m :: ms => exact ⟨h.1.each, h.2.1, each_of_wellFormedAll h.2.2⟩

end

mutual

/-- The tokens of a piece, one after the other. -/
theorem spaced_tokens {W : Token → Prop} {more : List Token} (hmore : Token.Spaced W more) {m : Markup}
    (h : m.Each W) (hnext : m.isText = true → ∀ u ∈ more.head?, u.isText = false) :
    Token.Spaced W (tokens more m) := by
  match m with
  | .element name attributes children =>
    obtain ⟨hopening, hclosing, hchildren⟩ := h
    have hclose : Token.Spaced W (.closing name :: more) := ⟨hclosing, by simp [Token.isText], hmore⟩
    exact ⟨hopening, by simp [Token.isText],
      spaced_tokensAll hclose hchildren (by simp [Token.isText])⟩
  | .comment s => exact ⟨h, by simp [Token.isText], hmore⟩
  | .text s => exact ⟨h, hnext, hmore⟩

theorem spaced_tokensAll {W : Token → Prop} {more : List Token} (hmore : Token.Spaced W more)
    {ms : List Markup} (h : EachAll W ms) (hnext : ∀ u ∈ more.head?, u.isText = false) :
    Token.Spaced W (tokensAll more ms) := by
  match ms with
  | [] => exact hmore
  | m :: ms =>
    obtain ⟨hm, hspaced, hms⟩ := h
    refine spaced_tokens (spaced_tokensAll hmore hms hnext) hm fun htext u hu => ?_
    match ms with
    | [] => exact hnext u hu
    | n :: ms =>
      obtain ⟨t, ht, hsame⟩ := head?_tokens (tokensAll more ms) n
      obtain rfl : t = u := Option.some.inj (ht.symm.trans hu)
      rw [hsame]
      exact hspaced htext n rfl

end

/-- The tokens of a whole document. -/
theorem EachAll.spaced {W : Token → Prop} {ms : List Markup} (h : EachAll W ms) :
    Token.Spaced W (tokensAll [] ms) :=
  spaced_tokensAll (show Token.Spaced W [] from trivial) h (by simp)

theorem renderAll_tokensAll (ms : List Markup) :
    Token.renderAll (tokensAll [] ms) = renderAll ms := by
  rw [render_tokensAll, Token.renderAll_nil, List.append_nil]

end Markup

end Untranslated
