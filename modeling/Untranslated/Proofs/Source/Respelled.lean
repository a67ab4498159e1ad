import Untranslated.Proofs.Source.Lines
import Untranslated.Proofs.Source.Mask

/-!
# Respelled line breaks

A line feed and a carriage return with a line feed behind it end a line alike. `Text.Respelled s s'` says
that `s'` is `s` with a carriage return before some of its line feeds, and `Text.moved s s'` says where the
offsets of `s` come to lie in `s'`.

* The parts of a text before, behind and between offsets are respelled with it (`Respelled.slice`).
* Moved offsets have the positions that they had (`Lines.locate_moved`), if the text has no carriage return of
  its own.
* Expressions whose delimiters hold no line break are found where they were (`Mask.build_respelled`), and so
  are the parts outside of them (`Mask.outside_moved`).
-/

namespace Untranslated

namespace Text

/-- The second text is the first one with a carriage return before some of its line feeds. -/
inductive Respelled : Text → Text → Prop
  | nil : Respelled [] []
  | cons (c : Char) {s s' : Text} (h : Respelled s s') : Respelled (c :: s) (c :: s')
  | feed {s s' : Text} (h : Respelled s s') : Respelled ('\n' :: s) ('\r' :: '\n' :: s')

/-- The text with a carriage return before every line feed. -/
def withReturns (s : Text) : Text := s.flatMap fun c => if c = '\n' then ['\r', '\n'] else [c]

namespace Respelled

variable {s s' t t' : Text}

theorem refl (s : Text) : Respelled s s := by
  induction s with
  | nil => exact .nil
  | cons c s ih => exact .cons c ih

theorem withReturns (s : Text) : Respelled s s.withReturns := by
  induction s with
  | nil => exact .nil
  | cons c s ih =>
    rw [Text.withReturns, List.flatMap_cons, ← Text.withReturns]
    split
    · rename_i hc
      exact hc ▸ .feed ih
    · exact .cons c ih

theorem append (hs : Respelled s s') (ht : Respelled t t') : Respelled (s ++ t) (s' ++ t') := by
  induction hs with
  | nil => exact ht
  | cons c _ ih => exact .cons c ih
  | feed _ ih => exact .feed ih

/-- The two parts of a text are respelled one by one. -/
theorem of_append {u : Text} (h : Respelled (s ++ t) u) :
    ∃ s' t', u = s' ++ t' ∧ Respelled s s' ∧ Respelled t t' := by
  induction s generalizing u with
  | nil => exact ⟨[], u, rfl, .nil, h⟩
  | cons c s ih =>
    cases h with
    | cons _ h =>
      obtain ⟨s', t', rfl, hs, ht⟩ := ih h
      exact ⟨c :: s', t', rfl, .cons c hs, ht⟩
    | feed h =>
      obtain ⟨s', t', rfl, hs, ht⟩ := ih h
      exact ⟨'\r' :: '\n' :: s', t', rfl, .feed hs, ht⟩

/-- Without line feeds there is nothing to respell. -/
theorem eq_self (h : Respelled s s') (hs : '\n' ∉ s) : s' = s := by
  induction h with
  | nil => rfl
  | cons c _ ih => rw [ih fun hmem => hs (List.mem_cons_of_mem c hmem)]
  | feed => exact absurd List.mem_cons_self hs

/-- A part without line feeds is kept. -/
theorem of_append_left {u : Text} (h : Respelled (s ++ t) u) (hs : '\n' ∉ s) :
    ∃ t', u = s ++ t' ∧ Respelled t t' := by
  obtain ⟨s', t', rfl, hs', ht⟩ := h.of_append
  exact ⟨t', by rw [hs'.eq_self hs], ht⟩

theorem eq_nil_iff (h : Respelled s s') : s' = [] ↔ s = [] := by
  cases h <;> simp

theorem all_eq {p : Char → Bool} (hp : p '\r' = p '\n') (h : Respelled s s') : s'.all p = s.all p := by
  induction h with
  | nil => rfl
  | cons c _ ih => rw [List.all_cons, List.all_cons, ih]
  | feed _ ih => rw [List.all_cons, List.all_cons, List.all_cons, ih, hp, ← Bool.and_assoc, Bool.and_self]

/-- A respelled text holds the characters that it held, and perhaps carriage returns. -/
theorem mem_iff {c : Char} (hc : c ≠ '\r') (h : Respelled s s') : c ∈ s' ↔ c ∈ s := by
  induction h with
  | nil => rfl
  | cons d _ ih => rw [List.mem_cons, List.mem_cons, ih]
  | feed _ ih => simp only [List.mem_cons, ih, hc, false_or]

theorem isBlank_eq (h : Respelled s s') : isBlank s' = isBlank s := h.all_eq (by decide)

theorem getLast?_eq (h : Respelled s s') : s'.getLast? = s.getLast? := by
  induction h with
  | nil => rfl
  | cons c _ ih => rw [List.getLast?_cons, List.getLast?_cons, ih]
  | feed _ ih => rw [List.getLast?_cons_cons, List.getLast?_cons, List.getLast?_cons, ih]

/-- The first characters are equal, or they are a carriage return and a line feed. -/
theorem head? (h : Respelled s s') :
    s'.head? = s.head? ∨ s'.head? = some '\r' ∧ s.head? = some '\n' := by
  cases h with
  | nil => exact .inl rfl
  | cons c => exact .inl rfl
  | feed => exact .inr ⟨rfl, rfl⟩

end Respelled

/-! ## Moved offsets -/

/-- Where an offset of a text comes to lie when the text is respelled. -/
def moved : Text → Text → Nat → Nat
  | c :: s, d :: s', o + 1 => if c = d then moved s s' o + 1 else moved s s'.tail o + 2
  | _, _, _ => 0

@[simp] theorem moved_zero (s s' : Text) : moved s s' 0 = 0 := by
  cases s <;> cases s' <;> rfl

@[simp] theorem moved_cons (c : Char) (s s' : Text) (o : Nat) :
    moved (c :: s) (c :: s') (o + 1) = moved s s' o + 1 := if_pos rfl

@[simp] theorem moved_feed (s s' : Text) (o : Nat) :
    moved ('\n' :: s) ('\r' :: '\n' :: s') (o + 1) = moved s s' o + 2 := if_neg (by decide)

namespace Respelled

variable {s s' t t' : Text}

theorem take (h : Respelled s s') (o : Nat) : Respelled (s.take o) (s'.take (moved s s' o)) := by
  induction h generalizing o with
  | nil => simpa using .nil
  | cons c _ ih =>
    cases o with
    | zero => simpa using .nil
    | succ o => simpa using .cons c (ih o)
  | feed _ ih =>
    cases o with
    | zero => simpa using .nil
    | succ o => simpa using .feed (ih o)

theorem drop (h : Respelled s s') (o : Nat) : Respelled (s.drop o) (s'.drop (moved s s' o)) := by
  induction h generalizing o with
  | nil => simpa using .nil
  | cons c h ih =>
    cases o with
    | zero => simpa using .cons c h
    | succ o => simpa using ih o
  | feed h ih =>
    cases o with
    | zero => simpa using .feed h
    | succ o => simpa using ih o

theorem moved_add (h : Respelled s s') (a n : Nat) :
    moved s s' (a + n) = moved s s' a + moved (s.drop a) (s'.drop (moved s s' a)) n := by
  induction h generalizing a with
  | nil => simp [moved]
  | cons c _ ih =>
    cases a with
    | zero => simp
    | succ a =>
      rw [Nat.add_right_comm, moved_cons, moved_cons, ih]
      simp only [List.drop_succ_cons]
      omega
  | feed _ ih =>
    cases a with
    | zero => simp
    | succ a =>
      rw [Nat.add_right_comm, moved_feed, moved_feed, ih]
      simp only [List.drop_succ_cons]
      omega

theorem moved_length (h : Respelled s s') : moved s s' s.length = s'.length := by
  induction h with
  | nil => rfl
  | cons c _ ih => rw [List.length_cons, moved_cons, ih, List.length_cons]
  | feed _ ih => rw [List.length_cons, moved_feed, ih, List.length_cons, List.length_cons]

theorem moved_pos (h : Respelled s s') (hne : s ≠ []) {o : Nat} (ho : 0 < o) : 0 < moved s s' o := by
  obtain ⟨o, rfl⟩ := Nat.exists_eq_succ_of_ne_zero (Nat.ne_of_gt ho)
  cases h with
  | nil => exact absurd rfl hne
  | cons c => simp
  | feed => simp

theorem moved_le_moved (h : Respelled s s') {a b : Nat} (hab : a ≤ b) : moved s s' a ≤ moved s s' b := by
  obtain ⟨n, rfl⟩ := Nat.exists_eq_add_of_le hab
  rw [h.moved_add]
  exact Nat.le_add_right _ _

theorem moved_max (h : Respelled s s') (a b : Nat) :
    moved s s' (max a b) = max (moved s s' a) (moved s s' b) := by
  rcases Nat.le_total a b with hab | hba
  · rw [Nat.max_eq_right hab, Nat.max_eq_right (h.moved_le_moved hab)]
  · rw [Nat.max_eq_left hba, Nat.max_eq_left (h.moved_le_moved hba)]

theorem moved_min (h : Respelled s s') (a b : Nat) :
    moved s s' (min a b) = min (moved s s' a) (moved s s' b) := by
  rcases Nat.le_total a b with hab | hba
  · rw [Nat.min_eq_left hab, Nat.min_eq_left (h.moved_le_moved hab)]
  · rw [Nat.min_eq_right hba, Nat.min_eq_right (h.moved_le_moved hba)]

theorem moved_lt_moved (h : Respelled s s') {a b : Nat} (hab : a < b) (ha : a < s.length) :
    moved s s' a < moved s s' b := by
  obtain ⟨n, rfl⟩ := Nat.exists_eq_add_of_le (Nat.le_of_lt hab)
  rw [h.moved_add]
  have hne : s.drop a ≠ [] := by
    rw [Ne, List.drop_eq_nil_iff]
    omega
  have := (h.drop a).moved_pos hne (show 0 < n by omega)
  omega

/-- Offsets keep their order. -/
theorem moved_le_iff (h : Respelled s s') {a b : Nat} (ha : a ≤ s.length) :
    moved s s' a ≤ moved s s' b ↔ a ≤ b := by
  refine ⟨fun hle => Nat.le_of_not_lt fun hlt => ?_, h.moved_le_moved⟩
  have := h.moved_lt_moved hlt (by omega)
  omega

theorem moved_le_length (h : Respelled s s') (o : Nat) : moved s s' o ≤ s'.length := by
  rcases Nat.le_total o s.length with ho | ho
  · exact h.moved_length ▸ h.moved_le_moved ho
  · obtain ⟨n, rfl⟩ := Nat.exists_eq_add_of_le ho
    rw [h.moved_add, h.moved_length, List.drop_length]
    simp [moved]

/-- Behind a part of the text, the offset moves by the length of the respelled part. -/
theorem moved_append (h : Respelled s s') (hs : Respelled t t') {o : Nat} {rest rest' : Text}
    (hrest : s.drop o = t ++ rest) (hrest' : s'.drop (moved s s' o) = t' ++ rest') :
    moved s s' (o + t.length) = moved s s' o + t'.length := by
  rw [h.moved_add, hrest, hrest']
  congr 1
  clear hrest hrest'
  induction hs with
  | nil => simp
  | cons c _ ih => simpa using ih
  | feed _ ih => simpa using ih

/-- Up to the next line feed, an offset moves with the one that it is counted from. -/
theorem moved_add_of_not_mem (h : Respelled s s') {a n : Nat} (hn : a + n ≤ s.length)
    (hfeed : '\n' ∉ (s.drop a).take n) : moved s s' (a + n) = moved s s' a + n := by
  have hkept := ((h.drop a).take n).eq_self hfeed
  have hle := (h.drop a).moved_le_length n
  have hlength := congrArg List.length hkept
  simp only [List.length_take, List.length_drop] at hlength hle
  rw [h.moved_add]
  omega

/-- A range of the text is respelled with it. -/
theorem slice (h : Respelled s s') (a b : Nat) :
    Respelled (slice s a b) (slice s' (moved s s' a) (moved s s' b)) := by
  unfold Text.slice
  rcases Nat.le_total a b with hab | hba
  · obtain ⟨n, rfl⟩ := Nat.exists_eq_add_of_le hab
    rw [h.moved_add, Nat.add_sub_cancel_left, Nat.add_sub_cancel_left]
    exact (h.drop a).take n
  · have := h.moved_le_moved hba
    rw [Nat.sub_eq_zero_of_le hba, Nat.sub_eq_zero_of_le this]
    simpa using .nil

end Respelled

end Text

/-- Where a range of a text comes to lie when the text is respelled. -/
def Span.moved (text text' : Text) (s : Span) : Span :=
  ⟨Text.moved text text' s.start, Text.moved text text' s.stop⟩

/-- As many of the moved ranges begin by a moved offset. -/
theorem Span.countP_moved {text text' : Text} (h : Text.Respelled text text') {spans : List Span}
    (hspans : ∀ s ∈ spans, s.Inside 0 text.length) (o : Nat) :
    (spans.map (Span.moved text text')).countP (fun s => (s.start : Int) ≤ Text.moved text text' o) =
      spans.countP fun s => (s.start : Int) ≤ o := by
  rw [List.countP_map]
  refine List.countP_congr fun s hs => ?_
  have hinside := hspans s hs
  rw [Function.comp_apply, decide_eq_true_eq, decide_eq_true_eq, Int.ofNat_le, Int.ofNat_le]
  exact h.moved_le_iff (Nat.le_trans hinside.start_le_stop hinside.stop_le)

/-! ## Lines -/

namespace Lines

open Text (moved Respelled)

variable {text text' : Text}

theorem spansFrom_cons {c : Char} (hc : c ≠ '\r') (start pos : Nat) (rest : Text) :
    spansFrom start pos (c :: rest) =
      if c = '\n' then ⟨start, pos⟩ :: spansFrom (pos + 1) (pos + 1) rest
      else spansFrom start (pos + 1) rest := by
  rw [spansFrom]
  · simp only [hc, false_or]
  · intro _ heq
    exact absurd heq hc

/-- The lines of a respelled text are the moved lines. Both texts are read up to `pos`. -/
theorem spansFrom_respelled (htext : Respelled text text') {s s' : Text} (h : Respelled s s')
    (hreturn : '\r' ∉ s) {start pos : Nat} (hs : text.drop pos = s)
    (hs' : text'.drop (moved text text' pos) = s') :
    spansFrom (moved text text' start) (moved text text' pos) s' =
      (spansFrom start pos s).map (Span.moved text text') := by
  induction h generalizing start pos with
  | nil => rfl
  | @cons c s s' _ ih =>
    have hc : c ≠ '\r' := fun heq => hreturn (heq ▸ List.mem_cons_self)
    have hnext : moved text text' (pos + 1) = moved text text' pos + 1 :=
      htext.moved_append (.cons c .nil) hs hs'
    have hrest : text.drop (pos + 1) = s := by rw [← List.drop_drop, hs]; rfl
    have hrest' : text'.drop (moved text text' (pos + 1)) = s' := by
      rw [hnext, ← List.drop_drop, hs']; rfl
    have hlines : ∀ start, spansFrom (moved text text' start) (moved text text' pos + 1) s' =
        (spansFrom start (pos + 1) s).map (Span.moved text text') := fun start =>
      hnext ▸ ih (fun hmem => hreturn (List.mem_cons_of_mem c hmem)) hrest hrest'
    rw [spansFrom_cons hc, spansFrom_cons hc]
    split
    · rw [List.map_cons, ← hlines (pos + 1), hnext]
      rfl
    · exact hlines start
  | @feed s s' _ ih =>
    have hnext : moved text text' (pos + 1) = moved text text' pos + 2 :=
      htext.moved_append (.feed .nil) hs hs'
    have hrest : text.drop (pos + 1) = s := by rw [← List.drop_drop, hs]; rfl
    have hrest' : text'.drop (moved text text' (pos + 1)) = s' := by
      rw [hnext, ← List.drop_drop, hs']; rfl
    have hlines : spansFrom (moved text text' pos + 2) (moved text text' pos + 2) s' =
        (spansFrom (pos + 1) (pos + 1) s).map (Span.moved text text') :=
      hnext ▸ ih (fun hmem => hreturn (List.mem_cons_of_mem _ hmem)) hrest hrest'
    rw [spansFrom, hlines, spansFrom_cons (c := '\n') (by decide), if_pos rfl]
    rfl

section

variable (h : Respelled text text') (hreturn : '\r' ∉ text)

include h hreturn

theorem spans_respelled :
    (Lines.of text').spans = (Lines.of text).spans.map (Span.moved text text') := by
  have hspans := @spansFrom_respelled _ _ h _ _ h hreturn 0 0 rfl (by simp)
  rwa [Text.moved_zero] at hspans

theorem lineOf_moved (o : Nat) :
    (Lines.of text').lineOf (moved text text' o) = (Lines.of text).lineOf o := by
  unfold lineOf
  rw [spans_respelled h hreturn, Span.countP_moved h fun s hs => span_inside text hs]

/-- What stands before a moved offset is on the line of what stood before the offset. -/
theorem lineOf_moved_pred {o : Nat} (ho : o ≤ text.length) :
    (Lines.of text').lineOf ((moved text text' o : Int) - 1) = (Lines.of text).lineOf ((o : Int) - 1) := by
  unfold lineOf
  rw [spans_respelled h hreturn, List.countP_map]
  congr 1
  refine List.countP_congr fun s hs => ?_
  have hle := h.moved_le_iff (b := s.start) ho
  rw [Function.comp_apply, decide_eq_true_eq, decide_eq_true_eq, Span.moved]
  simp only
  omega

theorem spanOf_respelled (line : Nat) :
    (Lines.of text').spanOf line = ((Lines.of text).spanOf line).moved text text' := by
  unfold spanOf
  rw [spans_respelled h hreturn, List.getD_eq_getElem?_getD, List.getD_eq_getElem?_getD,
    List.getElem?_map]
  cases (Lines.of text).spans[line - 1]? with
  | none => simp [Span.moved]
  | some s => rfl

/-- A line shows what it showed. -/
theorem textOf_respelled {line : Nat} (h1 : 1 ≤ line) (h2 : line ≤ (Lines.of text).count) :
    (Lines.of text').textOf line = (Lines.of text).textOf line := by
  have hline := h.slice ((Lines.of text).spanOf line).start ((Lines.of text).spanOf line).stop
  unfold textOf
  rw [spanOf_respelled h hreturn]
  exact hline.eq_self fun hmem => (not_break_of_mem_textOf text h1 h2 _ hmem).2 rfl

/-- A moved offset has the position that it had. -/
theorem locate_moved {o : Nat} (ho : o ≤ text.length) :
    (Lines.of text').locate (moved text text' o) = (Lines.of text).locate o := by
  have hmin : min o text.length = o := Nat.min_eq_left ho
  have hmin' : min (moved text text' o) text'.length = moved text text' o :=
    Nat.min_eq_left (h.moved_le_length o)
  simp only [locate, Int.toNat_natCast]
  rw [show (Lines.of text').text = text' from rfl, show (Lines.of text).text = text from rfl, hmin, hmin',
    lineOf_moved h hreturn, spanOf_respelled h hreturn]
  have hle := start_spanOf_lineOf_le text o
  have hstop := le_stop_spanOf_lineOf text hreturn ho
  have hfeed : '\n' ∉ (text.drop ((Lines.of text).spanOf ((Lines.of text).lineOf o)).start).take
      (o - ((Lines.of text).spanOf ((Lines.of text).lineOf o)).start) := by
    have hline := not_break_of_mem_textOf text (one_le_lineOf text o) (lineOf_le_count text o)
    have hpart := Text.slice_prefix_slice text ((Lines.of text).spanOf ((Lines.of text).lineOf o)).start hstop
    exact fun hmem => (hline _ (hpart.subset hmem)).2 rfl
  have hmoved := h.moved_add_of_not_mem (by omega) hfeed
  rw [Nat.add_sub_cancel' hle] at hmoved
  rw [hmoved, Span.moved]
  congr 1
  simp only
  omega

end

end Lines

/-! ## Template expressions -/

namespace Text

/-- No character of the text is part of a line break. -/
def Breakless (s : Text) : Prop := ∀ c ∈ s, c ≠ '\r' ∧ c ≠ '\n'

instance (s : Text) : Decidable (Breakless s) :=
  decidable_of_iff ((s.all fun c => c != '\r' && c != '\n') = true) (by simp [Breakless])

theorem Breakless.not_mem {s : Text} (h : Breakless s) : '\n' ∉ s := fun hmem => (h _ hmem).2 rfl

namespace Respelled

variable {s s' pat : Text}

theorem startsWith_eq (hpat : Breakless pat) (h : Respelled s s') :
    startsWith pat s' = startsWith pat s := by
  induction pat generalizing s s' with
  | nil => rfl
  | cons a pat ih =>
    obtain ⟨ha, hpat⟩ := List.forall_mem_cons.mp hpat
    cases h with
    | nil => rfl
    | cons c h =>
      have hrest := ih hpat h
      unfold startsWith at hrest ⊢
      rw [List.isPrefixOf, List.isPrefixOf, hrest]
    | feed h =>
      unfold startsWith
      rw [List.isPrefixOf, List.isPrefixOf, beq_eq_false_iff_ne.mpr ha.1, beq_eq_false_iff_ne.mpr ha.2]
      rfl

/-- What holds no line break is found where it was. -/
theorem find?_eq (hpat : Breakless pat) (h : Respelled s s') :
    find? pat s' = (find? pat s).map (moved s s') := by
  induction h with
  | nil =>
    rw [find?]
    split <;> rfl
  | @cons c s s' h ih =>
    simp only [find?, (Respelled.cons c h).startsWith_eq hpat, ih]
    split
    · rfl
    · cases find? pat s <;> simp
  | @feed s s' h ih =>
    have hfeed := (Respelled.cons '\n' h).startsWith_eq hpat
    simp only [find?, (Respelled.feed h).startsWith_eq hpat, hfeed, ih]
    split
    · rfl
    · cases find? pat s <;> simp

/-- Behind a place at which a pattern without line breaks stands. -/
theorem moved_find? (hpat : Breakless pat) (h : Respelled s s') {i : Nat} (hi : find? pat s = some i) :
    moved s s' (i + pat.length) = moved s s' i + pat.length := by
  refine h.moved_add_of_not_mem (find?_le hi) fun hmem => hpat.not_mem ?_
  obtain ⟨rest, hrest⟩ := prefix_of_find? hi
  rwa [← hrest, List.take_left] at hmem

end Respelled

end Text

/-- The delimiters hold no line break. -/
structure Delimiters.Breakless (d : Delimiters) : Prop where
  opening : d.opening.Breakless
  closing : d.closing.Breakless

/-- The first expression is found where it was. -/
theorem Delimiters.first?_respelled {d : Delimiters} (hd : d.Breakless) {s s' : Text}
    (h : Text.Respelled s s') : d.first? s' = (d.first? s).map (Span.moved s s') := by
  unfold first?
  rw [h.find?_eq hd.opening]
  cases hi : Text.find? d.opening s with
  | none => rfl
  | some i =>
    have hbody := h.moved_find? hd.opening hi
    have hrest := h.drop (i + d.opening.length)
    simp only [Option.map_some, Option.bind_eq_bind, Option.bind_some, ← hbody]
    rw [hrest.find?_eq hd.closing]
    cases hj : Text.find? d.closing (s.drop (i + d.opening.length)) with
    | none => rfl
    | some j =>
      have hstop := hrest.moved_find? hd.closing hj
      simp only [Option.map_some, Option.bind_some, Span.moved, Option.some.injEq, Span.mk.injEq, true_and]
      rw [Nat.add_assoc _ j, h.moved_add _ (j + _), hstop, Nat.add_assoc]

/-- Whether something follows the first expression is not changed either. -/
theorem Delimiters.first?_followed {d : Delimiters} {s s' : Text} {e : Span} (h : Text.Respelled s s')
    (he : d.first? s = some e) :
    (0 < (e.moved s s').stop ∧ (e.moved s s').stop ≤ s'.length) ↔ (0 < e.stop ∧ e.stop ≤ s.length) := by
  have hstop := (first?_inside he).stop_le
  have hzero := h.moved_le_iff (b := 0) hstop
  rw [Text.moved_zero] at hzero
  have := h.moved_le_length e.stop
  simp only [Span.moved]
  omega

namespace Mask

open Text (moved Respelled)

variable {d : Delimiters} {text text' : Text}

/-- The expressions of a respelled text are the moved expressions. Both texts are read from the offset on. -/
theorem spansFrom_respelled (hd : d.Breakless) (htext : Respelled text text') {offset : Nat} {s s' : Text}
    (hs : text.drop offset = s) (hs' : text'.drop (moved text text' offset) = s') :
    spansFrom d (moved text text' offset) s' =
      (spansFrom d offset s).map (Span.moved text text') := by
  fun_induction spansFrom d offset s generalizing s' with
  | case1 offset s hnone =>
    have h : Respelled s s' := hs ▸ hs' ▸ htext.drop offset
    rw [spansFrom, Delimiters.first?_respelled hd h, hnone]
    rfl
  | case2 offset s e he ih =>
    have h : Respelled s s' := hs ▸ hs' ▸ htext.drop offset
    have hmoved : ∀ n, moved text text' (offset + n) = moved text text' offset + moved s s' n := by
      intro n
      rw [htext.moved_add, hs, hs']
    rw [spansFrom, Delimiters.first?_respelled hd h, he]
    simp only [Option.map_some, Delimiters.first?_followed h he, List.map_cons]
    congr 1
    · simp only [Span.moved, hmoved]
    · split
      · rename_i hnext
        rw [show moved text text' offset + (e.moved s s').stop = moved text text' (offset + e.stop) from
          (hmoved e.stop).symm]
        refine ih hnext ?_ ?_
        · rw [← List.drop_drop, hs]
        · rw [hmoved, ← List.drop_drop, hs']
          rfl
      · rfl

/-- The mask of a respelled text. -/
theorem build_respelled {delimiters : Option Delimiters} (hd : ∀ d ∈ delimiters, d.Breakless)
    (h : Respelled text text') :
    build text' delimiters =
      ⟨(build text delimiters).spans.map (Span.moved text text'), (build text delimiters).delimiters⟩ := by
  cases delimiters with
  | none => rfl
  | some d =>
    have hspans := spansFrom_respelled (hd d rfl) h (show text.drop 0 = text from rfl)
      (show text'.drop (moved text text' 0) = text' by simp)
    rw [Text.moved_zero] at hspans
    simp only [build, hspans]

/-- The parts of a moved range between the moved expressions are the moved parts. -/
theorem gaps_moved (h : Respelled text text') {spans : List Span}
    (hspans : ∀ s ∈ spans, s.Inside 0 text.length) {pos stop : Nat} (hpos : pos ≤ text.length)
    (hstop : stop ≤ text.length) :
    gaps (moved text text' pos) (moved text text' stop) (spans.map (Span.moved text text')) =
      (gaps pos stop spans).map fun r =>
        ((moved text text' r.1.toNat : Int), (moved text text' r.2.toNat : Int)) := by
  have hle : ∀ {a b : Nat}, a ≤ text.length →
      ((moved text text' a : Int) ≤ moved text text' b ↔ (a : Int) ≤ b) := by
    intro a b ha
    rw [Int.ofNat_le, Int.ofNat_le]
    exact h.moved_le_iff ha
  have hlt : ∀ {a b : Nat}, b ≤ text.length →
      ((moved text text' a : Int) < moved text text' b ↔ (a : Int) < b) := by
    intro a b hb
    rw [← Int.not_le, ← Int.not_le, hle hb]
  have hlast : ∀ {pos : Nat}, pos ≤ text.length →
      (if (moved text text' pos : Int) < moved text text' stop then
          [((moved text text' pos : Int), (moved text text' stop : Int))] else []) =
        (if (pos : Int) < stop then [((pos : Int), (stop : Int))] else []).map fun r =>
          ((moved text text' r.1.toNat : Int), (moved text text' r.2.toNat : Int)) := by
    intro pos hpos
    simp only [hlt hstop]
    split <;> rfl
  induction spans generalizing pos with
  | nil => exact hlast hpos
  | cons s spans ih =>
    obtain ⟨hs, hspans⟩ := List.forall_mem_cons.mp hspans
    have hstart : s.start ≤ text.length := Nat.le_trans hs.start_le_stop hs.stop_le
    have hmax : max (moved text text' pos : Int) (moved text text' s.stop) =
        moved text text' (max pos s.stop) := by
      rw [h.moved_max]
      omega
    simp only [List.map_cons, gaps, Span.moved, hle hstop, hle hs.stop_le, hlt hstart]
    split
    · exact hlast hpos
    · split
      · exact ih hspans hpos
      · rw [List.map_append, hmax, ih hspans (Nat.max_le.mpr ⟨hpos, hs.stop_le⟩)]
        congr 1
        · split <;> rfl
        · congr 2
          omega

/-- The parts of a moved range outside the moved expressions are the moved parts. -/
theorem outside_moved (h : Respelled text text') {spans : List Span} {delimiters : Option Delimiters}
    (hspans : ∀ s ∈ spans, s.Inside 0 text.length) {start stop : Nat} (hstart : start ≤ text.length)
    (hstop : stop ≤ text.length) :
    outside ⟨spans.map (Span.moved text text'), delimiters⟩ (moved text text' start)
        (moved text text' stop) =
      (outside ⟨spans, delimiters⟩ start stop).map fun r =>
        ((moved text text' r.1.toNat : Int), (moved text text' r.2.toNat : Int)) := by
  unfold outside spansNear
  simp only [Span.countP_moved h hspans]
  rw [← List.map_drop]
  exact gaps_moved h (fun s hs => hspans s (List.mem_of_mem_drop hs)) hstart hstop

/-- What is left of a respelled text without its expressions. -/
theorem strip_respelled (hd : d.Breakless) {s s' : Text} (h : Respelled s s') :
    Respelled (strip d s) (strip d s') := by
  fun_induction strip d s generalizing s' with
  | case1 s hnone =>
    rw [strip.eq_def d s', Delimiters.first?_respelled hd h, hnone]
    exact h
  | case2 s e he hnext ih =>
    rw [strip.eq_def d s', Delimiters.first?_respelled hd h, he]
    simp only [Option.map_some]
    rw [if_pos ((Delimiters.first?_followed h he).mpr hnext)]
    exact (h.take e.start).append (ih (h.drop e.stop))
  | case3 s e he hlast =>
    rw [strip.eq_def d s', Delimiters.first?_respelled hd h, he]
    simp only [Option.map_some]
    rw [if_neg fun hnext => hlast ((Delimiters.first?_followed h he).mp hnext)]
    exact h

end Mask

end Untranslated
