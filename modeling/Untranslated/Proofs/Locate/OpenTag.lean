import Untranslated.Proofs.Locate.OpenTag.Value

/-!
# Where opening tags end

The reading of an opening tag goes round by round (`OpenTag.round`): a round passes the gap before the
next attribute and then ends the tag, skips a stray character or reads an attribute.

* One round (`round_sound`): every round that goes on moves forward inside the text, and passes closing
  brackets only inside of the value that it reads, if that is in quotes.
* All rounds (`rounds_scanFrom`): they come to an end after at most as many rounds as there are characters
  left, with what `scanFrom` returns.
* The whole tag: it ends at or behind the end of its name and inside the source (`scan_bounds`), the
  values of its attributes lie inside it (`value_inside_scan`), and it runs through the first closing
  bracket that is not in a quoted value (`scan_ends_at_bracket`).
-/

namespace Untranslated.OpenTag

/-! ## One round -/

/-- How one round of the reading ends. -/
inductive Round where
  /-- The tag ends at the offset. -/
  | done (stop : Nat)
  /-- A stray character is skipped. -/
  | skipped (next : Nat)
  /-- An attribute is read. -/
  | read (a : WrittenAttribute) (next : Nat)
  deriving DecidableEq, Repr

/-- One round from an offset on. -/
def round (text : Text) (pos : Nat) : Round :=
  let place := pos + gapLength (text.drop pos)
  match text.drop place with
  | [] => .done text.length
  | c :: rest =>
    if c = '>' then .done (place + 1)
    else if c = '/' ∧ rest.head? = some '>' then .done (place + 2)
    else
      let name := (c :: rest).takeWhile isNameChar
      if name.isEmpty then .skipped (place + 1)
      else
        let nameEnd := place + name.length
        let (first, last, next) := valuePlace (text.drop nameEnd)
        .read ⟨name, ⟨nameEnd + first, nameEnd + last⟩⟩ (nameEnd + next)

/-- Up to so many rounds from an offset on: the attributes and the end of the tag, if one of the rounds
ends it. -/
def rounds (text : Text) : Nat → Nat → Option (List WrittenAttribute × Nat)
  | 0, _ => none
  | count + 1, pos =>
    match round text pos with
    | .done stop => some ([], stop)
    | .skipped next => rounds text count next
    | .read a next => (rounds text count next).map fun (others, stop) => (a :: others, stop)

/-! ## Closing brackets -/

/-- No closing bracket stands in the range. -/
def Unclosed (text : Text) (start stop : Nat) : Prop :=
  ∀ i, start ≤ i → i < stop → text[i]? ≠ some '>'

theorem Unclosed.append {text : Text} {a b c : Nat} (hab : Unclosed text a b) (hbc : Unclosed text b c) :
    Unclosed text a c := by
  intro i ha hc
  by_cases hb : i < b
  · exact hab i ha hb
  · exact hbc i (by omega) hc

/-- What is written without a closing bracket. -/
theorem unclosed_of_drop {text s rest : Text} {pos : Nat} (h : text.drop pos = s ++ rest) (hs : '>' ∉ s) :
    Unclosed text pos (pos + s.length) := by
  intro i hpos hi hget
  have hplace : text[i]? = (s ++ rest)[i - pos]? := by
    rw [← h, List.getElem?_drop, Nat.add_sub_cancel' hpos]
  rw [hplace, List.getElem?_append_left (by omega)] at hget
  exact hs (List.mem_of_getElem? hget)

/-- What stands before the first attribute. -/
theorem not_mem_take_gapLength (s : Text) : '>' ∉ s.take (gapLength s) := by
  fun_induction gapLength s with
  | case1 => simp
  | case2 c rest hspace ih =>
    have hc : '>' ≠ c := by
      rintro rfl
      exact absurd hspace (by decide)
    rw [Nat.add_comm, List.take_succ_cons]
    exact List.not_mem_cons_of_ne_of_not_mem hc ih
  | case3 c rest _ hslash ih =>
    rw [Nat.add_comm, List.take_succ_cons, hslash.1]
    exact List.not_mem_cons_of_ne_of_not_mem (by decide) ih
  | case4 => simp

/-- The offset lies inside the value of an attribute that is written in quotes. -/
def InQuotes (text : Text) (attributes : List WrittenAttribute) (i : Nat) : Prop :=
  ∃ a ∈ attributes, a.Quoted text ∧ a.value.contains i

/-- Every closing bracket of the range lies in quotes. -/
def Shielded (text : Text) (attributes : List WrittenAttribute) (start stop : Nat) : Prop :=
  ∀ i, start ≤ i → i < stop → text[i]? = some '>' → InQuotes text attributes i

theorem Unclosed.shielded {text : Text} {start stop : Nat} (h : Unclosed text start stop)
    (attributes : List WrittenAttribute) : Shielded text attributes start stop :=
  fun i hstart hstop hget => absurd hget (h i hstart hstop)

theorem Shielded.append {text : Text} {attributes : List WrittenAttribute} {a b c : Nat}
    (hab : Shielded text attributes a b) (hbc : Shielded text attributes b c) :
    Shielded text attributes a c := by
  intro i ha hc hget
  by_cases hb : i < b
  · exact hab i ha hb hget
  · exact hbc i (by omega) hc hget

theorem Shielded.mono {text : Text} {attributes others : List WrittenAttribute} {start stop : Nat}
    (h : Shielded text attributes start stop) (hsub : attributes ⊆ others) :
    Shielded text others start stop := by
  intro i hstart hstop hget
  obtain ⟨a, ha, hquoted⟩ := h i hstart hstop hget
  exact ⟨a, hsub ha, hquoted⟩

/-- What a round says about the text from an offset on: where the tag ends, or what lies between the
offset and the place at which the next round begins. -/
def Round.Sound (text : Text) (pos : Nat) : Round → Prop
  | .done stop =>
    (stop = text.length ∧ Unclosed text pos stop) ∨
      ∃ last, stop = last + 1 ∧ pos ≤ last ∧ text[last]? = some '>' ∧ Unclosed text pos last
  | .skipped next => pos < next ∧ next ≤ text.length ∧ Unclosed text pos next
  | .read a next =>
    pos < next ∧ next ≤ text.length ∧ a.value.Inside pos next ∧
      (a.name ≠ [] ∧ ∀ c ∈ a.name, isNameChar c = true) ∧ Shielded text [a] pos next

theorem gapLength_le (s : Text) : gapLength s ≤ s.length := by
  fun_induction gapLength s with
  | case1 => simp
  | case2 => simp only [List.length_cons]; omega
  | case3 => simp only [List.length_cons]; omega
  | case4 => simp

theorem unclosed_gap (text : Text) (pos : Nat) :
    Unclosed text pos (pos + gapLength (text.drop pos)) := by
  have hcut : text.drop pos = (text.drop pos).take (gapLength (text.drop pos)) ++
      (text.drop pos).drop (gapLength (text.drop pos)) := by rw [List.take_append_drop]
  have hgap := unclosed_of_drop hcut (not_mem_take_gapLength _)
  rwa [List.length_take, Nat.min_eq_left (gapLength_le _)] at hgap

/-- The closing brackets that are passed with a value in quotes are in the value. -/
theorem shielded_quoted {text name lead value rest : Text} {pos place : Nat} {q : Char}
    (hgap : Unclosed text pos place) (hdrop : text.drop place = name ++ (lead ++ (value ++ q :: rest)))
    (hname : '>' ∉ name) (hlead : Text.OpensQuote q lead) (hvalue : q ∉ value) :
    let start := place + name.length + lead.length
    Shielded text [⟨name, ⟨start, start + value.length⟩⟩] pos (start + value.length + 1) := by
  intro start i hi hstop hget
  refine ⟨_, List.mem_singleton_self _, ⟨place, lead, value, rest, q, hdrop, hlead, hvalue, rfl, rfl⟩, ?_⟩
  -- Neither the name nor what stands before the value holds the bracket, and it is not the quote.
  have hbefore : Unclosed text pos (place + (name ++ lead).length) := by
    have hcut : text.drop place = (name ++ lead) ++ (value ++ q :: rest) := by
      rw [hdrop, List.append_assoc]
    refine hgap.append (unclosed_of_drop hcut ?_)
    exact fun hmem => (List.mem_append.mp hmem).elim hname hlead.bracketless
  have hquote : text[place + (name ++ lead ++ value).length]? = some q :=
    Text.getElem?_of_drop (Text.drop_of_drop (v := q :: rest) (by simp [hdrop]))
  simp only [List.length_append] at hbefore hquote
  simp only [Span.contains, Bool.and_eq_true, decide_eq_true_eq]
  have hbehind : start ≤ i := Nat.le_of_not_lt fun hlt => hbefore i hi (by omega) hget
  have hne : i ≠ place + (name.length + lead.length + value.length) := by
    rintro rfl
    rw [hquote] at hget
    rcases hlead.1 with rfl | rfl <;> cases hget
  omega

/-- An attribute is read up to a place behind it, and the closing brackets before that place are those of
its value. -/
theorem sound_read {text name tail : Text} {pos place : Nat} (hpos : pos ≤ place)
    (hgap : Unclosed text pos place) (hdrop : text.drop place = name ++ tail) (hname : name ≠ [])
    (hletters : ∀ c ∈ name, isNameChar c = true) :
    (Round.read ⟨name, ⟨place + name.length + (valuePlace tail).1,
        place + name.length + (valuePlace tail).2.1⟩⟩
      (place + name.length + (valuePlace tail).2.2)).Sound text pos := by
  have hpositive : 0 < name.length := List.length_pos_iff.mpr hname
  have hlength := congrArg List.length hdrop
  simp only [List.length_drop, List.length_append] at hlength
  obtain ⟨hfirst, hlast, hnext⟩ := valuePlace_bounds tail
  have hbracket : '>' ∉ name := fun hmem => absurd (hletters _ hmem) (by decide)
  refine ⟨by omega, by omega, ⟨by simp only; omega, by simp only; omega, by simp only; omega⟩,
    ⟨hname, hletters⟩, ?_⟩
  rcases quoted_or_bracketless tail with ⟨q, lead, value, rest, hlead, hvalue, rfl, hplace⟩ | hbare
  · have hquoted := shielded_quoted hgap hdrop hbracket hlead hvalue
    simpa only [hplace, Nat.add_assoc] using hquoted
  · refine (hgap.append (unclosed_of_drop hdrop hbracket)).append ?_ |>.shielded _
    have hcut : text.drop (place + name.length) =
        tail.take (valuePlace tail).2.2 ++ tail.drop (valuePlace tail).2.2 := by
      rw [Text.drop_of_drop hdrop, List.take_append_drop]
    have hpassed := unclosed_of_drop hcut hbare
    rwa [List.length_take, Nat.min_eq_left hnext] at hpassed

/-- A round goes forward inside the text, and closing brackets that it passes are in quotes. -/
theorem round_sound (text : Text) (pos : Nat) : (round text pos).Sound text pos := by
  have hgap := unclosed_gap text pos
  fun_cases round text pos
  case case1 place hrest =>
    have hend : text.length ≤ place := List.drop_eq_nil_iff.mp hrest
    exact .inl ⟨rfl, fun i hi hlt => hgap i hi (by omega)⟩
  case case2 place rest hrest =>
    exact .inr ⟨place, rfl, Nat.le_add_right _ _, Text.getElem?_of_drop hrest, hgap⟩
  case case3 place c rest hrest _ hslash =>
    obtain ⟨rfl, hhead⟩ := hslash
    obtain ⟨rest, rfl⟩ := List.head?_eq_some_iff.mp hhead
    have hcut : text.drop place = ['/'] ++ '>' :: rest := hrest
    have hclosed := Text.drop_of_drop hcut
    exact .inr ⟨place + 1, rfl, by omega, Text.getElem?_of_drop hclosed,
      hgap.append (unclosed_of_drop hcut (by decide))⟩
  case case4 place c rest hrest hc _ _ _ =>
    have hcut : text.drop place = [c] ++ rest := hrest
    have hlength := congrArg List.length hcut
    simp only [List.length_drop, List.length_append, List.length_singleton] at hlength
    exact ⟨by omega, by omega,
      hgap.append (unclosed_of_drop hcut (by simpa using fun h : '>' = c => hc h.symm))⟩
  case case5 place c rest hrest _ _ name hname nameEnd first last next hplace =>
    have hcut : text.drop place = name ++ (c :: rest).dropWhile isNameChar := by
      rw [hrest, List.takeWhile_append_dropWhile]
    have hletters : ∀ d ∈ name, isNameChar d = true := fun d hd =>
      (Text.span_eq (rfl : Text.span isNameChar (c :: rest) = _)).2.1 d hd
    have hsound := sound_read (Nat.le_add_right _ _) hgap hcut
      (fun h => hname (List.isEmpty_iff.mpr h)) hletters
    rwa [← Text.drop_of_drop hcut, hplace] at hsound

/-! ## All rounds -/

/-- What the rounds from an offset on make of a tag. -/
structure Bounded (text : Text) (pos : Nat) (attributes : List WrittenAttribute) (stop : Nat) : Prop where
  le_stop : pos ≤ stop
  stop_le : stop ≤ text.length
  inside : ∀ a ∈ attributes, a.value.Inside pos stop
  /-- The values stand one behind the other. -/
  ordered : attributes.Pairwise fun a b => a.value.stop ≤ b.value.start
  named : ∀ a ∈ attributes, a.name ≠ [] ∧ ∀ c ∈ a.name, isNameChar c = true
  /-- The tag runs through the first closing bracket that is not in quotes, or through the text. -/
  ends : (∃ last, stop = last + 1 ∧ pos ≤ last ∧ text[last]? = some '>' ∧
      ¬ InQuotes text attributes last ∧ Shielded text attributes pos last) ∨
    stop = text.length ∧ Shielded text attributes pos stop

namespace Bounded

variable {text : Text} {pos next stop : Nat} {attributes : List WrittenAttribute} {a : WrittenAttribute}

theorem done (hpos : pos ≤ text.length) (h : (Round.done stop).Sound text pos) :
    Bounded text pos [] stop := by
  rcases h with ⟨rfl, hunclosed⟩ | ⟨last, rfl, hle, hlast, hunclosed⟩
  · exact ⟨hpos, Nat.le_refl _, by simp, .nil, by simp, .inr ⟨rfl, hunclosed.shielded []⟩⟩
  · have hlt : last < text.length := (List.getElem?_eq_some_iff.mp hlast).1
    have hnone : ¬ InQuotes text [] last := fun ⟨b, hb, _⟩ => List.not_mem_nil hb
    exact ⟨by omega, hlt, by simp, .nil, by simp,
      .inl ⟨last, rfl, hle, hlast, hnone, hunclosed.shielded []⟩⟩

theorem skipped (h : (Round.skipped next).Sound text pos) (hb : Bounded text next attributes stop) :
    Bounded text pos attributes stop := by
  obtain ⟨hlt, -, hunclosed⟩ := h
  have hle := hb.le_stop
  have hpassed := hunclosed.shielded attributes
  refine ⟨by omega, hb.stop_le, fun b hmem => (hb.inside b hmem).mono (by omega) (Nat.le_refl _),
    hb.ordered, hb.named, ?_⟩
  rcases hb.ends with ⟨last, hstop, hlast, hget, hnot, hs⟩ | ⟨hstop, hs⟩
  · exact .inl ⟨last, hstop, by omega, hget, hnot, hpassed.append hs⟩
  · exact .inr ⟨hstop, hpassed.append hs⟩

theorem read (h : (Round.read a next).Sound text pos) (hb : Bounded text next attributes stop) :
    Bounded text pos (a :: attributes) stop := by
  obtain ⟨hlt, -, hinside, hname, hshielded⟩ := h
  have hle := hb.le_stop
  have hvalue := hinside.stop_le
  have hpassed : Shielded text (a :: attributes) pos next :=
    hshielded.mono (List.cons_subset_cons a (List.nil_subset _))
  have hrest {upto : Nat} (hs : Shielded text attributes next upto) :
      Shielded text (a :: attributes) pos upto :=
    hpassed.append (hs.mono (List.subset_cons_self a attributes))
  refine ⟨by omega, hb.stop_le, ?_, ?_, ?_, ?_⟩
  · refine List.forall_mem_cons.mpr ⟨hinside.mono (Nat.le_refl _) hle, fun b hmem => ?_⟩
    exact (hb.inside b hmem).mono (by omega) (Nat.le_refl _)
  · refine List.pairwise_cons.mpr ⟨fun b hmem => ?_, hb.ordered⟩
    exact Nat.le_trans hvalue (hb.inside b hmem).lo_le
  · exact List.forall_mem_cons.mpr ⟨hname, hb.named⟩
  rcases hb.ends with ⟨last, hstop, hlast, hget, hnot, hs⟩ | ⟨hstop, hs⟩
  · refine .inl ⟨last, hstop, by omega, hget, ?_, hrest hs⟩
    -- The bracket stands behind the value that was read in this round.
    rintro ⟨b, hmem, hquoted, hcontains⟩
    rcases List.mem_cons.mp hmem with rfl | hmem
    · simp only [Span.contains, Bool.and_eq_true, decide_eq_true_eq] at hcontains
      omega
    · exact hnot ⟨b, hmem, hquoted, hcontains⟩
  · exact .inr ⟨hstop, hrest hs⟩

/-- Every closing bracket but the one that ends the tag is in quotes. -/
theorem shielded (hb : Bounded text pos attributes stop) : Shielded text attributes pos (stop - 1) := by
  intro i hi hlt hget
  rcases hb.ends with ⟨last, hstop, -, -, -, hs⟩ | ⟨-, hs⟩
  · exact hs i hi (by omega) hget
  · exact hs i hi (by omega) hget

end Bounded

/-- What `scanFrom` reads is what one round reads, and then what it reads from the next place on. -/
theorem scanFrom_drop {text : Text} {pos : Nat} (hpos : pos ≤ text.length) :
    scanFrom pos (text.drop pos) =
      match round text pos with
      | .done stop => ([], stop)
      | .skipped next => scanFrom next (text.drop next)
      | .read a next =>
        (a :: (scanFrom next (text.drop next)).1, (scanFrom next (text.drop next)).2) := by
  rw [scanFrom, round]
  simp only [← List.drop_drop]
  split
  · rename_i hnil
    simp only [hnil, List.length_drop]
    congr 1
    omega
  · rename_i c rest hcons
    simp only [hcons]
    split
    · rfl
    split
    · rfl
    split
    · simp only [← List.drop_drop, hcons]
      rfl
    · simp only [← List.drop_drop, hcons]

/-- The rounds come to an end with what `scanFrom` reads: each that goes on moves forward, so that there
are not more of them than characters. -/
theorem rounds_scanFrom {text : Text} {count pos : Nat} (hpos : pos ≤ text.length)
    (hcount : text.length - pos < count) :
    rounds text count pos = some (scanFrom pos (text.drop pos)) ∧
      Bounded text pos (scanFrom pos (text.drop pos)).1 (scanFrom pos (text.drop pos)).2 := by
  induction count generalizing pos with
  | zero => omega
  | succ count ih =>
    have hsound := round_sound text pos
    rw [rounds, scanFrom_drop hpos]
    cases hround : round text pos with
    | done stop => exact ⟨rfl, .done hpos (hround ▸ hsound)⟩
    | skipped next =>
      rw [hround] at hsound
      obtain ⟨hlt, hle, -⟩ := id hsound
      obtain ⟨hrounds, hb⟩ := ih hle (by omega)
      exact ⟨hrounds, hb.skipped hsound⟩
    | read a next =>
      rw [hround] at hsound
      obtain ⟨hlt, hle, -⟩ := id hsound
      obtain ⟨hrounds, hb⟩ := ih hle (by omega)
      exact ⟨by simp only [hrounds, Option.map_some], hb.read hsound⟩

/-! ## The whole tag -/

@[simp] theorem scan_start (text : Text) (start nameEnd : Nat) :
    (scan text start nameEnd).start = start := by
  unfold scan; split <;> rfl

/-- The tag is what the rounds read. -/
theorem rounds_scan (text : Text) (start : Nat) {nameEnd : Nat} (h : nameEnd ≤ text.length) :
    rounds text (text.length - nameEnd + 1) nameEnd =
        some ((scan text start nameEnd).attributes, (scan text start nameEnd).stop) ∧
      Bounded text nameEnd (scan text start nameEnd).attributes (scan text start nameEnd).stop := by
  obtain ⟨hrounds, hb⟩ := rounds_scanFrom h (Nat.lt_succ_self (text.length - nameEnd))
  have hscan : scanFrom nameEnd (text.drop nameEnd) =
      ((scan text start nameEnd).attributes, (scan text start nameEnd).stop) := by
    rw [scan]
    split
    · rfl
    · obtain rfl : nameEnd = text.length := by omega
      rw [List.drop_length, scanFrom]
      rfl
  rw [hscan] at hrounds hb
  exact ⟨hrounds, hb⟩

/-- A tag whose name lies inside the source ends at or behind its name and inside the source. -/
theorem scan_bounds {text : Text} {nameEnd : Nat} (start : Nat) (h : nameEnd ≤ text.length) :
    nameEnd ≤ (scan text start nameEnd).stop ∧ (scan text start nameEnd).stop ≤ text.length :=
  let hb := (rounds_scan text start h).2
  ⟨hb.le_stop, hb.stop_le⟩

/-- The values of a tag's attributes lie between the tag's name and its end. -/
theorem value_inside_scan {text : Text} {start nameEnd : Nat} {a : WrittenAttribute}
    (ha : a ∈ (scan text start nameEnd).attributes) :
    a.value.Inside nameEnd (scan text start nameEnd).stop := by
  by_cases h : nameEnd ≤ text.length
  · exact (rounds_scan text start h).2.inside a ha
  · rw [scan, if_neg (by omega)] at ha
    exact absurd ha List.not_mem_nil

theorem mem_of_attribute? {t : OpenTag} {name : Text} {a : WrittenAttribute}
    (h : t.attribute? name = some a) : a ∈ t.attributes := by
  have := List.mem_of_find?_eq_some h
  simpa using this

/-- The reading of an opening tag comes to an end inside the text. The values of its attributes stand one
behind the other between the name and the end of the tag, and names hold neither whitespace nor one of
`/`, `>` and `=`. The tag runs through the first closing bracket that is not in the value of an attribute
written in quotes, or through the text if there is none. -/
theorem scan_ends_at_bracket (text : Text) (start : Nat) {nameEnd : Nat} (h : nameEnd ≤ text.length) :
    let tag := scan text start nameEnd
    rounds text (text.length - nameEnd + 1) nameEnd = some (tag.attributes, tag.stop) ∧
    nameEnd ≤ tag.stop ∧ tag.stop ≤ text.length ∧
    (tag.attributes.Pairwise fun a b => a.value.stop ≤ b.value.start) ∧
    (∀ a ∈ tag.attributes, a.value.Inside nameEnd tag.stop ∧ a.name ≠ [] ∧
      ∀ c ∈ a.name, Text.isSpace c = false ∧ c ≠ '/' ∧ c ≠ '>' ∧ c ≠ '=') ∧
    (∀ i, nameEnd ≤ i → i < tag.stop → i ≠ tag.stop - 1 → text[i]? = some '>' →
      InQuotes text tag.attributes i) ∧
    ((∃ last, tag.stop = last + 1 ∧ nameEnd ≤ last ∧ text[last]? = some '>' ∧
        ¬ InQuotes text tag.attributes last ∧
        ∀ i, nameEnd ≤ i → i < last → text[i]? = some '>' → InQuotes text tag.attributes i) ∨
      (tag.stop = text.length ∧
        ∀ i, nameEnd ≤ i → text[i]? = some '>' → InQuotes text tag.attributes i)) := by
  intro tag
  obtain ⟨hrounds, hb⟩ := rounds_scan text start h
  refine ⟨hrounds, hb.le_stop, hb.stop_le, hb.ordered, fun a ha => ?_, ?_, ?_⟩
  · obtain ⟨hname, hletters⟩ := hb.named a ha
    exact ⟨hb.inside a ha, hname, fun c hc => by simpa [isNameChar, and_assoc] using hletters c hc⟩
  · intro i hi hstop hne
    exact hb.shielded i hi (Nat.lt_of_le_of_ne (Nat.le_sub_one_of_lt hstop) hne)
  · rcases hb.ends with hlast | ⟨hstop, hs⟩
    · exact .inl hlast
    · refine .inr ⟨hstop, fun i hi hget => hs i hi ?_ hget⟩
      rw [hstop]
      exact (List.getElem?_eq_some_iff.mp hget).1

/-- A quote that is never closed shields no bracket: of the three brackets, the first is in a quoted value
and the second ends the tag. -/
theorem scan_ends_at_bracket_unclosed :
    ∃ text : Text, text = "<a b='x>y'= c=\"z>.>".toList ∧ 2 ≤ text.length ∧
      rounds text (text.length - 2 + 1) 2 =
        some ((scan text 0 2).attributes, (scan text 0 2).stop) ∧
      (scan text 0 2).attributes =
        [⟨['b'], ⟨6, 9⟩⟩, ⟨['c'], ⟨13, 13⟩⟩, ⟨['"', 'z'], ⟨16, 16⟩⟩] ∧ (scan text 0 2).stop = 17 ∧
      InQuotes text (scan text 0 2).attributes 7 ∧ ¬ InQuotes text (scan text 0 2).attributes 16 := by
  let text : Text := "<a b='x>y'= c=\"z>.>".toList
  have hlength : 2 ≤ text.length := by decide
  have hattributes : (scan text 0 2).attributes =
      [⟨['b'], ⟨6, 9⟩⟩, ⟨['c'], ⟨13, 13⟩⟩, ⟨['"', 'z'], ⟨16, 16⟩⟩] := by decide +kernel
  have hstop : (scan text 0 2).stop = 17 := by decide +kernel
  obtain ⟨hrounds, -, -, -, -, hpassed, hends⟩ := scan_ends_at_bracket text 0 hlength
  have hquoted : InQuotes text (scan text 0 2).attributes 7 :=
    hpassed 7 (by decide) (by rw [hstop]; decide) (by rw [hstop]; decide) rfl
  refine ⟨text, rfl, hlength, hrounds, hattributes, hstop, hquoted, ?_⟩
  rcases hends with ⟨last, hlast, -, -, hnot, -⟩ | ⟨hwhole, -⟩
  · obtain rfl : last = 16 := by omega
    exact hnot
  · rw [hstop] at hwhole
    exact absurd hwhole (by decide)

end Untranslated.OpenTag
