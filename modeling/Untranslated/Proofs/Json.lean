import Untranslated.Json.Reader
import Untranslated.Json.Writer
import Untranslated.Proofs.Text

/-!
# Reading back what was written

`Spelled v s` says that the text `s` is a JSON text and denotes the value `v`. It gives the grammar of
the format without numbers that have a fraction or an exponent, and knows neither the reader nor the
writer: whitespace may stand anywhere between the parts, a character may be escaped or not.

* Every spelling of a value that can be written is read as that value (`Spelled.parse?_eq`): its
  integers have no more digits than are read (`SpelledInt.readNumber_eq`).
* What the indented layout writes is a spelling (`spelled_prettyAt`), of every value whose numbers are
  whole (`Whole`).
-/

namespace Untranslated

/-! ## Digits -/

namespace Text

theorem isDigit_iff {c : Char} : isDigit c = true ↔ c.isDigit = true := by
  simp only [isDigit, Char.isDigit, Bool.and_eq_true, decide_eq_true_eq]
  rfl

theorem hexValue_of_isDigit {c : Char} (h : isDigit c = true) : hexValue c = c.toNat - '0'.toNat := by
  rw [hexValue, if_pos h]

/-- The number that decimal digits denote. -/
theorem toNat_eq_ofDigitChars {s : Text} (h : ∀ c ∈ s, isDigit c = true) :
    toNat 10 s = Nat.ofDigitChars 10 s 0 := by
  rw [toNat, Nat.ofDigitChars_eq_foldl]
  generalize 0 = n
  induction s generalizing n with
  | nil => rfl
  | cons c s ih =>
    obtain ⟨hc, hs⟩ := List.forall_mem_cons.mp h
    rw [List.foldl_cons, List.foldl_cons, ih hs, hexValue_of_isDigit hc, Nat.mul_comm n 10]

theorem isDigit_of_mem_ofNat {n : Nat} {c : Char} (h : c ∈ ofNat n) : isDigit c = true :=
  isDigit_iff.mpr (Nat.isDigit_of_mem_toDigits (by omega) (by omega) h)

theorem toNat_ofNat (n : Nat) : toNat 10 (ofNat n) = n := by
  rw [toNat_eq_ofDigitChars fun c hc => isDigit_of_mem_ofNat hc]
  exact Nat.ofDigitChars_ten_toDigits

/-- Only zero is written with a zero in front. -/
theorem head?_ofNat {n : Nat} (h : (ofNat n).head? = some '0') : n = 0 := by
  induction n using Nat.strongRecOn with
  | ind n ih =>
    by_cases hn : n < 10
    · rw [ofNat, Nat.toDigits_of_lt_base hn] at h
      exact Nat.digitChar_eq_zero.mp (Option.some.inj h)
    · obtain ⟨c, cs, hcs⟩ := List.exists_cons_of_ne_nil (Nat.toDigits_ne_nil (n := n / 10) (b := 10))
      rw [ofNat, Nat.toDigits_of_base_le (by omega) (by omega), hcs] at h
      have := ih (n / 10) (by omega) (by rw [ofNat, hcs]; exact h)
      omega

end Text

namespace Json

/-! ## The grammar -/

/-- Whitespace between the parts of a text. -/
def Space (w : Text) : Prop := ∀ c ∈ w, c = ' ' ∨ c = '\t' ∨ c = '\n' ∨ c = '\r'

/-- The characters that can be written behind a backslash, and what they stand for. -/
def escapes : List (Char × Char) :=
  [('"', '"'), ('\\', '\\'), ('/', '/'), ('n', '\n'), ('r', '\r'), ('t', '\t'), ('b', '\x08'),
   ('f', '\x0c')]

/-- The spellings of a character inside a string. -/
inductive SpelledChar : Char → Text → Prop where
  | plain {c : Char} (quote : c ≠ '"') (backslash : c ≠ '\\') (visible : 0x20 ≤ c.toNat) :
      SpelledChar c [c]
  | escape {e c : Char} (h : (e, c) ∈ escapes) : SpelledChar c ['\\', e]
  | code {c : Char} {digits : Text} (hex : ∀ d ∈ digits, Text.isHexDigit d = true)
      (four : digits.length = 4) (value : Text.toNat 16 digits = c.toNat) :
      SpelledChar c ('\\' :: 'u' :: digits)

/-- The spellings of a string without its quotes. -/
inductive SpelledString : Text → Text → Prop where
  | nil : SpelledString [] []
  | cons {c : Char} {s t u : Text} (head : SpelledChar c t) (tail : SpelledString s u) :
      SpelledString (c :: s) (t ++ u)

/-- Digits without a zero in front of others. -/
structure Numeral (ds : Text) : Prop where
  ne_nil : ds ≠ []
  digits : ∀ c ∈ ds, Text.isDigit c = true
  lead : ds.head? = some '0' → ds = ['0']

/-- The spellings of an integer. -/
inductive SpelledInt : Int → Text → Prop where
  | unsigned {ds : Text} (h : Numeral ds) : SpelledInt (Text.toNat 10 ds) ds
  | minus {ds : Text} (h : Numeral ds) : SpelledInt (-(Text.toNat 10 ds : Int)) ('-' :: ds)

/-- A member of an object with the texts of its name and its value. -/
structure SpelledMember where
  name : Text
  nameText : Text
  value : Json
  valueText : Text

namespace SpelledMember

/-- The member as it is written. -/
def text (m : SpelledMember) : Text := m.nameText ++ ':' :: m.valueText

/-- The member of the object. -/
def pair (m : SpelledMember) : Text × Json := (m.name, m.value)

/-- The name is a string with whitespace around it. -/
def Named (m : SpelledMember) : Prop :=
  ∃ w t w', Space w ∧ SpelledString m.name t ∧ Space w' ∧ m.nameText = w ++ '"' :: t ++ '"' :: w'

end SpelledMember

/-- The spellings of a value. -/
inductive Spelled : Json → Text → Prop where
  | null : Spelled .null "null".toList
  | true : Spelled (.bool true) "true".toList
  | false : Spelled (.bool false) "false".toList
  | int {n : Int} {t : Text} (h : SpelledInt n t) : Spelled (.int n) t
  | string {s t : Text} (h : SpelledString s t) : Spelled (.string s) ('"' :: t ++ ['"'])
  | emptyArray {w : Text} (h : Space w) : Spelled (.array []) ('[' :: w ++ [']'])
  | array {items : List (Json × Text)} (ne_nil : items ≠ [])
      (each : ∀ p ∈ items, Spelled p.1 p.2) :
      Spelled (.array (items.map Prod.fst)) ('[' :: Text.join [','] (items.map Prod.snd) ++ [']'])
  | emptyObject {w : Text} (h : Space w) : Spelled (.object []) ('\x7b' :: w ++ ['\x7d'])
  | object {members : List SpelledMember} (ne_nil : members ≠ []) (named : ∀ m ∈ members, m.Named)
      (each : ∀ m ∈ members, Spelled m.value m.valueText) :
      Spelled (.object (members.map SpelledMember.pair))
        ('\x7b' :: Text.join [','] (members.map SpelledMember.text) ++ ['\x7d'])
  | spaced {v : Json} {w t w' : Text} (before : Space w) (inner : Spelled v t) (behind : Space w') :
      Spelled v (w ++ t ++ w')

/-! ## Values that can be written -/

theorem areWritable_iff {vs : List Json} : areWritable vs = true ↔ ∀ v ∈ vs, v.isWritable = true := by
  induction vs with
  | nil => simp [areWritable]
  | cons v vs ih => simp [areWritable, ih]

theorem membersWritable_iff {ms : List (Text × Json)} :
    membersWritable ms = true ↔ ∀ m ∈ ms, m.2.isWritable = true := by
  induction ms with
  | nil => simp [membersWritable]
  | cons m ms ih => simp [membersWritable, ih]

theorem isWritable_int {n : Int} :
    (Json.int n).isWritable = true ↔ n.natAbs < Numeral.leastOverlong := by
  rw [isWritable, decide_eq_true_iff]

@[simp] theorem isWritable_string (s : Text) : (Json.string s).isWritable = true := by simp [isWritable]

@[simp] theorem isWritable_array {vs : List Json} :
    (Json.array vs).isWritable = true ↔ ∀ v ∈ vs, v.isWritable = true := by
  rw [isWritable, areWritable_iff]

@[simp] theorem isWritable_object {ms : List (Text × Json)} :
    (Json.object ms).isWritable = true ↔ ∀ m ∈ ms, m.2.isWritable = true := by
  rw [isWritable, membersWritable_iff]

/-! ## Whitespace -/

theorem Space.append {w w' : Text} (h : Space w) (h' : Space w') : Space (w ++ w') :=
  fun c hc => (List.mem_append.mp hc).elim (h c) (h' c)

theorem space_nil : Space [] := fun _ h => absurd h List.not_mem_nil

theorem space_newline (level : Nat) : Space (newline level) := by
  intro c hc
  rcases List.mem_cons.mp hc with rfl | hc
  · simp
  · simp [List.eq_of_mem_replicate hc]

theorem skipSpace_append {w : Text} (h : Space w) (s : Text) : skipSpace (w ++ s) = skipSpace s := by
  refine List.dropWhile_append_of_pos fun c hc => ?_
  rcases h c hc with rfl | rfl | rfl | rfl <;> rfl

theorem skipSpace_skipSpace (s : Text) : skipSpace (skipSpace s) = skipSpace s := by
  induction s with
  | nil => rfl
  | cons c s ih =>
    unfold skipSpace at ih ⊢
    rw [List.dropWhile_cons]
    split
    · exact ih
    · exact List.dropWhile_cons_of_neg ‹_›

/-- What begins with no whitespace stays. -/
theorem skipSpace_cons {c : Char} (h : ¬Space [c]) (s : Text) : skipSpace (c :: s) = c :: s := by
  refine List.dropWhile_cons_of_neg fun hc => h fun d hd => ?_
  rw [List.mem_singleton.mp hd]
  simpa [or_assoc] using hc

/-- What stands between a character in front and one behind it. -/
theorem skipSpace_enclosed {c : Char} (h : ¬Space [c]) (d : Char) (s rest : Text) :
    skipSpace (c :: s ++ [d] ++ rest) = c :: (s ++ d :: rest) := by
  rw [List.append_assoc, List.cons_append, List.singleton_append, skipSpace_cons h]

/-- Reading a value begins with skipping whitespace. -/
theorem readValue_skipSpace (fuel : Nat) (s : Text) :
    readValue fuel (skipSpace s) = readValue fuel s := by
  cases fuel with
  | zero => simp only [readValue]
  | succ fuel => simp only [readValue, skipSpace_skipSpace]

theorem readItems_skipSpace (fuel : Nat) (s : Text) :
    readItems fuel (skipSpace s) = readItems fuel s := by
  cases fuel with
  | zero => simp only [readItems]
  | succ fuel => simp only [readItems, readValue_skipSpace]

theorem readMembers_skipSpace (fuel : Nat) (s : Text) :
    readMembers fuel (skipSpace s) = readMembers fuel s := by
  cases fuel with
  | zero => simp only [readMembers]
  | succ fuel => simp only [readMembers, skipSpace_skipSpace]

/-! ## Strings -/

/-- No surrogate is a character, so a code of four digits that denotes a character stands alone. -/
theorem not_surrogate (c : Char) : ¬(0xD800 ≤ c.toNat ∧ c.toNat < 0xDC00) := by
  have hvalid : c.toNat < 0xD800 ∨ (0xDFFF < c.toNat ∧ c.toNat < 0x110000) := c.valid
  omega

theorem readHex4_append {ds : Text} (hex : ∀ d ∈ ds, Text.isHexDigit d = true) (four : ds.length = 4)
    (rest : Text) : readHex4 (ds ++ rest) = some (Text.toNat 16 ds, rest) := by
  match ds, four with
  | [a, b, c, d], _ =>
    have hall : [a, b, c, d].all Text.isHexDigit = true := List.all_eq_true.mpr hex
    simp only [List.cons_append, List.nil_append, readHex4, hall, if_true]

theorem readEscape_escape {e c : Char} (h : (e, c) ∈ escapes) (rest : Text) :
    readEscape (e :: rest) = some (c, rest) := by
  simp only [escapes, List.mem_cons, Prod.mk.injEq, List.not_mem_nil, or_false] at h
  rcases h with ⟨rfl, rfl⟩ | ⟨rfl, rfl⟩ | ⟨rfl, rfl⟩ | ⟨rfl, rfl⟩ | ⟨rfl, rfl⟩ | ⟨rfl, rfl⟩ |
    ⟨rfl, rfl⟩ | ⟨rfl, rfl⟩ <;> rfl

theorem readEscape_code {c : Char} {ds : Text} (hex : ∀ d ∈ ds, Text.isHexDigit d = true)
    (four : ds.length = 4) (value : Text.toNat 16 ds = c.toNat) (rest : Text) :
    readEscape ('u' :: (ds ++ rest)) = some (c, rest) := by
  simp only [readEscape, readHex4_append hex four, value, Option.bind_eq_bind, Option.bind_some,
    if_neg (not_surrogate c), Char.ofNat_toNat]

/-- A character is read off the front of a string. -/
theorem readString_char {c : Char} {t : Text} (h : SpelledChar c t) (fuel : Nat) (rest : Text) :
    readString (fuel + 1) (t ++ rest) = (readString fuel rest).map fun p => (c :: p.1, p.2) := by
  cases h with
  | plain quote backslash visible =>
    rw [List.singleton_append, readString, if_neg quote, if_neg backslash, if_neg (by omega)]
    cases readString fuel rest <;> rfl
  | escape hmem =>
    rw [List.cons_append, readString, if_neg (by decide), if_pos rfl, List.singleton_append,
      readEscape_escape hmem]
    simp only [Option.bind_eq_bind, Option.bind_some]
    cases readString fuel rest <;> rfl
  | code hex four value =>
    rw [List.cons_append, readString, if_neg (by decide), if_pos rfl, List.cons_append,
      readEscape_code hex four value]
    simp only [Option.bind_eq_bind, Option.bind_some]
    cases readString fuel rest <;> rfl

theorem SpelledChar.length_pos {c : Char} {t : Text} (h : SpelledChar c t) : 0 < t.length := by
  cases h <;> simp

/-- A string is read up to its closing quote. -/
theorem SpelledString.readString_eq {s t : Text} (h : SpelledString s t) {fuel : Nat}
    (hfuel : t.length < fuel) (rest : Text) :
    readString fuel (t ++ '"' :: rest) = some (s, rest) := by
  induction h generalizing fuel with
  | nil =>
    cases fuel with
    | zero => omega
    | succ fuel => rw [List.nil_append, readString, if_pos rfl]
  | @cons c s t u head tail ih =>
    have hpos := head.length_pos
    rw [List.length_append] at hfuel
    cases fuel with
    | zero => omega
    | succ fuel =>
      rw [List.append_assoc, readString_char head, ih (by omega)]
      rfl

/-! ## Numbers -/

/-- The text does not go on with a number. -/
def Ends (rest : Text) : Prop :=
  ∀ c ∈ rest.head?, Text.isDigit c = false ∧ c ≠ '.' ∧ c ≠ 'e' ∧ c ≠ 'E'

theorem Ends.space_append {w rest : Text} (hw : Space w) (h : Ends rest) : Ends (w ++ rest) := by
  cases w with
  | nil => exact h
  | cons c w =>
    intro d hd
    obtain rfl : c = d := Option.some.inj hd
    rcases hw c List.mem_cons_self with rfl | rfl | rfl | rfl <;> decide

theorem ends_nil : Ends [] := fun _ h => absurd h (by simp)

theorem Ends.readFraction_eq {rest : Text} (h : Ends rest) : readFraction rest = none := by
  unfold readFraction
  split
  · exact absurd rfl (h '.' rfl).2.1
  · rfl

theorem Ends.readExponent_eq {rest : Text} (h : Ends rest) : readExponent rest = none := by
  unfold readExponent
  split
  · rename_i c rest
    obtain ⟨-, -, he, hE⟩ := h c rfl
    rw [if_neg (by simp [he, hE])]
  · rfl

/-- A whole number is read up to its last digit. -/
theorem Numeral.readWhole_eq {ds rest : Text} (h : Numeral ds) (hrest : Ends rest) :
    readWhole (ds ++ rest) = (ds, rest) := by
  unfold readWhole
  split
  · rename_i tail heq
    obtain ⟨d, more, rfl⟩ := List.exists_cons_of_ne_nil h.ne_nil
    obtain ⟨rfl, rfl⟩ := List.cons.inj heq
    obtain rfl : more = [] := (List.cons.inj (h.lead rfl)).2
    rfl
  · exact Text.span_append h.digits fun c hc => (hrest c hc).1

theorem Numeral.takeMinus_eq {ds : Text} (h : Numeral ds) (rest : Text) :
    takeMinus (ds ++ rest) = (false, ds ++ rest) := by
  unfold takeMinus
  split
  · rename_i tail heq
    obtain ⟨d, more, rfl⟩ := List.exists_cons_of_ne_nil h.ne_nil
    obtain ⟨rfl, -⟩ := List.cons.inj heq
    exact absurd (h.digits '-' List.mem_cons_self) (by decide)
  · rfl

/-- A number below a power of ten has no more digits than the power has zeros. -/
theorem Numeral.length_le {ds : Text} (h : Numeral ds) {k : Nat} (hk : 0 < k)
    (hlt : Text.toNat 10 ds < Nat.pow 10 k) : ds.length ≤ k := by
  obtain ⟨d, s, rfl⟩ := List.exists_cons_of_ne_nil h.ne_nil
  by_cases hd : d = '0'
  · obtain rfl : s = [] := (List.cons.inj (h.lead (by rw [hd]; rfl))).2
    exact hk
  · have hpos : 1 ≤ d.toNat - '0'.toNat := by
      have hdigit := h.digits d List.mem_cons_self
      have hne : d.toNat ≠ '0'.toNat := fun he => hd (Char.toNat_inj.mp he)
      simp only [Text.isDigit, Bool.and_eq_true, decide_eq_true_eq] at hdigit
      have hle : '0'.toNat ≤ d.toNat := hdigit.1
      omega
    rw [Text.toNat_eq_ofDigitChars h.digits, Nat.ofDigitChars_cons,
      Nat.ofDigitChars_eq_ofDigitChars_zero] at hlt
    have hpow : 10 ^ s.length < 10 ^ k :=
      calc 10 ^ s.length ≤ 10 ^ s.length * (10 * 0 + (d.toNat - '0'.toNat)) :=
            Nat.le_mul_of_pos_right _ (by omega)
        _ ≤ _ := Nat.le_add_right _ _
        _ < 10 ^ k := hlt
    exact (Nat.pow_lt_pow_iff_right (by omega)).mp hpow

theorem SpelledInt.readNumber_eq {n : Int} {t rest : Text} (h : SpelledInt n t)
    (hn : n.natAbs < Numeral.leastOverlong) (hrest : Ends rest) :
    readNumber (t ++ rest) = some (.int n, rest) := by
  delta Numeral.leastOverlong at hn
  cases h with
  | unsigned hds =>
    have hne : t.isEmpty = false := by simpa using hds.ne_nil
    have hlength := hds.length_le (by decide) hn
    simp [readNumber, hds.takeMinus_eq, hds.readWhole_eq hrest, hne, hrest.readFraction_eq,
      hrest.readExponent_eq, hlength]
  | @minus ds hds =>
    have hne : ds.isEmpty = false := by simpa using hds.ne_nil
    rw [Int.natAbs_neg] at hn
    have hlength := hds.length_le (by decide) hn
    simp [readNumber, takeMinus, hds.readWhole_eq hrest, hne, hrest.readFraction_eq,
      hrest.readExponent_eq, hlength]

theorem SpelledInt.head {n : Int} {t : Text} (h : SpelledInt n t) :
    ∃ c s, t = c :: s ∧ (c = '-' ∨ Text.isDigit c = true) := by
  cases h with
  | unsigned hds =>
    obtain ⟨d, more, rfl⟩ := List.exists_cons_of_ne_nil hds.ne_nil
    exact ⟨d, more, rfl, .inr (hds.digits d List.mem_cons_self)⟩
  | minus hds => exact ⟨'-', _, rfl, .inl rfl⟩

/-- What begins like a number is read as one. -/
theorem readValue_number {c : Char} (h : c = '-' ∨ Text.isDigit c = true) (fuel : Nat) (s : Text) :
    readValue (fuel + 1) (c :: s) = readNumber (c :: s) := by
  have hne : ∀ {d : Char}, ¬(d = '-' ∨ Text.isDigit d = true) → c ≠ d := fun hd he => hd (he ▸ h)
  have hspace : ¬Space [c] := fun hs => by
    rcases hs c List.mem_cons_self with rfl | rfl | rfl | rfl <;> exact absurd h (by decide)
  have hafter : ∀ {d : Char} (lead : Text), c ≠ d → Text.after? (d :: lead) (c :: s) = none :=
    fun lead hd => by rw [Text.after?, if_neg hd.symm]
  rw [readValue, skipSpace_cons hspace]
  split
  · rename_i heq
    exact absurd (List.cons.inj heq).1 (hne (by decide))
  · rename_i heq
    exact absurd (List.cons.inj heq).1 (hne (by decide))
  · rename_i heq
    exact absurd (List.cons.inj heq).1 (hne (by decide))
  · rw [show "null".toList = 'n' :: "ull".toList from rfl, hafter _ (hne (by decide)),
      show "true".toList = 't' :: "rue".toList from rfl, hafter _ (hne (by decide)),
      show "false".toList = 'f' :: "alse".toList from rfl, hafter _ (hne (by decide))]

/-! ## Values -/

/-- The text is read as the value, apart from whitespace at its end. -/
def Reads (v : Json) (s : Text) : Prop :=
  ∃ w, Space w ∧ ∀ fuel rest, s.length < fuel → Ends rest →
    readValue fuel (s ++ rest) = some (v, w ++ rest)

/-- A text that is read as a value to its end. -/
theorem Reads.exact {v : Json} {s : Text} (h : ∀ fuel rest, s.length ≤ fuel → Ends rest →
    readValue (fuel + 1) (s ++ rest) = some (v, rest)) : Reads v s := by
  refine ⟨[], space_nil, fun fuel rest hfuel hrest => ?_⟩
  obtain ⟨fuel, rfl⟩ : ∃ n, fuel = n + 1 := ⟨fuel - 1, by omega⟩
  exact h fuel rest (by omega) hrest

theorem reads_spaced {v : Json} {w t w' : Text} (before : Space w) (inner : Reads v t)
    (behind : Space w') : Reads v (w ++ t ++ w') := by
  obtain ⟨u, hu, hread⟩ := inner
  refine ⟨u ++ w', hu.append behind, fun fuel rest hfuel hrest => ?_⟩
  rw [List.length_append, List.length_append] at hfuel
  rw [List.append_assoc, List.append_assoc, ← readValue_skipSpace, skipSpace_append before,
    readValue_skipSpace, hread fuel (w' ++ rest) (by omega) (hrest.space_append behind),
    List.append_assoc]

/-- A value begins with something that is neither whitespace nor a closing bracket. -/
theorem Spelled.head {v : Json} {s : Text} (h : Spelled v s) (rest : Text) :
    ∃ c t, skipSpace (s ++ rest) = c :: t ∧ c ≠ ']' := by
  have first : ∀ {c : Char} (t : Text), ¬Space [c] → c ≠ ']' →
      ∃ d u, skipSpace (c :: t) = d :: u ∧ d ≠ ']' :=
    fun t hspace hc => ⟨_, _, skipSpace_cons hspace t, hc⟩
  induction h generalizing rest with
  | null => exact first (c := 'n') _ (by simp [Space]) (by decide)
  | true => exact first (c := 't') _ (by simp [Space]) (by decide)
  | false => exact first (c := 'f') _ (by simp [Space]) (by decide)
  | int h =>
    obtain ⟨c, s, rfl, hc⟩ := h.head
    refine first _ (fun hs => ?_) (fun he => absurd (he ▸ hc) (by decide))
    rcases hs c List.mem_cons_self with rfl | rfl | rfl | rfl <;> exact absurd hc (by decide)
  | string | emptyArray | array | emptyObject | object => exact first _ (by simp [Space]) (by decide)
  | spaced before _ _ ih =>
    rw [List.append_assoc, List.append_assoc, skipSpace_append before]
    exact ih _

theorem join_cons_append (s : Text) (more : List Text) (rest : Text) :
    Text.join [','] (s :: more) ++ rest =
      s ++ (match more with
        | [] => rest
        | _ :: _ => ',' :: (Text.join [','] more ++ rest)) := by
  cases more with
  | nil => rfl
  | cons t more => simp [Text.join]

/-- Items are read up to the closing bracket. -/
theorem readItems_join {items : List (Json × Text)} (hne : items ≠ [])
    (h : ∀ p ∈ items, Reads p.1 p.2) (fuel : Nat)
    (hfuel : (Text.join [','] (items.map Prod.snd)).length + 1 < fuel) (rest : Text) :
    readItems fuel (Text.join [','] (items.map Prod.snd) ++ ']' :: rest) =
      some (items.map Prod.fst, rest) := by
  induction items generalizing fuel with
  | nil => exact absurd rfl hne
  | cons p items ih =>
    obtain ⟨hp, hitems⟩ := List.forall_mem_cons.mp h
    obtain ⟨w, hw, hread⟩ := hp
    obtain ⟨fuel, rfl⟩ : ∃ n, fuel = n + 1 := ⟨fuel - 1, by omega⟩
    cases items with
    | nil =>
      simp only [List.map_cons, List.map_nil, Text.join] at hfuel ⊢
      rw [readItems, hread fuel (']' :: rest) (by omega) (by rintro c ⟨⟩; decide)]
      simp only [Option.bind_eq_bind, Option.bind_some, skipSpace_append hw,
        skipSpace_cons (show ¬Space [']'] by simp [Space])]
    | cons q items =>
      have ih := ih (List.cons_ne_nil _ _) hitems fuel
      simp only [List.map_cons] at hfuel ih ⊢
      rw [join_cons_append]
      simp only [Text.join, List.length_append, List.length_cons, List.length_nil] at hfuel
      rw [readItems, hread fuel _ (by omega) (by rintro c ⟨⟩; decide)]
      simp only [Option.bind_eq_bind, Option.bind_some, skipSpace_append hw,
        skipSpace_cons (show ¬Space [','] by simp [Space])]
      rw [ih (by omega)]
      rfl

theorem reads_array {items : List (Json × Text)} (hne : items ≠ [])
    (hspelled : ∀ p ∈ items, Spelled p.1 p.2) (h : ∀ p ∈ items, Reads p.1 p.2) :
    Reads (.array (items.map Prod.fst)) ('[' :: Text.join [','] (items.map Prod.snd) ++ [']']) := by
  refine .exact fun fuel rest hfuel _ => ?_
  have hitems := readItems_join hne h fuel
    (by simp only [List.length_append, List.length_cons, List.length_nil] at hfuel; omega) rest
  have hhead : ∃ c t, skipSpace (Text.join [','] (items.map Prod.snd) ++ ']' :: rest) = c :: t ∧
      c ≠ ']' := by
    obtain ⟨p, items, rfl⟩ := List.exists_cons_of_ne_nil hne
    rw [List.map_cons, join_cons_append]
    exact (hspelled p List.mem_cons_self).head _
  obtain ⟨c, t, hskip, hc⟩ := hhead
  rw [← readItems_skipSpace, hskip] at hitems
  rw [readValue, skipSpace_enclosed (c := '[') (by simp [Space])]
  simp only [hskip]
  split
  · rename_i heq
    exact absurd (List.cons.inj heq).1 hc
  · rw [hitems]
    rfl

theorem readMembers_join {members : List SpelledMember} (hne : members ≠ [])
    (hnamed : ∀ m ∈ members, m.Named) (h : ∀ m ∈ members, Reads m.value m.valueText) (fuel : Nat)
    (hfuel : (Text.join [','] (members.map SpelledMember.text)).length + 1 < fuel) (rest : Text) :
    readMembers fuel (Text.join [','] (members.map SpelledMember.text) ++ '\x7d' :: rest) =
      some (members.map SpelledMember.pair, rest) := by
  induction members generalizing fuel with
  | nil => exact absurd rfl hne
  | cons m members ih =>
    obtain ⟨⟨w, t, w', hw, hname, hw', hnameText⟩, hnameds⟩ := List.forall_mem_cons.mp hnamed
    obtain ⟨⟨u, hu, hread⟩, hmembers⟩ := List.forall_mem_cons.mp h
    obtain ⟨fuel, rfl⟩ : ∃ n, fuel = n + 1 := ⟨fuel - 1, by omega⟩
    -- The name and its colon, whatever follows.
    have hfront : ∀ after : Text, skipSpace (m.text ++ after) =
        '"' :: (t ++ '"' :: (w' ++ ':' :: (m.valueText ++ after))) := fun after => by
      simp only [SpelledMember.text, hnameText, List.append_assoc, List.cons_append,
        skipSpace_append hw]
      exact skipSpace_cons (by simp [Space]) _
    have hlength : w.length + t.length + w'.length + m.valueText.length + 3 = m.text.length := by
      simp only [SpelledMember.text, hnameText, List.length_append, List.length_cons]
      omega
    have hcolon : ∀ after : Text, skipSpace (w' ++ ':' :: after) = ':' :: after := fun after => by
      rw [skipSpace_append hw', skipSpace_cons (by simp [Space])]
    cases members with
    | nil =>
      simp only [List.map_cons, List.map_nil, Text.join] at hfuel ⊢
      rw [readMembers, hfront]
      simp only [hname.readString_eq (show t.length < fuel by omega), Option.bind_eq_bind,
        Option.bind_some, hcolon, hread fuel ('\x7d' :: rest) (by omega) (by rintro c ⟨⟩; decide),
        skipSpace_append hu, skipSpace_cons (show ¬Space ['\x7d'] by simp [Space])]
      rfl
    | cons m' members =>
      have ih := ih (List.cons_ne_nil _ _) hnameds hmembers fuel
      simp only [List.map_cons] at hfuel ih ⊢
      rw [join_cons_append, readMembers, hfront]
      simp only [Text.join, List.length_append, List.length_cons, List.length_nil] at hfuel
      have hvalue := hread fuel
        (',' :: (Text.join [','] (m'.text :: members.map SpelledMember.text) ++ '\x7d' :: rest))
        (by omega) (by rintro c ⟨⟩; decide)
      simp only [hname.readString_eq (show t.length < fuel by omega), Option.bind_eq_bind,
        Option.bind_some, hcolon, hvalue, skipSpace_append hu,
        skipSpace_cons (show ¬Space [','] by simp [Space])]
      rw [ih (by omega)]
      rfl

theorem reads_object {members : List SpelledMember} (hne : members ≠ [])
    (hnamed : ∀ m ∈ members, m.Named) (h : ∀ m ∈ members, Reads m.value m.valueText) :
    Reads (.object (members.map SpelledMember.pair))
      ('\x7b' :: Text.join [','] (members.map SpelledMember.text) ++ ['\x7d']) := by
  refine .exact fun fuel rest hfuel _ => ?_
  have hread := readMembers_join hne hnamed h fuel
    (by simp only [List.length_append, List.length_cons, List.length_nil] at hfuel; omega) rest
  have hhead : ∃ t, skipSpace (Text.join [','] (members.map SpelledMember.text) ++ '\x7d' :: rest) =
      '"' :: t := by
    obtain ⟨m, members, rfl⟩ := List.exists_cons_of_ne_nil hne
    obtain ⟨w, t, w', hw, -, -, hnameText⟩ := hnamed m List.mem_cons_self
    rw [List.map_cons, join_cons_append]
    simp only [SpelledMember.text, hnameText, List.append_assoc, List.cons_append,
      skipSpace_append hw]
    exact ⟨_, skipSpace_cons (by simp [Space]) _⟩
  obtain ⟨t, hskip⟩ := hhead
  rw [← readMembers_skipSpace, hskip] at hread
  rw [readValue, skipSpace_enclosed (c := '\x7b') (by simp [Space])]
  simp only [hskip]
  split
  · rename_i heq
    exact absurd (List.cons.inj heq).1 (by decide)
  · rw [hread]
    rfl

/-- Every spelling of a value that can be written is read as the value. -/
theorem Spelled.reads {v : Json} {s : Text} (h : Spelled v s) (hv : v.isWritable) :
    Reads v s := by
  induction h with
  | null | true | false =>
    refine .exact fun fuel rest _ _ => ?_
    rw [readValue]
    rfl
  | int h =>
    obtain ⟨c, s, rfl, hc⟩ := h.head
    refine .exact fun fuel rest _ hrest => ?_
    rw [List.cons_append, readValue_number hc, ← List.cons_append,
      h.readNumber_eq (isWritable_int.mp hv) hrest]
  | @string s t h =>
    refine .exact fun fuel rest hfuel _ => ?_
    simp only [List.length_append, List.length_cons, List.length_nil] at hfuel
    rw [readValue, skipSpace_enclosed (c := '"') (by simp [Space])]
    simp only [h.readString_eq (show t.length < fuel by omega), Option.map_some]
  | @emptyArray w h =>
    refine .exact fun fuel rest _ _ => ?_
    rw [readValue, skipSpace_enclosed (c := '[') (by simp [Space])]
    simp only [skipSpace_append h, skipSpace_cons (show ¬Space [']'] by simp [Space])]
  | array hne each ih =>
    refine reads_array hne each fun p hp => ih p hp ?_
    exact isWritable_array.mp hv _ (List.mem_map_of_mem hp)
  | @emptyObject w h =>
    refine .exact fun fuel rest _ _ => ?_
    rw [readValue, skipSpace_enclosed (c := '\x7b') (by simp [Space])]
    simp only [skipSpace_append h,
      skipSpace_cons (show ¬Space ['\x7d'] by simp [Space])]
  | object hne named _ ih =>
    refine reads_object hne named fun m hm => ih m hm ?_
    exact isWritable_object.mp hv _ (List.mem_map_of_mem hm)
  | spaced before _ behind ih => exact reads_spaced before (ih hv) behind

theorem Spelled.parse?_eq {v : Json} {s : Text} (h : Spelled v s) (hv : v.isWritable) :
    parse? s = some v := by
  obtain ⟨w, hw, hread⟩ := h.reads hv
  have hvalue := hread (2 * s.length + 2) [] (by omega) ends_nil
  rw [List.append_nil, List.append_nil] at hvalue
  have hend : skipSpace w = [] := by
    rw [← List.append_nil w, skipSpace_append hw]
    rfl
  simp [parse?, hvalue, hend]

/-! ## Writing -/

theorem numeral_ofNat (n : Nat) : Numeral (Text.ofNat n) where
  ne_nil := Nat.toDigits_ne_nil
  digits _ hc := Text.isDigit_of_mem_ofNat hc
  lead h := by rw [Text.head?_ofNat h]; rfl

theorem spelledInt_ofInt (n : Int) : SpelledInt n (Text.ofInt n) := by
  match n with
  | .ofNat n =>
    have h := SpelledInt.unsigned (numeral_ofNat n)
    rwa [Text.toNat_ofNat] at h
  | .negSucc n =>
    have h := SpelledInt.minus (numeral_ofNat (n + 1))
    rwa [Text.toNat_ofNat] at h

/-- A character below U+0020 has a code of four digits. -/
theorem spelledChar_code {c : Char} (h : c.toNat < 0x20) :
    SpelledChar c ('\\' :: 'u' :: Text.hex 4 c.toNat) := by
  have hcodes : ∀ n < 0x20, (Text.hex 4 n).all Text.isHexDigit = true ∧ (Text.hex 4 n).length = 4 ∧
      Text.toNat 16 (Text.hex 4 n) = n := by decide
  obtain ⟨hex, four, value⟩ := hcodes c.toNat h
  exact .code (List.all_eq_true.mp hex) four value

theorem spelledChar_writeChar (c : Char) : SpelledChar c (writeChar c) := by
  unfold writeChar
  split
  · subst c; exact .escape (by simp [escapes])
  split
  · subst c; exact .escape (by simp [escapes])
  split
  · subst c; exact .escape (by simp [escapes])
  split
  · subst c; exact .escape (by simp [escapes])
  split
  · subst c; exact .escape (by simp [escapes])
  split
  · subst c; exact .escape (by simp [escapes])
  split
  · subst c; exact .escape (by simp [escapes])
  split
  · exact spelledChar_code ‹_›
  · exact .plain ‹_› ‹_› (by omega)

theorem spelledString_flatMap (s : Text) : SpelledString s (s.flatMap writeChar) := by
  induction s with
  | nil => exact .nil
  | cons c s ih => exact .cons (spelledChar_writeChar c) ih

theorem spelled_writeString (s : Text) : Spelled (.string s) (writeString s) :=
  .string (spelledString_flatMap s)

/-- Every number in the value is whole. -/
inductive Whole : Json → Prop where
  | null : Whole .null
  | bool (b : Bool) : Whole (.bool b)
  | int (n : Int) : Whole (.int n)
  | string (s : Text) : Whole (.string s)
  | array {vs : List Json} (each : ∀ v ∈ vs, Whole v) : Whole (.array vs)
  | object {ms : List (Text × Json)} (each : ∀ m ∈ ms, Whole m.2) : Whole (.object ms)

@[simp] theorem whole_int (n : Int) : (Json.int n).Whole := .int n

@[simp] theorem whole_string (s : Text) : (Json.string s).Whole := .string s

@[simp] theorem whole_array_iff {vs : List Json} : (Json.array vs).Whole ↔ ∀ v ∈ vs, v.Whole :=
  ⟨fun h => by cases h; assumption, .array⟩

@[simp] theorem whole_object_iff {ms : List (Text × Json)} :
    (Json.object ms).Whole ↔ ∀ m ∈ ms, m.2.Whole :=
  ⟨fun h => by cases h; assumption, .object⟩

/-- The items of an array as they are written, each on a line of its own, and the last one with what
stands before the closing bracket. -/
def writtenItems (level : Nat) (behind : Text) : List Json → List (Json × Text)
  | [] => []
  | [v] => [(v, newline level ++ prettyAt level v ++ behind)]
  | v :: vs => (v, newline level ++ prettyAt level v ++ []) :: writtenItems level behind vs

theorem map_fst_writtenItems (level : Nat) (behind : Text) (vs : List Json) :
    (writtenItems level behind vs).map Prod.fst = vs := by
  fun_induction writtenItems level behind vs <;> simp_all

theorem join_writtenItems (level : Nat) (behind : Text) (v : Json) (vs : List Json) :
    Text.join [','] ((writtenItems level behind (v :: vs)).map Prod.snd) =
      newline level ++ prettyAt level v ++ prettyItems level vs ++ behind := by
  induction vs generalizing v with
  | nil => simp [writtenItems, Text.join, prettyItems]
  | cons u vs ih =>
    have ih := ih u
    obtain ⟨p, items, hitems⟩ : ∃ p items, writtenItems level behind (u :: vs) = p :: items := by
      cases vs <;> exact ⟨_, _, rfl⟩
    rw [hitems] at ih
    simp only [writtenItems, hitems, List.map_cons, Text.join, prettyItems] at ih ⊢
    rw [ih]
    simp

theorem spelled_writtenItems {level : Nat} {behind : Text} {vs : List Json} (hbehind : Space behind)
    (h : ∀ v ∈ vs, Spelled v (prettyAt level v)) :
    ∀ p ∈ writtenItems level behind vs, Spelled p.1 p.2 := by
  fun_induction writtenItems level behind vs with
  | case1 => simp
  | case2 v =>
    intro p hp
    obtain rfl := List.mem_singleton.mp hp
    exact .spaced (space_newline level) (h v List.mem_cons_self) hbehind
  | case3 v vs _ ih =>
    obtain ⟨hv, hvs⟩ := List.forall_mem_cons.mp h
    exact List.forall_mem_cons.mpr ⟨.spaced (space_newline level) hv space_nil, ih hvs⟩

/-- The members of an object as they are written. -/
def writtenMembers (level : Nat) (behind : Text) : List (Text × Json) → List SpelledMember
  | [] => []
  | [(k, v)] =>
    [⟨k, newline level ++ writeString k, v, [' '] ++ prettyAt level v ++ behind⟩]
  | (k, v) :: ms =>
    ⟨k, newline level ++ writeString k, v, [' '] ++ prettyAt level v ++ []⟩ ::
      writtenMembers level behind ms

theorem map_pair_writtenMembers (level : Nat) (behind : Text) (ms : List (Text × Json)) :
    (writtenMembers level behind ms).map SpelledMember.pair = ms := by
  fun_induction writtenMembers level behind ms <;> simp_all [SpelledMember.pair]

theorem join_writtenMembers (level : Nat) (behind k : Text) (v : Json) (ms : List (Text × Json)) :
    Text.join [','] ((writtenMembers level behind ((k, v) :: ms)).map SpelledMember.text) =
      newline level ++ writeString k ++ [':', ' '] ++ prettyAt level v ++ prettyMembers level ms ++
        behind := by
  induction ms generalizing k v with
  | nil => simp [writtenMembers, Text.join, prettyMembers, SpelledMember.text]
  | cons m ms ih =>
    obtain ⟨k', v'⟩ := m
    have ih := ih k' v'
    obtain ⟨m, members, hmembers⟩ :
        ∃ m members, writtenMembers level behind ((k', v') :: ms) = m :: members := by
      cases ms <;> exact ⟨_, _, rfl⟩
    rw [hmembers] at ih
    simp only [writtenMembers, hmembers, List.map_cons, Text.join, prettyMembers] at ih ⊢
    rw [ih]
    simp [SpelledMember.text]

theorem named_writtenMembers (level : Nat) (behind : Text) (ms : List (Text × Json)) :
    ∀ m ∈ writtenMembers level behind ms, m.Named := by
  have hnamed : ∀ (k : Text) (v : Json) (t : Text),
      SpelledMember.Named ⟨k, newline level ++ writeString k, v, t⟩ := fun k v t =>
    ⟨newline level, k.flatMap writeChar, [], space_newline level, spelledString_flatMap k, space_nil,
      by simp [writeString]⟩
  fun_induction writtenMembers level behind ms with
  | case1 => simp
  | case2 k v => exact List.forall_mem_cons.mpr ⟨hnamed k v _, by simp⟩
  | case3 k v ms _ ih => exact List.forall_mem_cons.mpr ⟨hnamed k v _, ih⟩

theorem spelled_writtenMembers {level : Nat} {behind : Text} {ms : List (Text × Json)}
    (hbehind : Space behind) (h : ∀ m ∈ ms, Spelled m.2 (prettyAt level m.2)) :
    ∀ m ∈ writtenMembers level behind ms, Spelled m.value m.valueText := by
  have hblank : Space [' '] := by simp [Space]
  fun_induction writtenMembers level behind ms with
  | case1 => simp
  | case2 k v =>
    intro m hm
    obtain rfl := List.mem_singleton.mp hm
    exact .spaced hblank (h (k, v) List.mem_cons_self) hbehind
  | case3 k v ms _ ih =>
    obtain ⟨hv, hms⟩ := List.forall_mem_cons.mp h
    exact List.forall_mem_cons.mpr ⟨.spaced hblank hv space_nil, ih hms⟩

/-- The indented layout spells the value. -/
theorem spelled_prettyAt {v : Json} (h : Whole v) (level : Nat) : Spelled v (prettyAt level v) := by
  induction h generalizing level with
  | null => simpa only [prettyAt] using .null
  | bool b =>
    cases b
    · simpa only [prettyAt] using .false
    · simpa only [prettyAt] using .true
  | int n => simpa only [prettyAt] using .int (spelledInt_ofInt n)
  | string s => simpa only [prettyAt] using spelled_writeString s
  | @array vs each ih =>
    cases vs with
    | nil => simpa only [prettyAt] using .emptyArray space_nil
    | cons v vs =>
      have hne : writtenItems (level + 1) (newline level) (v :: vs) ≠ [] := by
        cases vs <;> exact List.cons_ne_nil _ _
      have hspelled := Spelled.array hne
        (spelled_writtenItems (space_newline level) fun u hu => ih u hu (level + 1))
      rw [map_fst_writtenItems, join_writtenItems] at hspelled
      simpa [prettyAt] using hspelled
  | @object ms each ih =>
    cases ms with
    | nil => simpa only [prettyAt] using .emptyObject space_nil
    | cons m ms =>
      obtain ⟨k, v⟩ := m
      have hne : writtenMembers (level + 1) (newline level) ((k, v) :: ms) ≠ [] := by
        cases ms <;> exact List.cons_ne_nil _ _
      have hspelled := Spelled.object hne (named_writtenMembers (level + 1) (newline level) _)
        (spelled_writtenMembers (space_newline level) fun m hm => ih m hm (level + 1))
      rw [map_pair_writtenMembers, join_writtenMembers] at hspelled
      simpa [prettyAt] using hspelled

end Json

end Untranslated
