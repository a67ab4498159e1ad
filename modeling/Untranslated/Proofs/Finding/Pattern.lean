import Untranslated.Proofs.Text
import Untranslated.Report

/-!
# Evidence as a search pattern

A record exports its evidence as a pattern, the literal text with backslashes. Read by the rules of
patterns, it stands for that text again (`literal?_escape`): every character that has a meaning of
its own is behind a backslash, and no letter or digit is. So the pattern finds the literal text where
it stands first and nowhere else, and tells it from every other text (`pattern_exact`).
-/

namespace Untranslated

namespace Text

/-! ## Reading an escaped text -/

theorem operator_mem_special {c : Char} (h : c ∈ operatorCharacters) : c ∈ specialCharacters := by
  have hall : operatorCharacters.all (specialCharacters.contains ·) = true := by decide
  exact List.contains_iff_mem.mp (List.all_eq_true.mp hall c h)

/-- Behind a backslash, a character that is written with one means itself. -/
theorem isLetterOrDigit_of_special {c : Char} (h : c ∈ specialCharacters) :
    isLetterOrDigit c = false := by
  have hall : specialCharacters.all (!isLetterOrDigit ·) = true := by decide
  simpa using List.all_eq_true.mp hall c h

theorem literal?_backslash {c : Char} (h : isLetterOrDigit c = false) (rest : Text) :
    literal? ('\\' :: c :: rest) = (literal? rest).map (c :: ·) := by
  rw [literal?, h, if_neg Bool.false_ne_true]

theorem literal?_cons {c : Char} (h : c ∉ operatorCharacters) (rest : Text) :
    literal? (c :: rest) = (literal? rest).map (c :: ·) := by
  rw [literal?, if_neg h]
  rintro d tail rfl -
  exact h (by decide)

theorem literal?_escapeChar (c : Char) (rest : Text) :
    literal? (escapeChar c ++ rest) = (literal? rest).map (c :: ·) := by
  unfold escapeChar
  split
  · rename_i hspecial
    exact literal?_backslash (isLetterOrDigit_of_special hspecial) rest
  · rename_i hplain
    exact literal?_cons (fun hoperator => hplain (operator_mem_special hoperator)) rest

/-- The pattern of a text stands for that text. -/
theorem literal?_escape (s : Text) : literal? (escape s) = some s := by
  induction s with
  | nil => rfl
  | cons c s ih => rw [escape, List.flatMap_cons, literal?_escapeChar, ← escape, ih, Option.map_some]

/-- Different texts have different patterns. -/
theorem escape_injective {s t : Text} (h : escape s = escape t) : s = t := by
  have hread := congrArg literal? h
  rw [literal?_escape, literal?_escape] at hread
  exact Option.some.inj hread

/-! ## Searching for a pattern -/

theorem startsWithLetters_false (lead s : Text) :
    startsWithLetters false lead s = startsWith lead s := by
  induction lead generalizing s with
  | nil => rfl
  | cons a lead ih =>
    cases s with
    | nil => rfl
    | cons b s => simp [startsWithLetters, startsWith, List.isPrefixOf, ih]

theorem findLetters?_false (pat s : Text) : findLetters? false pat s = find? pat s := by
  induction s with
  | nil => rfl
  | cons c s ih => rw [findLetters?, find?, startsWithLetters_false, ih]

/-- The pattern of a text is searched by looking for the text. -/
theorem searchPattern?_escape (literal subject : Text) :
    searchPattern? false (escape literal) subject =
      (find? literal subject).map fun start => (start, start + literal.length) := by
  rw [searchPattern?, literal?_escape, Option.bind_eq_bind, Option.bind_some, findLetters?_false]
  cases find? literal subject <;> rfl

end Text

/-! ## Exported evidence -/

/-- The evidence in the document of a record. -/
def Record.exportedEvidence (r : Record) : Option Json := do
  (← r.document.get? "error".toList).get? "evidence".toList

theorem Record.exportedEvidence_eq (r : Record) :
    r.exportedEvidence = some (.string (Text.escape r.finding.literal)) := rfl

/-- **What a pattern matches.** In every subject, the pattern of a literal text matches first where the
text stands first, exactly as far as it reaches, and it has no match just if the text is no part of
the subject. Records with the same exported evidence have the same literal text. -/
theorem Finding.pattern_exact :
    (∀ (literal subject : Text) (start stop : Nat),
      Text.searchPattern? false (Text.escape literal) subject = some (start, stop) ↔
        stop = start + literal.length ∧ literal <+: subject.drop start ∧
          ∀ m < start, ¬ literal <+: subject.drop m) ∧
    (∀ literal subject : Text,
      Text.searchPattern? false (Text.escape literal) subject = none ↔ ¬ literal <:+: subject) ∧
    ∀ r r' : Record, r.exportedEvidence = r'.exportedEvidence →
      r.finding.literal = r'.finding.literal := by
  refine ⟨fun literal subject start stop => ?_, fun literal subject => ?_, fun r r' h => ?_⟩
  · rw [Text.searchPattern?_escape, Option.map_eq_some_iff]
    constructor
    · rintro ⟨n, hfind, ⟨⟩⟩
      exact ⟨rfl, Text.find?_eq_some_iff.mp hfind⟩
    · rintro ⟨rfl, hfirst⟩
      exact ⟨start, Text.find?_eq_some_iff.mpr hfirst, rfl⟩
  · rw [Text.searchPattern?_escape, Option.map_eq_none_iff, ← Text.isSome_find?,
      Option.not_isSome_iff_eq_none]
  · rw [Record.exportedEvidence_eq, Record.exportedEvidence_eq] at h
    exact Text.escape_injective (Json.string.inj (Option.some.inj h))

end Untranslated
