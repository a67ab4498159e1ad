import Mathlib.Data.Finset.Dedup
import Mathlib.Data.Finset.Card
import Untranslated.Proofs.Json
import Untranslated.Proofs.Scan.Fidelity
import Untranslated.Report

/-!
# What a report says

The report for programs is a JSON text that denotes its document, and is read back as it
(`json_read_back`): the paths, every record and the numbers of the summary. The numbers are said here
without the functions that compute them. A report with a number of more digits than are written has no
such text (`json?_overlong`).
-/

namespace Untranslated

/-! ## Distinct labels -/

theorem nodup_eraseDups {α : Type} [BEq α] [LawfulBEq α] : (l : List α) → l.eraseDups.Nodup
  | [] => List.nodup_nil
  | a :: l => by
    rw [List.eraseDups_cons]
    refine List.nodup_cons.mpr ⟨fun ha => ?_, nodup_eraseDups _⟩
    simpa using List.of_mem_filter (List.mem_eraseDups.mp ha)
termination_by l => l.length
decreasing_by exact Nat.lt_succ_of_le (List.length_filter_le _ _)

/-- What is left of a list without repetitions is as long as it has different items. -/
theorem length_eraseDups {α : Type} [BEq α] [LawfulBEq α] [DecidableEq α] (l : List α) :
    l.eraseDups.length = l.toFinset.card := by
  rw [← List.toFinset_card_of_nodup (nodup_eraseDups l)]
  congr 1
  ext a
  simp [List.mem_eraseDups]

/-! ## Records of scans -/

namespace Record

/-- The record is one of those that some scan returns. -/
def Scanned (r : Record) : Prop :=
  ∃ text label options records, (scan text label options).1 = .ok records ∧ r ∈ records

/-- What a scan reports is a text or an attribute value. -/
theorem Scanned.code {r : Record} (h : r.Scanned) :
    ∃ kind : CandidateKind, r.finding.code = kind.code := by
  obtain ⟨text, label, options, records, hscan, hr⟩ := h
  obtain ⟨d, rs, -, hreports, rfl⟩ := Scan.scan_ok hscan
  obtain ⟨⟨c, group⟩, hmem, hr⟩ := List.mem_flatMap.mp hr
  obtain ⟨f, hf, rfl⟩ := List.mem_map.mp hr
  obtain ⟨hc, hreport⟩ := Scan.mem_reports hreports (Scan.mem_sorted.mp hmem)
  exact ⟨c.kind, (Scan.report_faithful hc hreport hf).code⟩

end Record

namespace Report

/-! ## The document -/

theorem count_eq (r : Report) (kind : CandidateKind) :
    r.count kind = (r.records.filter fun e => e.finding.code = kind.code).length := by
  rw [count, List.countP_eq_length_filter]
  simp only [beq_eq_decide]

/-- If all records are of scans, each counts either as a text or as an attribute value. -/
theorem count_add_count {r : Report} (h : ∀ e ∈ r.records, e.Scanned) :
    r.count .text + r.count .attribute = r.records.length := by
  have hother : ∀ e ∈ r.records, e.finding.code == CandidateKind.attribute.code ↔
      (decide ¬(e.finding.code == CandidateKind.text.code) = true) = true := by
    intro e he
    obtain ⟨kind, hkind⟩ := (h e he).code
    rw [hkind]
    cases kind <;> decide
  rw [List.length_eq_countP_add_countP fun e => e.finding.code == CandidateKind.text.code]
  exact congrArg (r.count .text + ·) (List.countP_congr hother)

theorem whole_document (r : Report) : r.document.Whole := by
  simp [document, Record.document, Json.nat]

/-! ## Reports that can be written -/

/-- The numbers of the report have no more digits than are written. -/
structure Writable (r : Report) : Prop where
  files : r.files.length < Numeral.leastOverlong
  records : r.records.length < Numeral.leastOverlong
  line : ∀ e ∈ r.records, e.finding.line.natAbs < Numeral.leastOverlong
  character : ∀ e ∈ r.records, e.finding.character.natAbs < Numeral.leastOverlong

/-- The other numbers of the document count some of the records. -/
theorem isWritable_document {r : Report} : r.document.isWritable = true ↔ r.Writable := by
  have hcount : ∀ kind : CandidateKind, r.count kind ≤ r.records.length :=
    fun kind => List.countP_le_length
  have hlabels : r.filesWithFindings.length ≤ r.records.length := by
    rw [filesWithFindings, length_eraseDups]
    exact (List.toFinset_card_le _).trans_eq (List.length_map _)
  simp only [document, Record.document, Json.nat, Json.isWritable_object, Json.isWritable_array,
    List.forall_mem_cons, List.forall_mem_map, Json.isWritable_string, Json.isWritable_int,
    Int.natAbs_natCast, List.not_mem_nil, false_imp_iff, implies_true, and_true, true_and]
  constructor
  · rintro ⟨⟨hfiles, -, hrecords, -, -⟩, hplaces⟩
    exact ⟨hfiles, hrecords, fun e he => (hplaces e he).1, fun e he => (hplaces e he).2⟩
  · rintro ⟨hfiles, hrecords, hline, hcharacter⟩
    exact ⟨⟨hfiles, hlabels.trans_lt hrecords, hrecords, (hcount .text).trans_lt hrecords,
      (hcount .attribute).trans_lt hrecords⟩, fun e he => ⟨hline e he, hcharacter e he⟩⟩

theorem json?_eq_ok {r : Report} (h : r.Writable) : r.json? = .ok r.json :=
  if_pos (isWritable_document.mpr h)

theorem json?_eq_error {r : Report} (h : ¬ r.Writable) : r.json? = .error ⟨⟩ :=
  if_neg fun hwritable => h (isWritable_document.mp hwritable)

/-- A report whose numbers can be written is written for programs as a JSON text, and this is read back
as its document: the paths, a summary with the numbers of files, of different labels, of records and of
records of either kind, and the records in their order. Any other report is not written. Of records that
were scanned, each is of one of the two kinds. -/
theorem json_read_back (r : Report) :
    (r.Writable → ∃ (s : Text) (d : Json), d = .object [
        ("tool".toList, .string tool),
        ("version".toList, .string version),
        ("paths".toList, .array (r.paths.map .string)),
        ("summary".toList, .object [
          ("files".toList, .int r.files.length),
          ("files_with_errors".toList, .int (r.records.map Record.file).toFinset.card),
          ("total".toList, .int r.records.length),
          ("text".toList, .int (r.records.filter fun e => e.finding.code = "W001".toList).length),
          ("attribute".toList,
            .int (r.records.filter fun e => e.finding.code = "W002".toList).length)]),
        ("errors".toList, .array (r.records.map Record.document))] ∧
      r.json? = .ok s ∧ Json.Spelled d s ∧ Json.parse? s = some d) ∧
    (¬ r.Writable → r.json? = .error ⟨⟩) ∧
    ((∀ e ∈ r.records, e.Scanned) →
      r.records.length = (r.records.filter fun e => e.finding.code = "W001".toList).length +
        (r.records.filter fun e => e.finding.code = "W002".toList).length) := by
  have hspelled : Json.Spelled r.document r.json := Json.spelled_prettyAt r.whole_document 0
  refine ⟨fun h => ⟨r.json, r.document, ?_, json?_eq_ok h, hspelled,
    hspelled.parse?_eq (isWritable_document.mpr h)⟩, json?_eq_error, fun h => ?_⟩
  · rw [document, filesWithFindings, length_eraseDups, count_eq, count_eq]
    rfl
  have htexts := r.count_eq .text
  have hattributes := r.count_eq .attribute
  have htotal := count_add_count h
  rw [htexts, hattributes] at htotal
  exact htotal.symm

/-- The longest line number that can be written, and a literal full of escapes. -/
theorem json_read_back_longest :
    ∃ (r : Report) (s : Text) (d : Json), r.Writable ∧
      r.records.map (fun e => (e.finding.line, e.finding.literal)) =
        [(((Nat.pow 10 4300 - 1 : Nat) : Int), "\"\\\n\x01é".toList)] ∧
      r.json? = .ok s ∧ Json.Spelled d s ∧ Json.parse? s = some d := by
  let r : Report := ⟨["a.html".toList], ["a.html".toList], [⟨"a.html".toList,
    ⟨"(error)".toList, "W001".toList, "Hardcoded <p> tag".toList, "\"\\\n\x01é".toList,
      (Nat.pow 10 4300 - 1 : Nat), 1, []⟩⟩]⟩
  have hone : 1 < Numeral.leastOverlong := by decide +kernel
  have hlongest : ((Nat.pow 10 4300 - 1 : Nat) : Int).natAbs < Numeral.leastOverlong := by
    decide +kernel
  have h : r.Writable :=
    ⟨hone, hone, fun e he => List.mem_singleton.mp he ▸ hlongest,
      fun e he => List.mem_singleton.mp he ▸ hone⟩
  obtain ⟨s, d, -, hread⟩ := (json_read_back r).1 h
  exact ⟨r, s, d, h, rfl, hread⟩

/-- With one more in the line number, the report cannot be written. -/
theorem json?_overlong :
    (⟨["a.html".toList], ["a.html".toList], [⟨"a.html".toList,
      ⟨"(error)".toList, "W001".toList, "Hardcoded <p> tag".toList, "x".toList,
        (Nat.pow 10 4300 : Nat), 1, "x".toList⟩⟩]⟩ : Report).json? = .error ⟨⟩ := by
  refine json?_eq_error fun h => ?_
  exact absurd (h.line _ List.mem_cons_self) (by decide +kernel)

end Report

end Untranslated
