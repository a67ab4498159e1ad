import Mathlib.Data.Char
import Mathlib.Data.List.Lex
import Mathlib.Data.List.Permutation
import Mathlib.Data.List.Sort
import Untranslated.Proofs.Files

/-!
# Which files are collected

Collecting walks down a directory and does not enter the directories that are left out. The files that
it finds can be said without the walk:

* `FileNode.HasFile` are the files below a directory, each by the directories on the way to it and
  its name; `Collect.Filter.Takes` says of one file whether it is wanted, by all these names.
* A walk yields just the files that are taken (`mem_fromEntries`), and each of them once
  (`nodup_fromEntries`), since the names in a directory are different.
* The paths are put in order name by name (`partsLe_iff`).
* `collect_filtered` puts these together, and says that more globs to leave out only leave more out.
-/

namespace Untranslated

/-! ## Files in a tree -/

namespace FileNode

/-- In every directory of the tree the names are different. -/
inductive Distinct : FileNode → Prop where
  | file (content : FileContent) : Distinct (.file content)
  | directory {entries : List (Text × FileNode)} (hnames : (entries.map (·.1)).Nodup)
    (hnodes : ∀ e ∈ entries, Distinct e.2) : Distinct (.directory entries)

@[simp] theorem distinct_file (content : FileContent) : (FileNode.file content).Distinct := .file content

@[simp] theorem distinct_directory {entries : List (Text × FileNode)} :
    (FileNode.directory entries).Distinct ↔
      (entries.map (·.1)).Nodup ∧ ∀ e ∈ entries, e.2.Distinct := by
  constructor
  · rintro (_ | ⟨hnames, hnodes⟩)
    exact ⟨hnames, hnodes⟩
  · rintro ⟨hnames, hnodes⟩
    exact .directory hnames hnodes

/-- There is a file of the given name below the node, the directories on the way to it having the
given names. -/
inductive HasFile : FileNode → List Text → Text → Prop where
  | here {entries : List (Text × FileNode)} {name : Text} {content : FileContent}
    (h : (name, .file content) ∈ entries) : HasFile (.directory entries) [] name
  | inside {entries : List (Text × FileNode)} {d : Text} {node : FileNode} {ds : List Text}
    {name : Text} (h : (d, node) ∈ entries) (hfile : HasFile node ds name) :
    HasFile (.directory entries) (d :: ds) name

section
variable {entries : List (Text × FileNode)} {name last : Text} {ds : List Text}

theorem not_hasFile_nil : ¬HasFile (.directory []) ds last := by
  rintro (⟨h⟩ | ⟨h, -⟩) <;> cases h

theorem hasFile_cons {e : Text × FileNode} :
    HasFile (.directory (e :: entries)) ds last ↔
      HasFile (.directory [e]) ds last ∨ HasFile (.directory entries) ds last := by
  constructor
  · rintro (⟨h⟩ | ⟨h, hfile⟩)
    · rcases List.mem_cons.mp h with rfl | h
      · exact .inl (.here List.mem_cons_self)
      · exact .inr (.here h)
    · rcases List.mem_cons.mp h with rfl | h
      · exact .inl (.inside List.mem_cons_self hfile)
      · exact .inr (.inside h hfile)
  · rintro (h | h) <;> rcases h with ⟨h⟩ | ⟨h, hfile⟩
    · exact .here (List.mem_cons.mpr (.inl (List.mem_singleton.mp h)))
    · exact .inside (List.mem_cons.mpr (.inl (List.mem_singleton.mp h))) hfile
    · exact .here (List.mem_cons_of_mem _ h)
    · exact .inside (List.mem_cons_of_mem _ h) hfile

theorem hasFile_of_file {content : FileContent} :
    HasFile (.directory [(name, .file content)]) ds last ↔ ds = [] ∧ last = name := by
  constructor
  · rintro (⟨h⟩ | ⟨h, hfile⟩)
    · exact ⟨rfl, (Prod.mk.inj (List.mem_singleton.mp h)).1⟩
    · obtain ⟨-, rfl⟩ := Prod.mk.inj (List.mem_singleton.mp h)
      cases hfile
  · rintro ⟨rfl, rfl⟩
    exact .here List.mem_cons_self

theorem hasFile_of_directory :
    HasFile (.directory [(name, .directory entries)]) ds last ↔
      ∃ inner, ds = name :: inner ∧ HasFile (.directory entries) inner last := by
  constructor
  · rintro (⟨h⟩ | ⟨h, hfile⟩)
    · cases (Prod.mk.inj (List.mem_singleton.mp h)).2
    · obtain ⟨rfl, rfl⟩ := Prod.mk.inj (List.mem_singleton.mp h)
      exact ⟨_, rfl, hfile⟩
  · rintro ⟨inner, rfl, hfile⟩
    exact .inside List.mem_cons_self hfile

end

/-- A file below a directory is found by going to one of its entries. -/
theorem HasFile.exists_entry {entries : List (Text × FileNode)} {ds : List Text} {last : Text}
    (h : HasFile (.directory entries) ds last) :
    ∃ name ∈ entries.map (·.1), [name] <+: ds ++ [last] := by
  rcases h with ⟨h⟩ | ⟨h, -⟩
  · exact ⟨last, List.mem_map.mpr ⟨_, h, rfl⟩, List.prefix_rfl⟩
  · exact ⟨_, List.mem_map.mpr ⟨_, h, rfl⟩, _, rfl⟩

theorem Distinct.of_cons {name : Text} {node : FileNode} {rest : List (Text × FileNode)}
    (h : (FileNode.directory ((name, node) :: rest)).Distinct) :
    name ∉ rest.map (·.1) ∧ node.Distinct ∧ (FileNode.directory rest).Distinct := by
  obtain ⟨hnames, hnodes⟩ := distinct_directory.mp h
  obtain ⟨hname, hnames⟩ := List.nodup_cons.mp hnames
  obtain ⟨hnode, hnodes⟩ := List.forall_mem_cons.mp hnodes
  exact ⟨hname, hnode, .directory hnames hnodes⟩

theorem Distinct.of_lookup {entries : List (Text × FileNode)} {name : Text} {inner : FileNode}
    (h : (FileNode.directory entries).Distinct) (hentry : entries.lookup name = some inner) :
    inner.Distinct := by
  obtain ⟨before, after, rfl, -⟩ := List.lookup_eq_some_iff.mp hentry
  exact (distinct_directory.mp h).2 (name, inner) (by simp)

end FileNode

namespace FileTree

/-- What can be reached in a tree with different names has different names itself. -/
theorem distinct_of_follow {path : Text} {names : List Text} {stack : List FileNode}
    {node : FileNode} (hstack : ∀ n ∈ stack, n.Distinct)
    (h : follow path names stack = .ok node) : node.Distinct := by
  fun_induction follow path names stack with
  | case1 top outer =>
    cases h
    exact hstack _ List.mem_cons_self
  | case2 | case3 | case6 | case7 => cases h
  | case4 name names outer entries hname ih => exact ih hstack h
  | case5 names outer entries hname ih =>
    refine ih (fun n hn => ?_) h
    split at hn
    · exact hstack n (List.mem_cons.mpr (.inl (List.mem_singleton.mp hn)))
    · exact hstack n (List.mem_cons_of_mem _ hn)
  | case8 name names outer entries hname hup hshort inner hentry ih =>
    refine ih (fun n hn => ?_) h
    rcases List.mem_cons.mp hn with rfl | hn
    · exact (hstack _ List.mem_cons_self).of_lookup hentry
    · exact hstack n hn

theorem distinct_workingDirectories {t : FileTree} (h : t.root.Distinct) :
    ∀ n ∈ t.workingDirectories, n.Distinct := by
  unfold workingDirectories
  generalize hstack : [t.root] = stack
  have hstack : ∀ n ∈ stack, n.Distinct := by simpa [← hstack] using h
  clear * - hstack
  induction t.workingDirectory generalizing stack with
  | nil => exact hstack
  | cons name names ih =>
    refine ih _ fun n hn => ?_
    beta_reduce at hn
    split at hn
    · split at hn
      · rename_i inner hentry
        rcases List.mem_cons.mp hn with rfl | hn
        · exact (hstack _ List.mem_cons_self).of_lookup hentry
        · exact hstack n hn
      · exact hstack n hn
    · exact hstack n hn

theorem distinct_of_lookUp {t : FileTree} {p : Path} {node : FileNode} (h : t.root.Distinct)
    (hnode : t.lookUp p = .ok (some node)) : node.Distinct := by
  obtain ⟨-, -, -, hfollow⟩ := open?_eq_ok.mp (open?_eq_of_lookUp hnode)
  refine distinct_of_follow (fun n hn => ?_) hfollow
  unfold startOf at hn
  split at hn
  · exact List.mem_singleton.mp hn ▸ h
  · exact distinct_workingDirectories h n hn

end FileTree

/-! ## Files that are taken -/

/-- The glob that a text denotes matches another text. -/
def Glob.Matches (glob s : Text) : Prop := matchesText (ofText glob) s = true

theorem Glob.anyMatches_iff {globs : List Text} {s : Text} :
    anyMatches globs s = true ↔ ∃ g ∈ globs, Matches g s := List.any_eq_true

namespace Collect

/-- The file of the given name below the root, the directories on the way to it having the given
names, is wanted. -/
structure Filter.Takes (f : Filter) (ds : List Text) (name : Text) : Prop where
  /-- No directory on the way is excluded. -/
  enters : ∀ d ∈ ds, d ∉ excludedDirectories ∧ ∀ g ∈ f.excluded, ¬Glob.Matches g d
  /-- Neither the path below the root nor the name is left out. -/
  keeps : ∀ g ∈ f.excluded,
    ¬Glob.Matches g (Text.join ['/'] (ds ++ [name])) ∧ ¬Glob.Matches g name
  /-- A glob takes the path or the name, or there are no globs and the file is a markup file. -/
  includes : (∃ g ∈ f.included,
      Glob.Matches g (Text.join ['/'] (ds ++ [name])) ∨ Glob.Matches g name) ∨
    f.included = [] ∧ Text.lower (extension name) ∈ markupExtensions

theorem Filter.enters_iff {f : Filter} {d : Text} :
    f.enters d = true ↔ d ∉ excludedDirectories ∧ ∀ g ∈ f.excluded, ¬Glob.Matches g d := by
  simp [enters, ← Bool.not_eq_true, Glob.anyMatches_iff]

theorem Filter.wants_iff {f : Filter} {relative name : Text} :
    f.wants relative name = true ↔
      (∀ g ∈ f.excluded, ¬Glob.Matches g relative ∧ ¬Glob.Matches g name) ∧
        ((∃ g ∈ f.included, Glob.Matches g relative ∨ Glob.Matches g name) ∨
          f.included = [] ∧ Text.lower (extension name) ∈ markupExtensions) := by
  unfold wants
  rw [Bool.and_eq_true, Bool.not_eq_true', Bool.or_eq_false_iff, ← Bool.not_eq_true,
    ← Bool.not_eq_true, Glob.anyMatches_iff, Glob.anyMatches_iff]
  refine and_congr (by grind) ?_
  split
  · simp_all
  · rw [Bool.or_eq_true, Glob.anyMatches_iff, Glob.anyMatches_iff]
    grind

/-- The file is taken, its directory being found under the names `below`. -/
def Filter.TakesBelow (f : Filter) (below ds : List Text) (name : Text) : Prop :=
  (∀ d ∈ ds, f.enters d = true) ∧ f.wants (Text.join ['/'] (below ++ ds ++ [name])) name = true

theorem Filter.takesBelow_nil {f : Filter} {ds : List Text} {name : Text} :
    f.TakesBelow [] ds name ↔ f.Takes ds name := by
  simp only [TakesBelow, enters_iff, wants_iff, List.nil_append]
  exact ⟨fun ⟨h, h', h''⟩ => ⟨h, h', h''⟩, fun ⟨h, h', h''⟩ => ⟨h, h', h''⟩⟩

/-- With more globs to leave out, no more files are taken. -/
theorem Filter.Takes.mono {f f' : Filter} {ds : List Text} {name : Text} (h : f'.Takes ds name)
    (hincluded : f'.included = f.included) (hexcluded : f.excluded ⊆ f'.excluded) :
    f.Takes ds name where
  enters d hd := ⟨(h.enters d hd).1, fun g hg => (h.enters d hd).2 g (hexcluded hg)⟩
  keeps g hg := h.keeps g (hexcluded hg)
  includes := hincluded ▸ h.includes

/-! ## The walk -/

mutual

theorem mem_fromEntries {f : Filter} {below parts : List Text}
    {entries : List (Text × FileNode)} :
    parts ∈ fromEntries f below entries ↔
      ∃ ds name, (FileNode.directory entries).HasFile ds name ∧ f.TakesBelow below ds name ∧
        parts = below ++ ds ++ [name] := by
  match entries with
  | [] => simp [fromEntries, FileNode.not_hasFile_nil]
  | (name, node) :: rest =>
    rw [fromEntries, List.mem_append, mem_fromNode, mem_fromEntries]
    constructor
    · rintro (⟨ds, last, hfile, htakes⟩ | ⟨ds, last, hfile, htakes⟩)
      · exact ⟨ds, last, FileNode.hasFile_cons.mpr (.inl hfile), htakes⟩
      · exact ⟨ds, last, FileNode.hasFile_cons.mpr (.inr hfile), htakes⟩
    · rintro ⟨ds, last, hfile, htakes⟩
      rcases FileNode.hasFile_cons.mp hfile with hfile | hfile
      · exact .inl ⟨ds, last, hfile, htakes⟩
      · exact .inr ⟨ds, last, hfile, htakes⟩

/-- What the walk yields for one entry of a directory. -/
theorem mem_fromNode {f : Filter} {below parts : List Text} {name : Text} {node : FileNode} :
    parts ∈ fromNode f below name node ↔
      ∃ ds last, (FileNode.directory [(name, node)]).HasFile ds last ∧ f.TakesBelow below ds last ∧
        parts = below ++ ds ++ [last] := by
  match node with
  | .file content =>
    simp only [fromNode, FileNode.hasFile_of_file, Filter.TakesBelow]
    split
    · rename_i hwants
      constructor
      · intro h
        exact ⟨[], name, ⟨rfl, rfl⟩, ⟨by simp, by simpa using hwants⟩, by simpa using h⟩
      · rintro ⟨ds, last, ⟨rfl, rfl⟩, -, rfl⟩
        simp
    · rename_i hwants
      constructor
      · intro h
        cases h
      · rintro ⟨ds, last, ⟨rfl, rfl⟩, ⟨-, h⟩, -⟩
        exact absurd (by simpa using h) hwants
  | .directory entries =>
    rw [fromNode]
    split
    · rename_i henters
      rw [mem_fromEntries]
      constructor
      · rintro ⟨ds, last, hfile, ⟨hds, hwants⟩, rfl⟩
        refine ⟨name :: ds, last, FileNode.hasFile_of_directory.mpr ⟨ds, rfl, hfile⟩, ⟨?_, ?_⟩, ?_⟩
        · exact List.forall_mem_cons.mpr ⟨henters, hds⟩
        · simpa using hwants
        · simp
      · rintro ⟨ds, last, hfile, ⟨hds, hwants⟩, rfl⟩
        obtain ⟨inner, rfl, hinner⟩ := FileNode.hasFile_of_directory.mp hfile
        exact ⟨inner, last, hinner, ⟨(List.forall_mem_cons.mp hds).2, by simpa using hwants⟩, by simp⟩
    · rename_i henters
      constructor
      · intro h
        cases h
      · rintro ⟨ds, last, hfile, ⟨hds, -⟩, -⟩
        obtain ⟨inner, rfl, -⟩ := FileNode.hasFile_of_directory.mp hfile
        exact absurd (hds name List.mem_cons_self) henters

end

mutual

/-- The walk yields every file once. -/
theorem nodup_fromEntries (f : Filter) (below : List Text) {entries : List (Text × FileNode)}
    (h : (FileNode.directory entries).Distinct) : (fromEntries f below entries).Nodup := by
  match entries with
  | [] => exact List.nodup_nil
  | (name, node) :: rest =>
    obtain ⟨hname, hnode, hrest⟩ := h.of_cons
    rw [fromEntries]
    refine List.nodup_append.mpr ⟨nodup_fromNode f below name hnode, nodup_fromEntries f below hrest,
      fun parts hparts parts' hparts' heq => ?_⟩
    -- Right behind `below`, the two paths have the names of different entries.
    obtain ⟨ds, last, hfile, -, rfl⟩ := mem_fromNode.mp hparts
    obtain ⟨ds', last', hfile', -, rfl⟩ := mem_fromEntries.mp hparts'
    obtain ⟨first, hfirst, more, hmore⟩ := hfile.exists_entry
    obtain ⟨first', hfirst', more', hmore'⟩ := hfile'.exists_entry
    rw [List.append_assoc, List.append_assoc, List.append_cancel_left_eq, ← hmore, ← hmore'] at heq
    obtain rfl : first = name := by simpa using hfirst
    exact hname ((List.cons.inj heq).1 ▸ hfirst')

theorem nodup_fromNode (f : Filter) (below : List Text) (name : Text) {node : FileNode}
    (h : node.Distinct) : (fromNode f below name node).Nodup := by
  match node with
  | .file content =>
    rw [fromNode]
    split
    · exact List.nodup_singleton _
    · exact List.nodup_nil
  | .directory entries =>
    rw [fromNode]
    split
    · exact nodup_fromEntries f _ h
    · exact List.nodup_nil

end

/-! ## The order of paths -/

end Collect

theorem Text.le_iff {a b : Text} : le a b = true ↔ ¬b < a := by
  induction a generalizing b with
  | nil => simp [le]
  | cons x a ih =>
    cases b with
    | nil => simp [le]
    | cons y b =>
      rw [le, List.cons_lt_cons_iff]
      split
      · rename_i heq
        simp [heq, ih]
      · rename_i hne
        simp only [decide_eq_true_eq, Ne.symm hne, false_and, or_false, not_lt]
        exact ⟨le_of_lt, fun h => lt_of_le_of_ne h hne⟩

namespace Collect

/-- Paths are compared name by name. -/
theorem partsLe_iff {p q : List Text} : partsLe p q = true ↔ ¬q < p := by
  induction p generalizing q with
  | nil => simp [partsLe]
  | cons x p ih =>
    cases q with
    | nil => simp [partsLe]
    | cons y q =>
      rw [partsLe, List.cons_lt_cons_iff]
      split
      · rename_i heq
        simp [heq, ih]
      · rename_i hne
        simp [Ne.symm hne, Text.le_iff]

/-- Different paths are put in strict order. -/
theorem pairwise_mergeSort {l : List (List Text)} (h : l.Nodup) :
    (l.mergeSort partsLe).Pairwise (· < ·) := by
  have hle : (l.mergeSort partsLe).Pairwise fun p q => partsLe p q = true := by
    refine List.pairwise_mergeSort (fun p q r hpq hqr => ?_) (fun p q => ?_) l
    · rw [partsLe_iff, not_lt] at hpq hqr ⊢
      exact le_trans hpq hqr
    · rw [Bool.or_eq_true, partsLe_iff, partsLe_iff, not_lt, not_lt]
      exact le_total p q
  have hne : (l.mergeSort partsLe).Nodup := (List.mergeSort_perm l partsLe).nodup_iff.mpr h
  exact (hle.and hne).imp fun ⟨hpq, hne⟩ => lt_of_le_of_ne (not_lt.mp (partsLe_iff.mp hpq)) hne

/-- Of lists in strict order, one that holds no more is a part of the other. -/
theorem sublist_of_subset {l l' : List (List Text)} (h : l.Pairwise (· < ·))
    (h' : l'.Pairwise (· < ·)) (hsub : l' ⊆ l) : l'.Sublist l :=
  List.sublist_of_subperm_of_pairwise (List.subperm_of_subset h'.nodup hsub)
    (h'.imp le_of_lt) (h.imp le_of_lt)

end Collect

namespace FileTree

open Collect (Filter fromEntries)

theorem collect_directory {t : FileTree} {root : Path} {entries : List (Text × FileNode)}
    (hroot : t.lookUp root = .ok (some (.directory entries))) (f : Filter) :
    t.collect root f = .ok (((fromEntries f [] entries).mergeSort Collect.partsLe).map root.below) := by
  rw [collect, hroot]
  rfl

/-- **Which files are collected.** Below a directory of a tree, collecting yields the files that are
taken, each of them once, in the order of their paths name by name; and with more globs to leave out,
a part of them in the same order. -/
theorem collect_filtered {t : FileTree} {root : Path} {entries : List (Text × FileNode)}
    (hdistinct : t.root.Distinct) (hroot : t.lookUp root = .ok (some (.directory entries)))
    (f : Filter) :
    ∃ found, t.collect root f = .ok found ∧
      found.Pairwise (fun p q => p.parts < q.parts) ∧
      (∀ p, p ∈ found ↔ ∃ ds name, p = root.below (ds ++ [name]) ∧
        (FileNode.directory entries).HasFile ds name ∧ f.Takes ds name) ∧
      ∀ f' : Filter, f'.included = f.included → f.excluded ⊆ f'.excluded →
        ∃ found', t.collect root f' = .ok found' ∧ found'.Sublist found := by
  have hentries := distinct_of_lookUp hdistinct hroot
  have hsorted : ∀ f, ((fromEntries f [] entries).mergeSort Collect.partsLe).Pairwise (· < ·) :=
    fun f => Collect.pairwise_mergeSort (Collect.nodup_fromEntries f [] hentries)
  have hmem : ∀ f parts, parts ∈ (fromEntries f [] entries).mergeSort Collect.partsLe ↔
      ∃ ds name, parts = ds ++ [name] ∧ (FileNode.directory entries).HasFile ds name ∧
        f.Takes ds name := by
    intro f parts
    rw [List.mem_mergeSort, Collect.mem_fromEntries]
    constructor
    · rintro ⟨ds, name, hfile, htakes, rfl⟩
      exact ⟨ds, name, rfl, hfile, Filter.takesBelow_nil.mp htakes⟩
    · rintro ⟨ds, name, rfl, hfile, htakes⟩
      exact ⟨ds, name, hfile, Filter.takesBelow_nil.mpr htakes, rfl⟩
  refine ⟨_, collect_directory hroot f, ?_, fun p => ?_, fun f' hincluded hexcluded =>
    ⟨_, collect_directory hroot f', ?_⟩⟩
  · exact List.pairwise_map.mpr ((hsorted f).imp fun h => List.append_left_lt h)
  · rw [List.mem_map]
    constructor
    · rintro ⟨parts, hparts, rfl⟩
      obtain ⟨ds, name, rfl, hfile, htakes⟩ := (hmem f parts).mp hparts
      exact ⟨ds, name, rfl, hfile, htakes⟩
    · rintro ⟨ds, name, rfl, hfile, htakes⟩
      exact ⟨ds ++ [name], (hmem f _).mpr ⟨ds, name, rfl, hfile, htakes⟩, rfl⟩
  · refine (Collect.sublist_of_subset (hsorted f) (hsorted f') fun parts hparts => ?_).map _
    obtain ⟨ds, name, rfl, hfile, htakes⟩ := (hmem f' parts).mp hparts
    exact (hmem f _).mpr ⟨ds, name, rfl, hfile, htakes.mono hincluded hexcluded⟩

/-- A directory is left out for its name or for a glob, and a glob also holds for files. Names are
compared before texts: `a` comes before `a-b`. -/
theorem collect_filtered_site :
    let entries : List (Text × FileNode) :=
      [("old.html".toList, .directory [("p.html".toList, .file (.ok []))]),
        ("a-b".toList, .directory [("x.HTM".toList, .file (.ok []))]),
        ("dist".toList, .directory [("y.html".toList, .file (.ok []))]),
        ("a".toList, .directory [("x.html".toList, .file (.ok [])), ("old.vue".toList, .file (.ok []))])]
    let t : FileTree := ⟨.directory [("site".toList, .directory entries)], [], []⟩
    let f : Filter := ⟨[], ["old*".toList]⟩
    t.root.Distinct ∧ ∃ found, t.collect ⟨false, ["site".toList]⟩ f = .ok found ∧
      found.map Path.text = ["site/a/x.html".toList, "site/a-b/x.HTM".toList] ∧
      ∀ p, p ∈ found ↔ ∃ ds name, p = Path.below ⟨false, ["site".toList]⟩ (ds ++ [name]) ∧
        (FileNode.directory entries).HasFile ds name ∧ f.Takes ds name := by
  intro entries t f
  have hdistinct : t.root.Distinct := by simp [t, entries]
  have hroot : t.lookUp ⟨false, ["site".toList]⟩ = .ok (some (.directory entries)) := by
    have hsplit : Text.splitOn '/' ['s', 'i', 't', 'e'] = [['s', 'i', 't', 'e']] := by decide
    have hshort : byteCount ['s', 'i', 't', 'e'] = 4 := by decide +kernel
    have hopen : t.open? ['s', 'i', 't', 'e'] = .ok (.directory entries) := by
      simp [open?, hsplit, hshort, t, follow, workingDirectories, nameLimit, pathLimit, Text.startsWith]
    have htext : Path.text ⟨false, ["site".toList]⟩ = ['s', 'i', 't', 'e'] := by decide +kernel
    rw [lookUp, htext, hopen]
  have hwalk : fromEntries f [] entries =
      [["a-b".toList, "x.HTM".toList], ["a".toList, "x.html".toList]] := by
    have hold : f.enters "old.html".toList = false := by cbv
    have hdash : f.enters "a-b".toList = true := by cbv
    have hdist : f.enters "dist".toList = false := by cbv
    have ha : f.enters "a".toList = true := by cbv
    have hvueName : Glob.anyMatches f.excluded "old.vue".toList = true := by cbv
    have hhtmPath : Glob.anyMatches f.excluded "a-b/x.HTM".toList = false := by cbv
    have hhtmName : Glob.anyMatches f.excluded "x.HTM".toList = false := by cbv
    have hhtmlPath : Glob.anyMatches f.excluded "a/x.html".toList = false := by cbv
    have hhtmlName : Glob.anyMatches f.excluded "x.html".toList = false := by cbv
    have hhtm : f.wants "a-b/x.HTM".toList "x.HTM".toList = true := by
      rw [Filter.wants, hhtmPath, hhtmName]
      decide +kernel
    have hhtml : f.wants "a/x.html".toList "x.html".toList = true := by
      rw [Filter.wants, hhtmlPath, hhtmlName]
      decide +kernel
    have hvue : f.wants "a/old.vue".toList "old.vue".toList = false := by
      rw [Filter.wants, hvueName, Bool.or_true]
      rfl
    simp_all [entries, fromEntries, Collect.fromNode, Text.join]
  have hsorted : [["a-b".toList, "x.HTM".toList], ["a".toList, "x.html".toList]].mergeSort
      Collect.partsLe = [["a".toList, "x.html".toList], ["a-b".toList, "x.HTM".toList]] := by cbv
  obtain ⟨found, hfound, -, hmem, -⟩ := collect_filtered hdistinct hroot f
  refine ⟨hdistinct, found, hfound, ?_, hmem⟩
  rw [collect_directory hroot f, hwalk, hsorted] at hfound
  rw [← Except.ok.inj hfound]
  decide

end FileTree

end Untranslated
