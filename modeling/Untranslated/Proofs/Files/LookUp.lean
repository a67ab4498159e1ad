import Untranslated.Proofs.Files

/-!
# What looking up a path depends on

A path is looked up name by name, so what a path below a directory leads to depends on nothing but that
directory, as long as its names do not climb out of it again.

* `Path.descends` are names that stay below the place that they begin in.
* `follow_append` cuts following names in two, and `follow_congr` says that names which stay below do
  not see the directories around. Hence `lookUp_below`: two trees with the same directory at a path
  agree on what lies below it.
* Looking up fails for one reason only, a path or name with too many bytes (`lookUp_cases`,
  `file?_cases`).
-/

namespace Untranslated

/-! ## Names that stay below -/

namespace Path

/-- Whether the names stay below the directory they begin in, given how deep below it they have come
so far. -/
def descends : Nat → List Text → Bool
  | _, [] => true
  | depth, name :: names =>
    if name = ['.', '.'] then 0 < depth && descends (depth - 1) names
    else descends (depth + 1) names

theorem descends_append {depth : Nat} {names : List Text} {name : Text} (hname : name ≠ ['.', '.'])
    (h : descends depth names = true) : descends depth (names ++ [name]) = true := by
  induction names generalizing depth with
  | nil => simp [descends, hname]
  | cons n names ih =>
    rw [List.cons_append, descends]
    rw [descends] at h
    split at h
    · rw [Bool.and_eq_true] at h
      rw [if_pos ‹_›, Bool.and_eq_true]
      exact ⟨h.1, ih h.2⟩
    · rw [if_neg ‹_›]
      exact ih h

theorem descends_of_prefix {depth : Nat} {names names' : List Text} (h : names' <+: names)
    (hnames : descends depth names = true) : descends depth names' = true := by
  induction names' generalizing depth names with
  | nil => simp [descends]
  | cons n names' ih =>
    obtain ⟨more, rfl⟩ := h
    rw [List.cons_append, descends] at hnames
    rw [descends]
    split at hnames
    · rw [Bool.and_eq_true] at hnames
      rw [if_pos ‹_›, Bool.and_eq_true]
      exact ⟨hnames.1, ih (List.prefix_append names' more) hnames.2⟩
    · rw [if_neg ‹_›]
      exact ih (List.prefix_append names' more) hnames

theorem Proper.of_prefix {p q : Path} (hp : p.Proper) (h : q.parts <+: p.parts) : q.Proper :=
  fun name hname => hp name (h.subset hname)

end Path

namespace FileTree

/-! ## Following names below a directory -/

/-- Following more names goes on from where the first ones lead. -/
theorem follow_append {path : Text} {names : List Text} {stack : List FileNode} {node : FileNode}
    (h : follow path names stack = .ok node) :
    ∃ outer, ∀ path' more, follow path' (names ++ more) stack = follow path' more (node :: outer) := by
  fun_induction follow path names stack with
  | case1 top outer =>
    cases h
    exact ⟨outer, fun _ _ => rfl⟩
  | case2 | case3 | case6 | case7 => cases h
  | case4 name names outer entries hname ih =>
    obtain ⟨outer, houter⟩ := ih h
    exact ⟨outer, fun path' more => by rw [List.cons_append, follow, if_pos hname, houter]⟩
  | case5 names outer entries hname ih =>
    obtain ⟨outer', houter⟩ := ih h
    exact ⟨outer', fun path' more => by
      rw [List.cons_append, follow, if_neg hname, if_pos rfl, houter]⟩
  | case8 name names outer entries hname hup hshort inner hentry ih =>
    obtain ⟨outer', houter⟩ := ih h
    exact ⟨outer', fun path' more => by
      rw [List.cons_append, follow, if_neg hname, if_neg hup, if_neg hshort, hentry]
      exact houter path' more⟩

/-- Names that stay below the nodes `inside` lead to the same place whatever is around these. -/
theorem follow_congr {path : Text} {names : List Text} {node : FileNode} (inside : List FileNode)
    (hnames : ∀ name ∈ names, name ≠ [] ∧ name ≠ ['.'])
    (hdescends : Path.descends inside.length names = true) (outer outer' : List FileNode) :
    follow path names (node :: inside ++ outer) = follow path names (node :: inside ++ outer') := by
  induction names generalizing node inside with
  | nil => rfl
  | cons name names ih =>
    obtain ⟨hname, hnames⟩ := List.forall_mem_cons.mp hnames
    cases node with
    | file content => simp [follow]
    | directory entries =>
      have hblank : ¬(name.isEmpty || name = ['.']) = true := by simpa using hname
      simp only [List.cons_append, follow, if_neg hblank]
      rw [Path.descends] at hdescends
      by_cases hup : name = ['.', '.']
      · rw [if_pos hup, Bool.and_eq_true] at hdescends
        obtain ⟨hdeep, hdescends⟩ := hdescends
        cases inside with
        | nil => simp at hdeep
        | cons parent inside =>
          simp only [if_pos hup, List.cons_append, List.isEmpty_cons, Bool.false_eq_true, if_false]
          exact ih inside hnames hdescends
      · rw [if_neg hup] at hdescends
        simp only [if_neg hup]
        split
        · rfl
        · split
          · rfl
          · exact ih (.directory entries :: inside) hnames hdescends

/-- A name that stands for nothing is followed nowhere. -/
theorem follow_nil_cons {path : Text} {names : List Text} {entries : List (Text × FileNode)}
    {outer : List FileNode} :
    follow path ([] :: names) (.directory entries :: outer) =
      follow path names (.directory entries :: outer) := by
  simp [follow]

theorem filter_splitOn_text {p : Path} (hp : p.Proper) :
    ((Text.splitOn '/' p.text).filter fun name => !name.isEmpty && name != ['.']) = p.parts := by
  have hparts : (p.parts.filter fun name => !name.isEmpty && name != ['.']) = p.parts :=
    List.filter_eq_self.mpr fun name hname => by
      obtain ⟨hne, hdot, -⟩ := hp name hname
      simp [hne, hdot]
  rw [Path.splitOn_text hp]
  split_ifs with _ hnil hnil
  · simp [hnil]
  · simpa using hparts
  · simp [hnil]
  · exact hparts

/-- What lies below a directory is looked up from that directory. -/
theorem follow_below {t : FileTree} {top : Path} (htop : top.Proper)
    {entries : List (Text × FileNode)} (h : t.lookUp top = .ok (some (.directory entries))) :
    ∃ outer, ∀ names, names ≠ [] → (top.below names).Proper → ∀ path,
      follow path (Text.splitOn '/' (top.below names).text) (t.startOf (top.below names).text) =
        follow path names (.directory entries :: outer) := by
  obtain ⟨-, -, -, hfollow⟩ := open?_eq_ok.mp (open?_eq_of_lookUp h)
  have hparts := follow_filter hfollow top.text
  rw [filter_splitOn_text htop] at hparts
  obtain ⟨outer, houter⟩ := follow_append hparts
  refine ⟨outer, fun names hnames hbelow path => ?_⟩
  have hstart : t.startOf (top.below names).text = t.startOf top.text := by
    rw [startOf, startOf, Path.startsWith_text hbelow, Path.startsWith_text htop]
    rfl
  have hne : (top.below names).parts ≠ [] := by simp [hnames]
  rw [hstart, ← houter, Path.splitOn_text hbelow, if_neg hne, if_neg hne, Path.below_parts]
  split
  · -- The root is a directory, since following its empty name went on.
    rename_i habs
    have habs : top.absolute = true := habs
    rw [Path.splitOn_text htop, if_pos habs, follow_cons_blank (.inl rfl)] at hfollow
    obtain ⟨⟨entries', outer', hstack⟩, -⟩ := hfollow
    rw [hstack, follow_nil_cons]
  · rfl

/-- Two trees with the same directory at a path agree on what lies below it. -/
theorem lookUp_below {t t' : FileTree} {top : Path} {entries : List (Text × FileNode)}
    (h : t.lookUp top = .ok (some (.directory entries)))
    (h' : t'.lookUp top = .ok (some (.directory entries))) {names : List Text}
    (hproper : (top.below names).Proper) (hdescends : Path.descends 0 names = true) :
    t.lookUp (top.below names) = t'.lookUp (top.below names) := by
  by_cases hnames : names = []
  · rw [show top.below names = top by simp [hnames, Path.below], h, h']
  · have htop : top.Proper := hproper.of_prefix (List.prefix_append top.parts names)
    have hblank : ∀ name ∈ names, name ≠ [] ∧ name ≠ ['.'] := fun name hname => by
      obtain ⟨hne, hdot, -⟩ := hproper name (by simp [hname])
      exact ⟨hne, hdot⟩
    obtain ⟨outer, houter⟩ := follow_below htop h
    obtain ⟨outer', houter'⟩ := follow_below htop h'
    have hsame : ∀ path, follow path names ([.directory entries] ++ outer) =
        follow path names ([.directory entries] ++ outer') := fun path =>
      follow_congr [] hblank hdescends outer outer'
    rw [lookUp, lookUp, open?_eq, open?_eq, houter names hnames hproper,
      houter' names hnames hproper]
    exact hsame _ ▸ rfl

/-! ## Paths that are too long -/

/-- The path, or a name in it, has more bytes than can be looked up. -/
def TooLong (path : Text) : Prop :=
  pathLimit < byteCount path ∨ ∃ name ∈ Text.splitOn '/' path, nameLimit < byteCount name

theorem follow_nameTooLong {path path' : Text} {names : List Text} {stack : List FileNode}
    (h : follow path names stack = .error (.nameTooLong path')) :
    path' = path ∧ ∃ name ∈ names, nameLimit < byteCount name := by
  have hcons : ∀ {name : Text} {names : List Text},
      (path' = path ∧ ∃ n ∈ names, nameLimit < byteCount n) →
      path' = path ∧ ∃ n ∈ name :: names, nameLimit < byteCount n :=
    fun ⟨hpath, n, hn, hlong⟩ => ⟨hpath, n, List.mem_cons_of_mem _ hn, hlong⟩
  fun_induction follow path names stack with
  | case1 | case2 | case3 | case7 => cases h
  | case4 name names outer entries hname ih => exact hcons (ih h)
  | case5 names outer entries hname ih => exact hcons (ih h)
  | case6 name names outer entries hname hup hlong =>
    cases h
    exact ⟨rfl, name, List.mem_cons_self, hlong⟩
  | case8 name names outer entries hname hup hshort inner hentry ih => exact hcons (ih h)

theorem open?_nameTooLong {t : FileTree} {path path' : Text}
    (h : t.open? path = .error (.nameTooLong path')) : path' = path ∧ TooLong path := by
  rw [open?_eq] at h
  split_ifs at h with _ _ hlong
  · cases h
  · cases h
  · cases h
    exact ⟨rfl, .inl hlong⟩
  · exact (follow_nameTooLong h).imp_right .inr

/-- The path leads to a file or directory. -/
def leads (t : FileTree) (p : Path) : Bool :=
  match t.lookUp p with
  | .ok (some _) => true
  | _ => false

/-- The path leads to a file. -/
def isFile (t : FileTree) (p : Path) : Bool :=
  match t.lookUp p with
  | .ok (some (.file _)) => true
  | _ => false

/-- Looking up fails for a path that is too long, and for nothing else. -/
theorem lookUp_cases (t : FileTree) (p : Path) :
    (∃ node, t.lookUp p = .ok node ∧ node.isSome = t.leads p) ∨
      TooLong p.text ∧ t.lookUp p = .error (.nameTooLong p.text) := by
  unfold leads lookUp
  cases hopen : t.open? p.text with
  | ok node => exact .inl ⟨_, rfl, rfl⟩
  | error e =>
    cases e with
    | nameTooLong path =>
      obtain ⟨rfl, hlong⟩ := open?_nameTooLong hopen
      exact .inr ⟨hlong, rfl⟩
    | notFound | isDirectory | notDirectory | denied | device | nullByte => exact .inl ⟨_, rfl, rfl⟩

theorem file?_cases (t : FileTree) (p : Path) :
    (∃ content, t.file? p = .ok content ∧ content.isSome = t.isFile p) ∨
      TooLong p.text ∧ t.file? p = .error (.nameTooLong p.text) := by
  unfold isFile file?
  rcases lookUp_cases t p with ⟨node, h, -⟩ | ⟨hlong, h⟩
  · rw [h]
    refine .inl ⟨_, rfl, ?_⟩
    rcases node with _ | (content | entries) <;> rfl
  · rw [h]
    exact .inr ⟨hlong, rfl⟩

section
variable {t t' : FileTree} {p : Path}

theorem file?_congr (h : t.lookUp p = t'.lookUp p) : t.file? p = t'.file? p := by
  rw [file?, file?, h]

theorem isFile_congr (h : t.lookUp p = t'.lookUp p) : t.isFile p = t'.isFile p := by
  rw [isFile, isFile, h]

end

end FileTree

end Untranslated
