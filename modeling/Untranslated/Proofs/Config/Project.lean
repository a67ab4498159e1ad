import Untranslated.Config
import Untranslated.Proofs.Files.LookUp

/-!
# Which project a path belongs to

The configuration file of a project is searched for from the scanned directory upwards, and the
search ends at the first directory that is marked as the top of a project.

* `Path.upwards` are a path and those above it, and `enclosing` the directories that a search begins
  with. `Nearest` says which of them has the configuration file that counts.
* `reach` are the directories up to the top, which is where both parts of the search look
  (`upToTop_cases`, `firstFile?_cases`). A search that agrees on them has the same result
  (`find?_congr`).
* `find?_nearest` puts these together: the search finds the nearest file, and what lies above the top
  of a project has no effect on its configuration (`SameProject.load_eq`). The paths that this is not
  true of are in `find?_nearest_fails`.
-/

namespace Untranslated

/-! ## Directories above a path -/

namespace Path

/-- The path and all shorter ones, longest first. -/
def upwards (p : Path) : List Path := p :: p.parents

theorem pairwise_beginnings (parts : List Text) :
    (parts :: beginnings parts).Pairwise fun longer shorter => shorter <+: longer := by
  induction parts with
  | nil => simp [beginnings]
  | cons name parts ih =>
    have hmap : (name :: parts) :: beginnings (name :: parts) =
        (parts :: beginnings parts).map (name :: ·) ++ [[]] := rfl
    rw [hmap, List.pairwise_append, List.pairwise_map]
    refine ⟨ih.imp fun h => (List.prefix_cons_inj name).mpr h, List.pairwise_singleton _ _, ?_⟩
    intro longer _ shorter hshorter
    rw [List.mem_singleton.mp hshorter]
    exact List.nil_prefix

/-- What comes later is above what comes before. -/
theorem pairwise_upwards (p : Path) :
    p.upwards.Pairwise fun inner outer => ∃ names, inner = outer.below names := by
  have hmap : p.upwards = (p.parts :: beginnings p.parts).map fun parts => { p with parts } := rfl
  rw [hmap, List.pairwise_map]
  refine (pairwise_beginnings p.parts).imp fun ⟨names, hnames⟩ => ⟨names, ?_⟩
  rw [← hnames]
  rfl

theorem below_of_mem_upwards {p d : Path} (h : d ∈ p.upwards) : ∃ names, p = d.below names := by
  rcases List.mem_cons.mp h with rfl | h
  · exact ⟨[], by simp [below]⟩
  · exact (List.pairwise_cons.mp (pairwise_upwards p)).1 d h

theorem below_below (p : Path) (names names' : List Text) :
    (p.below names).below names' = p.below (names ++ names') := by
  simp [below]

theorem child_below (p : Path) (names : List Text) (name : Text) :
    (p.below names).child name = p.below (names ++ [name]) := by
  simp [below, child]

theorem below_parent (p : Path) : ∃ names, p = p.parent.below names := by
  obtain ⟨names, hnames⟩ := List.dropLast_prefix p.parts
  exact ⟨names, by simp [below, parent, hnames]⟩

theorem Proper.child {p : Path} (hp : p.Proper) {name : Text}
    (hname : name ≠ [] ∧ name ≠ ['.'] ∧ '/' ∉ name) : (p.child name).Proper := by
  intro n hn
  rcases List.mem_append.mp hn with hn | hn
  · exact hp n hn
  · exact List.mem_singleton.mp hn ▸ hname

/-- The path begins in a home directory, as a tilde says. -/
def InHome (p : Path) : Prop := p.absolute = false ∧ ∃ account rest, p.parts = ('~' :: account) :: rest

theorem expandHome?_of_not_inHome {p : Path} (h : ¬p.InHome) (homes : List (Text × Path)) :
    p.expandHome? homes = some p := by
  unfold expandHome?
  split
  · rename_i account rest habs hparts
    exact absurd ⟨habs, account, rest, hparts⟩ h
  · rfl

end Path

namespace Config

/-! ## The nearest file -/

section
variable (t : FileTree)

/-- The directory is marked as the top of a project. -/
def marked (d : Path) : Bool := t.leads (d.child topMark)

/-- The directory has a configuration file. -/
def configured (d : Path) : Bool := t.isFile (d.child fileName)

/-- The directories that a search for a path's configuration begins with: its own, if it is a
file, else itself, and those above. -/
def enclosing (p : Path) : List Path := (if t.isFile p then p.parent else p).upwards

/-- The directory is one of the given ones, and none before it is marked. -/
def Within (ds : List Path) (d : Path) : Prop :=
  ∃ nearer farther, ds = nearer ++ d :: farther ∧ ∀ e ∈ nearer, marked t e = false

/-- The directory is the first of the given ones with a configuration file, and none before it is
marked. -/
def Nearest (ds : List Path) (d : Path) : Prop :=
  ∃ nearer farther, ds = nearer ++ d :: farther ∧ configured t d = true ∧
    ∀ e ∈ nearer, configured t e = false ∧ marked t e = false

/-- The directories up to the first one that is marked. -/
def reach : List Path → List Path
  | [] => []
  | d :: outer => if marked t d then [d] else d :: reach outer

end

section
variable {t : FileTree}

theorem Within.head (d : Path) (ds : List Path) : Within t (d :: ds) d := ⟨[], ds, rfl, by simp⟩

theorem Within.tail {d e : Path} {ds : List Path} (h : ¬marked t e = true) (hd : Within t ds d) :
    Within t (e :: ds) d := by
  obtain ⟨nearer, farther, rfl, hnearer⟩ := hd
  exact ⟨e :: nearer, farther, rfl, List.forall_mem_cons.mpr ⟨Bool.eq_false_iff.mpr h, hnearer⟩⟩

theorem mem_reach {ds : List Path} {d : Path} : d ∈ reach t ds ↔ Within t ds d := by
  constructor
  · intro h
    induction ds with
    | nil => cases h
    | cons e ds ih =>
      rw [reach] at h
      split at h
      · obtain rfl := List.mem_singleton.mp h
        exact .head d ds
      · rename_i hmarked
        rcases List.mem_cons.mp h with rfl | h
        · exact .head d ds
        · exact .tail hmarked (ih h)
  · rintro ⟨nearer, farther, rfl, hnearer⟩
    induction nearer with
    | nil =>
      rw [List.nil_append, reach]
      split <;> simp
    | cons e nearer ih =>
      obtain ⟨he, hnearer⟩ := List.forall_mem_cons.mp hnearer
      rw [List.cons_append, reach, if_neg (by simp [he])]
      exact List.mem_cons_of_mem e (ih hnearer)

/-- Nothing behind a marked directory is within reach. -/
theorem reach_append {nearer farther : List Path} {top : Path}
    (hnearer : ∀ e ∈ nearer, marked t e = false) (htop : marked t top = true) :
    reach t (nearer ++ top :: farther) = nearer ++ [top] := by
  induction nearer with
  | nil => rw [List.nil_append, reach, if_pos htop, List.nil_append]
  | cons e nearer ih =>
    obtain ⟨he, hnearer⟩ := List.forall_mem_cons.mp hnearer
    rw [List.cons_append, reach, if_neg (by simp [he]), ih hnearer, List.cons_append]

theorem nearest_cons {e d : Path} {ds : List Path} :
    Nearest t (e :: ds) d ↔
      if configured t e then d = e else marked t e = false ∧ Nearest t ds d := by
  constructor
  · rintro ⟨_ | ⟨e', nearer⟩, farther, heq, hd, hnearer⟩
    · obtain ⟨rfl, -⟩ := List.cons.inj heq
      rw [if_pos hd]
    · obtain ⟨rfl, rfl⟩ := List.cons.inj heq
      obtain ⟨⟨hfile, hmark⟩, hnearer⟩ := List.forall_mem_cons.mp hnearer
      rw [if_neg (by simp [hfile])]
      exact ⟨hmark, nearer, farther, rfl, hd, hnearer⟩
  · split
    · rintro rfl
      exact ⟨[], ds, rfl, ‹_›, by simp⟩
    · rename_i hfile
      rintro ⟨hmark, nearer, farther, rfl, hd, hnearer⟩
      exact ⟨e :: nearer, farther, rfl, hd,
        List.forall_mem_cons.mpr ⟨⟨Bool.eq_false_iff.mpr hfile, hmark⟩, hnearer⟩⟩

/-- The first directory within reach that has a configuration file is the nearest one. -/
theorem find?_reach {ds : List Path} {d : Path} :
    (reach t ds).find? (configured t) = some d ↔ Nearest t ds d := by
  induction ds with
  | nil => simp [reach, Nearest]
  | cons e ds ih =>
    rw [nearest_cons, reach]
    cases hmark : marked t e <;> cases hfile : configured t e <;> simp [hfile, ih, eq_comm]

/-! ## The search -/

/-- Looking for marks yields the directories within reach, unless a mark's path is too long. -/
theorem upToTop_cases (t : FileTree) (ds : List Path) :
    upToTop t ds = .ok (reach t ds) ∨
      ∃ d, Within t ds d ∧ FileTree.TooLong (d.child topMark).text ∧
        upToTop t ds = .error (.nameTooLong (d.child topMark).text) := by
  induction ds with
  | nil => exact .inl rfl
  | cons d ds ih =>
    rcases t.lookUp_cases (d.child topMark) with ⟨mark, hlook, hmark⟩ | ⟨hlong, hlook⟩
    swap
    · exact .inr ⟨d, .head d ds, hlong, by rw [upToTop, hlook]; rfl⟩
    have hmark : mark.isSome = marked t d := hmark
    simp only [upToTop, reach, hlook, bind, Except.bind, hmark]
    split
    · exact .inl rfl
    · rename_i hmarked
      rcases ih with hok | ⟨e, he, hlong, herror⟩
      · exact .inl (by rw [hok]; rfl)
      · exact .inr ⟨e, .tail hmarked he, hlong, by rw [herror]⟩

/-- Looking for files yields the first one, unless a path is too long. -/
theorem firstFile?_cases (t : FileTree) (ps : List Path) :
    firstFile? t ps = .ok (ps.find? t.isFile) ∨
      ∃ p ∈ ps, FileTree.TooLong p.text ∧ firstFile? t ps = .error (.nameTooLong p.text) := by
  induction ps with
  | nil => exact .inl rfl
  | cons p ps ih =>
    rcases t.file?_cases p with ⟨content, hfile, hcontent⟩ | ⟨hlong, hfile⟩
    swap
    · exact .inr ⟨p, List.mem_cons_self, hlong, by rw [firstFile?, hfile]; rfl⟩
    simp only [firstFile?, hfile, bind, Except.bind, hcontent]
    split
    · rename_i hisFile
      exact .inl (by rw [List.find?_cons_of_pos hisFile]; rfl)
    · rename_i hisFile
      rw [List.find?_cons_of_neg hisFile]
      rcases ih with hok | ⟨q, hq, hlong, herror⟩
      · exact .inl hok
      · exact .inr ⟨q, List.mem_cons_of_mem p hq, hlong, herror⟩

/-- The paths that a search may look up: the scanned path, and marks and configuration files in the
directories within reach. -/
def Asked (t : FileTree) (p q : Path) : Prop :=
  q = p ∨ ∃ d, Within t (enclosing t p) d ∧ (q = d.child topMark ∨ q = d.child fileName)

/-- Where a search goes on after looking at the scanned path. -/
theorem find?_of_file? {p : Path} {content : Option FileContent} (hfile : t.file? p = .ok content)
    (hcontent : content.isSome = t.isFile p) :
    find? t p = upToTop t (enclosing t p) >>= fun searched =>
      firstFile? t (searched.map (·.child fileName)) := by
  rw [find?, hfile]
  simp only [bind, Except.bind, hcontent]
  rfl

/-- The search finds the first file within reach, unless a path that it looks up is too long. -/
theorem find?_cases (t : FileTree) (p : Path) :
    find? t p = .ok (((reach t (enclosing t p)).find? (configured t)).map (·.child fileName)) ∨
      ∃ q, Asked t p q ∧ FileTree.TooLong q.text ∧ find? t p = .error (.nameTooLong q.text) := by
  rcases t.file?_cases p with ⟨content, hfile, hcontent⟩ | ⟨hlong, hfile⟩
  swap
  · exact .inr ⟨p, .inl rfl, hlong, by rw [find?, hfile]; rfl⟩
  rw [find?_of_file? hfile hcontent]
  rcases upToTop_cases t (enclosing t p) with hreach | ⟨d, hd, hlong, herror⟩
  swap
  · exact .inr ⟨_, .inr ⟨d, hd, .inl rfl⟩, hlong, by rw [herror]; rfl⟩
  rw [hreach]
  rcases firstFile?_cases t ((reach t (enclosing t p)).map (·.child fileName)) with
    hfirst | ⟨q, hq, hlong, herror⟩
  · rw [List.find?_map] at hfirst
    exact .inl hfirst
  · obtain ⟨d, hd, rfl⟩ := List.mem_map.mp hq
    exact .inr ⟨_, .inr ⟨d, mem_reach.mp hd, .inr rfl⟩, hlong, herror⟩

/-! ## Searches that agree -/

section
variable {t' : FileTree}

theorem upToTop_congr {ds : List Path}
    (h : ∀ d ∈ reach t ds, t.lookUp (d.child topMark) = t'.lookUp (d.child topMark)) :
    upToTop t ds = upToTop t' ds := by
  induction ds with
  | nil => rfl
  | cons d ds ih =>
    rw [reach] at h
    have hd : t.lookUp (d.child topMark) = t'.lookUp (d.child topMark) :=
      h d (by split <;> simp)
    rw [upToTop, upToTop, ← hd]
    rcases t.lookUp_cases (d.child topMark) with ⟨mark, hlook, hmark⟩ | ⟨-, hlook⟩
    swap
    · rw [hlook]
      rfl
    have hmark : mark.isSome = marked t d := hmark
    simp only [hlook, bind, Except.bind, hmark]
    split
    · rfl
    · rename_i hmarked
      rw [if_neg hmarked] at h
      rw [ih fun e he => h e (List.mem_cons_of_mem d he)]

theorem firstFile?_congr {ps : List Path} (h : ∀ p ∈ ps, t.lookUp p = t'.lookUp p) :
    firstFile? t ps = firstFile? t' ps := by
  induction ps with
  | nil => rfl
  | cons p ps ih =>
    obtain ⟨hp, hps⟩ := List.forall_mem_cons.mp h
    rw [firstFile?, firstFile?, FileTree.file?_congr hp, ih hps]

/-- A search in two trees that agree on the scanned path and in the directories within reach. -/
theorem find?_congr {p : Path} (hp : t.lookUp p = t'.lookUp p)
    (hmarks : ∀ d ∈ reach t (enclosing t p), t.lookUp (d.child topMark) = t'.lookUp (d.child topMark))
    (hfiles : ∀ d ∈ reach t (enclosing t p),
      t.lookUp (d.child fileName) = t'.lookUp (d.child fileName)) : find? t p = find? t' p := by
  rcases t.file?_cases p with ⟨content, hfile, hcontent⟩ | ⟨-, hfile⟩
  swap
  · rw [find?, find?, ← FileTree.file?_congr hp, hfile]
    rfl
  have henclosing : enclosing t p = enclosing t' p := by
    rw [enclosing, FileTree.isFile_congr hp, enclosing]
  rw [find?_of_file? hfile hcontent,
    find?_of_file? (FileTree.file?_congr hp ▸ hfile) (FileTree.isFile_congr hp ▸ hcontent), ← henclosing,
    ← upToTop_congr hmarks]
  rcases upToTop_cases t (enclosing t p) with hreach | ⟨_, -, -, herror⟩
  swap
  · rw [herror]
    rfl
  rw [hreach]
  refine firstFile?_congr fun q hq => ?_
  obtain ⟨d, hd, rfl⟩ := List.mem_map.mp hq
  exact hfiles d hd

/-! ## What lies above a project -/

/-- Both trees have the same directory as the top of the path's project, and the path stays below
it. -/
structure SameProject (t t' : FileTree) (p top : Path) : Prop where
  /-- The directory is the first one that is marked. -/
  within : Within t (enclosing t p) top
  isMarked : marked t top = true
  /-- No double dot leads out of it. -/
  stays : ∃ names, p = top.below names ∧ Path.descends 0 names = true
  same : ∃ entries, t.lookUp top = .ok (some (.directory entries)) ∧
    t'.lookUp top = .ok (some (.directory entries))

section
variable {p top : Path}

/-- The directories within reach lie between the top of the project and the path. -/
theorem SameProject.between (h : SameProject t t' p top) {d : Path}
    (hd : d ∈ reach t (enclosing t p)) :
    (∃ names, d = top.below names) ∧ ∃ names, p = d.below names := by
  obtain ⟨nearer, farther, hds, hnearer⟩ := h.within
  have hpairs := Path.pairwise_upwards (if t.isFile p then p.parent else p)
  have hmem : d ∈ enclosing t p := by
    obtain ⟨before, after, hbefore, -⟩ := mem_reach.mp hd
    simp [hbefore]
  constructor
  · change (enclosing t p).Pairwise _ at hpairs
    rw [hds, List.pairwise_append] at hpairs
    rw [hds, reach_append hnearer h.isMarked, List.mem_append, List.mem_singleton] at hd
    rcases hd with hd | rfl
    · exact hpairs.2.2 d hd top List.mem_cons_self
    · exact ⟨[], by simp [Path.below]⟩
  · obtain ⟨names, hnames⟩ := Path.below_of_mem_upwards hmem
    split at hnames
    · obtain ⟨last, hlast⟩ := Path.below_parent p
      exact ⟨names ++ last, by rw [← Path.below_below, ← hnames, ← hlast]⟩
    · exact ⟨names, hnames⟩

/-- In a directory within reach, both trees have the same. -/
theorem SameProject.lookUp_child (h : SameProject t t' p top) (hp : p.Proper) {d : Path}
    (hd : d ∈ reach t (enclosing t p)) {name : Text}
    (hname : name ≠ [] ∧ name ≠ ['.'] ∧ '/' ∉ name) (hup : name ≠ ['.', '.']) :
    t.lookUp (d.child name) = t'.lookUp (d.child name) := by
  obtain ⟨names, hnames, hdescends⟩ := h.stays
  obtain ⟨entries, hentries, hentries'⟩ := h.same
  obtain ⟨⟨inner, rfl⟩, more, hmore⟩ := h.between hd
  have hproper : ((top.below inner).child name).Proper :=
    (hp.of_prefix ⟨more, by rw [hmore]; rfl⟩).child hname
  have hinner : inner <+: names := by
    rw [hnames, Path.below_below] at hmore
    exact ⟨more, (List.append_cancel_left (congrArg Path.parts hmore)).symm⟩
  rw [Path.child_below] at hproper ⊢
  exact FileTree.lookUp_below hentries hentries' hproper
    (Path.descends_append hup (Path.descends_of_prefix hinner hdescends))

theorem SameProject.find?_eq (h : SameProject t t' p top) (hp : p.Proper) :
    find? t p = find? t' p := by
  obtain ⟨names, hnames, hdescends⟩ := h.stays
  obtain ⟨entries, hentries, hentries'⟩ := h.same
  refine find?_congr ?_ (fun d hd => h.lookUp_child hp hd (by decide) (by decide))
    fun d hd => h.lookUp_child hp hd (by decide) (by decide)
  rw [hnames] at hp ⊢
  exact FileTree.lookUp_below hentries hentries' hp hdescends

/-- A configuration file begins in a home directory only if the scanned path does. -/
theorem not_inHome_child {d : Path} (hp : ¬p.InHome) (hd : ∃ names, p = d.below names) :
    ¬(d.child fileName).InHome := by
  rintro ⟨habs, account, rest, hparts⟩
  obtain ⟨names, rfl⟩ := hd
  obtain ⟨absolute, parts⟩ := d
  cases parts with
  | nil =>
    have hhead : fileName.head? = some '.' := by decide
    rw [(List.cons.inj hparts).1] at hhead
    exact absurd (Option.some.inj hhead) (by decide)
  | cons first parts =>
    refine hp ⟨habs, account, parts ++ names, ?_⟩
    rw [(List.cons.inj hparts).1]
    rfl

theorem document_congr {f : Path} (hf : ¬f.InHome) (h : t.file? f = t'.file? f) :
    document t f = document t' f := by
  unfold document
  rw [Path.expandHome?_of_not_inHome hf, Path.expandHome?_of_not_inHome hf]
  simp only [h]

/-- What lies above the top of a project has no effect on its configuration. -/
theorem SameProject.load_eq (h : SameProject t t' p top) (hp : p.Proper) (hhome : ¬p.InHome)
    {userFile : Path} (huser : document t userFile = document t' userFile) :
    load t userFile (some p) none = load t' userFile (some p) none := by
  have hproject : ∀ f, find? t p = .ok (some f) → document t f = document t' f := fun f hf => by
    rcases find?_cases t p with hfound | ⟨_, -, -, herror⟩
    swap
    · rw [hf] at herror
      cases herror
    rw [hf] at hfound
    obtain ⟨d, hd, rfl⟩ := Option.map_eq_some_iff.mp (Except.ok.inj hfound).symm
    have hd := List.mem_of_find?_eq_some hd
    exact document_congr (not_inHome_child hhome (h.between hd).2)
      (FileTree.file?_congr (h.lookUp_child hp hd (by decide) (by decide)))
  simp only [load, ofPath, contents, huser, ← h.find?_eq hp]
  cases hfind : find? t p with
  | error e => rfl
  | ok found =>
    cases found with
    | none => rfl
    | some f => simp only [Except.mapError, bind, Except.bind, hproject f hfind]

end

end

end

/-- **The search stops at the top of a project.** For every tree and scanned path, the search finds the
configuration file of the nearest directory that has one, up to and including the first one that is
marked, and none if there is no such directory, unless a path that it looks up is too long. So two
trees that agree on the user's configuration and hold the same directory as the top of the project
give the same configuration, for a path that neither leads out of it nor begins in a home
directory. -/
theorem find?_nearest (t : FileTree) (s : Text) :
    ((∃ found, find? t (Path.ofText s) = .ok found ∧ ∀ f, found = some f ↔
        ∃ d, Nearest t (enclosing t (Path.ofText s)) d ∧ f = d.child fileName) ∨
      ∃ q, Asked t (Path.ofText s) q ∧ FileTree.TooLong q.text ∧
        find? t (Path.ofText s) = .error (.nameTooLong q.text)) ∧
    ∀ t' top userFile, SameProject t t' (Path.ofText s) top → ¬(Path.ofText s).InHome →
      document t userFile = document t' userFile →
      load t userFile (some (Path.ofText s)) none = load t' userFile (some (Path.ofText s)) none := by
  refine ⟨?_, fun t' top userFile hsame hhome huser =>
    hsame.load_eq (Path.proper_ofText s) hhome huser⟩
  rcases find?_cases t (Path.ofText s) with hfound | hlong
  · refine .inl ⟨_, hfound, fun f => ?_⟩
    rw [Option.map_eq_some_iff]
    simp only [find?_reach]
    exact exists_congr fun d => and_congr_right fun _ => eq_comm
  · exact .inr hlong

/-- A project inside another one: where a directory has the name of a configuration file, the search
goes on, and what the outer project sets does not count. -/
theorem find?_nearest_nested :
    let file (tags : String) : FileNode :=
      .file (.ok (Utf8.encode ("lint: \x7bignore_tags: ".toList ++ tags.toList ++ ['\x7d'])))
    let entries : List (Text × FileNode) := [(topMark, .directory []), (fileName, file "pre"),
      ("a".toList, .directory [(fileName, .directory []), ("x.html".toList, .file (.ok []))])]
    let t : FileTree := ⟨.directory [("r".toList, .directory entries), ("u".toList, file "a"),
      (topMark, .directory []), (fileName, file "code")], [], []⟩
    let t' : FileTree := ⟨.directory [("r".toList, .directory entries), ("u".toList, file "a")],
      [], []⟩
    let p := Path.ofText "/r/a/x.html".toList
    let top : Path := ⟨true, ["r".toList]⟩
    let userFile : Path := ⟨true, ["u".toList]⟩
    SameProject t t' p top ∧ find? t p = .ok (some (top.child fileName)) ∧
      load t userFile (some p) none = load t' userFile (some p) none := by
  intro file entries t t' p top userFile
  have hsame : SameProject t t' p top := by
    refine ⟨⟨[⟨true, ["r".toList, "a".toList]⟩], [⟨true, []⟩], ?_, ?_⟩, ?_, ?_, entries, ?_, ?_⟩
    · decide +kernel
    · decide +kernel
    · decide +kernel
    · exact ⟨["a".toList, "x.html".toList], by decide +kernel, by decide +kernel⟩
    · with_unfolding_all rfl
    · with_unfolding_all rfl
  refine ⟨hsame, by decide +kernel, (find?_nearest t _).2 t' top userFile hsame ?_ ?_⟩
  · rintro ⟨⟨⟩, -⟩
  · exact document_congr (by rintro ⟨⟨⟩, -⟩) (by decide +kernel)

/-- What the search needs in order to end well and stay in a project. A name that is too long is an
error. A file that is found below a tilde is read in the home directory, so it is not the one in the
project. A double dot that leads out of a project leads the search there. And from a path that does
not begin at the root, it does not lead above the working directory. -/
theorem find?_nearest_fails :
    let file : FileNode := .file (.ok (Utf8.encode "lint: \x7bignore_tags: pre\x7d".toList))
    let entries : List (Text × FileNode) := [(topMark, .directory [])]
    let userFile : Path := ⟨true, ["u".toList]⟩
    find? ⟨.directory [], [], []⟩ (Path.ofText (List.replicate 256 'x')) =
        .error (.nameTooLong (List.replicate 256 'x')) ∧
      (let t : FileTree := ⟨.directory [("h".toList, .directory [("~".toList,
          .directory ((fileName, file) :: entries))])], ["h".toList], [([], ⟨true, ["h".toList]⟩)]⟩
       let t' : FileTree := ⟨.directory [("h".toList, .directory [("~".toList,
          .directory ((fileName, file) :: entries)), (fileName, file)])], ["h".toList],
          [([], ⟨true, ["h".toList]⟩)]⟩
       let p := Path.ofText "~".toList
       SameProject t t' p ⟨false, ["~".toList]⟩ ∧ document t userFile = document t' userFile ∧
        load t userFile (some p) none ≠ load t' userFile (some p) none) ∧
      (let t : FileTree := ⟨.directory [("r".toList, .directory entries)], [], []⟩
       let t' : FileTree := ⟨.directory [("r".toList, .directory entries), (fileName, file)], [], []⟩
       let p := Path.ofText "r/../x".toList
       let top : Path := ⟨false, ["r".toList]⟩
       Within t (enclosing t p) top ∧ marked t top = true ∧
        (t.lookUp top = .ok (some (.directory entries)) ∧
          t'.lookUp top = .ok (some (.directory entries))) ∧
        document t userFile = document t' userFile ∧
        load t userFile (some p) none ≠ load t' userFile (some p) none) ∧
      let t : FileTree := ⟨.directory [("h".toList, .directory [("x".toList, .directory [])]),
        (fileName, file)], ["h".toList], []⟩
      find? t (Path.ofText "/h/x".toList) = .ok (some ⟨true, [fileName]⟩) ∧
        find? t (Path.ofText "x".toList) = .ok none := by
  intro file entries userFile
  refine ⟨by decide +kernel, ⟨?_, ?_, by decide +kernel⟩, ⟨?_, by decide +kernel, ?_, ?_,
    by decide +kernel⟩, by decide +kernel, by decide +kernel⟩
  · refine ⟨⟨[], [⟨false, []⟩], ?_, ?_⟩, ?_, ?_, (fileName, file) :: entries, ?_, ?_⟩
    · decide +kernel
    · decide +kernel
    · decide +kernel
    · exact ⟨[], by decide +kernel, by decide +kernel⟩
    · with_unfolding_all rfl
    · with_unfolding_all rfl
  · exact document_congr (by rintro ⟨⟨⟩, -⟩) (by decide +kernel)
  · exact ⟨[⟨false, ["r".toList, "..".toList, "x".toList]⟩, ⟨false, ["r".toList, "..".toList]⟩],
      [⟨false, []⟩], by decide +kernel, by decide +kernel⟩
  · exact ⟨by with_unfolding_all rfl, by with_unfolding_all rfl⟩
  · exact document_congr (by rintro ⟨⟨⟩, -⟩) (by decide +kernel)

end Config

end Untranslated
