import Untranslated.Command
import Untranslated.Proofs.Files

/-!
# A run is all or nothing

A run lints the collected files one after the other. Either every file could be linted, and the
report on all of them is printed and written; or the first file that could not is named, and nothing
is reported.

* The paths of checked arguments lead somewhere (`Arguments.opens_of_ofWords`), so the files below
  them are collected (`files_eq_ok`).
* Linting the files gives the records of all of them in order (`lintAll_eq_ok`), or the first
  failure (`lintAll_eq_error`).
* `run_all_or_nothing` says what the run does in both cases.
-/

namespace Untranslated

/-! ## Checked arguments -/

namespace Arguments

/-- A path that must exist and passes its check leads somewhere. -/
theorem opens_of_checkPath {t : FileTree} {parameter : PathParameter} {path : Text}
    (hmust : parameter.mustExist = true) (h : checkPath t parameter path = .ok ()) :
    ∃ node, t.open? path = .ok node := by
  cases hopen : t.open? path with
  | ok node => exact ⟨node, rfl⟩
  | error e => cases e <;> simp [checkPath, hopen, hmust] at h

/-- Every path of checked arguments leads somewhere. -/
theorem opens_of_ofWords {t : FileTree} {words : List Text} {a : Arguments}
    (h : ofWords t words = .ok a) {p : Text} (hp : p ∈ a.paths) : ∃ node, t.open? p = .ok node := by
  unfold ofWords at h
  split at h
  · cases h
  · rename_i line _
    unfold ofLine at h
    obtain ⟨-, -, h⟩ := bind_eq_ok.mp h
    obtain ⟨⟨⟩, hpaths, h⟩ := bind_eq_ok.mp h
    cases h
    unfold checkPaths at hpaths
    split at hpaths
    · cases hpaths
    · exact opens_of_checkPath rfl (forM_eq_ok.mp hpaths p hp)

end Arguments

/-! ## Linting one file after the other -/

/-- The failures to lint that end a run in an orderly way: the path is refused, the file cannot be
opened or read, or a text of it cannot be located. -/
inductive LintError.Reported : LintError → Prop where
  | path (e : PathError) : Reported (.path e)
  | file {e : FileError} (h : e ≠ .nullByte) : Reported (.file e)
  | notFound (value : Text) (offset : Nat) : Reported (.scan (.locate (.notFound value offset)))
  | elementPassed (markup : Text) (offset : Nat) :
    Reported (.scan (.locate (.elementPassed markup offset)))

namespace Command

theorem isReported_of_reported {e : LintError} (h : e.Reported) : isReported e = true := by
  cases h with
  | file h => unfold isReported; split <;> simp_all
  | _ => rfl

/-- The files below paths that lead somewhere. -/
theorem files_eq_ok {t : FileTree} {a : Arguments} (c : Config)
    (h : ∀ p ∈ a.paths, ∃ node, t.open? p = .ok node) :
    ∃ found, List.Forall₂ (fun p fs =>
        t.collect (Path.ofText p) ⟨c.included, a.excluded ++ c.excluded⟩ = .ok fs) a.paths found ∧
      files t a c = .ok (found.flatten.map Path.text) := by
  have hcollect : ∀ p ∈ a.paths, ∃ fs,
      t.collect (Path.ofText p) ⟨c.included, a.excluded ++ c.excluded⟩ = .ok fs := by
    intro p hp
    obtain ⟨node, hnode⟩ := h p hp
    exact FileTree.collect_eq_ok hnode _
  obtain ⟨found, hfound⟩ := exists_forall₂ hcollect
  exact ⟨found, hfound, by simp [files, mapM_eq_ok hfound, bind, Except.bind, pure, Except.pure]⟩

/-- The first file is linted, then the others. -/
theorem lintAll_cons_fst (t : FileTree) (o : Options) (file : Text) (files : List Text) :
    (lintAll t o (file :: files)).1 =
      match (lintFile t file o).1 with
      | .error e => .error (file, e)
      | .ok records => (lintAll t o files).1.map (records ++ ·) := by
  rw [lintAll]
  split <;> simp_all

theorem lintAll_eq_ok {t : FileTree} {o : Options} {files : List Text} {lists : List (List Record)}
    (h : List.Forall₂ (fun f records => (lintFile t f o).1 = .ok records) files lists) :
    (lintAll t o files).1 = .ok lists.flatten := by
  induction h with
  | nil => rfl
  | cons hfile _ ih =>
    rw [lintAll_cons_fst, hfile, ih]
    rfl

theorem lintAll_eq_error {t : FileTree} {o : Options} {before : List Text} {file : Text}
    {e : LintError} (hbefore : ∀ f ∈ before, ∃ records, (lintFile t f o).1 = .ok records)
    (hfile : (lintFile t file o).1 = .error e) (behind : List Text) :
    (lintAll t o (before ++ file :: behind)).1 = .error (file, e) := by
  induction before with
  | nil => rw [List.nil_append, lintAll_cons_fst, hfile]
  | cons f before ih =>
    obtain ⟨⟨records, hf⟩, hbefore⟩ := List.forall_mem_cons.mp hbefore
    rw [List.cons_append, lintAll_cons_fst, hf, ih hbefore]
    rfl

/-! ## One run -/

/-- What a run prints for a report. -/
def rendering (a : Arguments) (r : Report) : Text :=
  match a.format with
  | .text => r.text a.color
  | .json => r.json

/-- The run stops at a file: nothing is reported, and the last message names the file. What was
logged until then is printed only on demand. Styles are taken out unless they are kept. -/
def StopsAt (a : Arguments) (keepStyles : Bool) (file : Text) (e : LintError) (r : Outcome) : Prop :=
  ∃ log note, (a.verbose = false → log = []) ∧
    note = "Error: ".toList ++ file ++ ": ".toList ++ e.message ∧
    r = ⟨[], log ++ ((if keepStyles then note else Text.plain note) ++ ['\n']), none, .exit 2⟩

/-- The run delivers a report: it is printed, written to the file that the arguments name, and
decides the exit code. Styles are taken out of what is printed unless they are kept. -/
def Delivers (a : Arguments) (keepStyles : Bool) (report : Report) (r : Outcome) : Prop :=
  ∃ messages, r =
    ⟨(if keepStyles then rendering a report else Text.plain (rendering a report)) ++ ['\n'], messages,
      (a.jsonFile.filter (· ≠ [])).map fun name => (Path.ofText name, report.json),
      .exit (if report.records ≠ [] ∧ a.warnOnly = false then 1 else 0)⟩

theorem perform_stopsAt {t : FileTree} (keepStyles : Bool) (a : Arguments) {o : Options}
    {files : List Text} {file : Text} {e : LintError} (h : (lintAll t o files).1 = .error (file, e))
    (he : e.Reported) :
    StopsAt a keepStyles file e (perform t keepStyles ⟨a, o, files⟩) := by
  unfold perform
  rcases hlinted : lintAll t o files with ⟨result, log⟩
  rw [hlinted] at h
  cases h
  simp only [isReported_of_reported he, if_true]
  exact ⟨_, _, fun hquiet => by simp [hquiet], rfl, rfl⟩

theorem exitCode_eq (r : Report) (warnOnly : Bool) :
    r.exitCode warnOnly = if r.records ≠ [] ∧ warnOnly = false then 1 else 0 := by
  unfold Report.exitCode
  cases r.records <;> cases warnOnly <;> simp

theorem deliver_delivers {t : FileTree} (keepStyles : Bool) {a : Arguments} (messages : Text)
    (r : Report)
    (hwritable : ∀ name, a.jsonFile = some name → name ≠ [] → t.writable (Path.ofText name) = .ok ()) :
    Delivers a keepStyles r (deliver t keepStyles a messages r) := by
  unfold Delivers deliver
  rw [exitCode_eq]
  rcases hfile : a.jsonFile with _ | name
  · exact ⟨_, rfl⟩
  · cases name with
    | nil => exact ⟨_, rfl⟩
    | cons ch name =>
      simp only [hwritable _ hfile (List.cons_ne_nil ch name)]
      exact ⟨_, rfl⟩

theorem perform_delivers {t : FileTree} (keepStyles : Bool) {a : Arguments} {o : Options}
    {files : List Text} {records : List Record} (h : (lintAll t o files).1 = .ok records)
    (hwritable : ∀ name, a.jsonFile = some name → name ≠ [] → t.writable (Path.ofText name) = .ok ()) :
    Delivers a keepStyles ⟨a.paths, files, records⟩ (perform t keepStyles ⟨a, o, files⟩) := by
  unfold perform
  rcases hlinted : lintAll t o files with ⟨result, log⟩
  rw [hlinted] at h
  cases h
  exact deliver_delivers keepStyles _ _ hwritable

/-- **A run is all or nothing.** Let the arguments, the configuration and the options of a run be
valid and the report, if it is to go to a file, writable there. Then the files below the paths are
collected, path by path. If the first of them that cannot be linted fails in an orderly way, the run
stops at it and reports nothing. If all of them can be linted, the run delivers the report on exactly
their records, in order. -/
theorem run_all_or_nothing {t : FileTree} {userFile : Path} {words : List Text} {a : Arguments}
    {c : Config} {o : Options} (keepStyles : Bool) (harguments : Arguments.ofWords t words = .ok a)
    (hconfig : config t userFile a = .ok c) (hoptions : options a c = .ok o)
    (hwritable : ∀ name, a.jsonFile = some name → name ≠ [] → t.writable (Path.ofText name) = .ok ()) :
    ∃ found, List.Forall₂ (fun p fs =>
        t.collect (Path.ofText p) ⟨c.included, a.excluded ++ c.excluded⟩ = .ok fs) a.paths found ∧
      (∀ before file behind e, found.flatten.map Path.text = before ++ file :: behind →
        (∀ f ∈ before, ∃ records, (lintFile t f o).1 = .ok records) →
        (lintFile t file o).1 = .error e → e.Reported →
        StopsAt a keepStyles file e (run t userFile keepStyles words)) ∧
      ∀ lists, List.Forall₂ (fun f records => (lintFile t f o).1 = .ok records)
          (found.flatten.map Path.text) lists →
        Delivers a keepStyles ⟨a.paths, found.flatten.map Path.text, lists.flatten⟩
          (run t userFile keepStyles words) := by
  obtain ⟨found, hfound, hfiles⟩ := files_eq_ok c fun p hp => Arguments.opens_of_ofWords harguments hp
  have hrun : run t userFile keepStyles words =
      perform t keepStyles ⟨a, o, found.flatten.map Path.text⟩ := by
    simp [run, job, harguments, hconfig, hoptions, hfiles]
  refine ⟨found, hfound, ?_, ?_⟩
  · intro before file behind e hsplit hbefore hfile he
    rw [hrun, hsplit]
    exact perform_stopsAt keepStyles a (lintAll_eq_error hbefore hfile behind) he
  · intro lists hlists
    rw [hrun]
    exact perform_delivers keepStyles (lintAll_eq_ok hlists) hwritable

/-- A file with a finding, and behind it a directory with a file that may not be opened: the run reports
nothing. -/
theorem run_all_or_nothing_denied :
    ∃ t userFile words a, Arguments.ofWords t words = .ok a ∧
      a.paths = ["a.html".toList, "d".toList] ∧ a.jsonFile = some "r.json".toList ∧
      run t userFile false words =
        ⟨[], "Error: d/b.html: [Errno 13] Permission denied: 'd/b.html'\n".toList, none, .exit 2⟩ := by
  let t : FileTree := ⟨.directory [("a.html".toList, .file (.ok (Utf8.encode "<p>x</p>".toList))),
    ("d".toList, .directory [("b.html".toList, .file (.error .denied))])], [], []⟩
  let words := ["a.html".toList, "d".toList, "--json-out".toList, "r.json".toList]
  let a : Arguments := ⟨["a.html".toList, "d".toList], none, none, none, .text,
    some "r.json".toList, [], none, false, true, false⟩
  have harguments : Arguments.ofWords t words = .ok a := by decide +kernel
  have hwritable : ∀ name, a.jsonFile = some name → name ≠ [] →
      t.writable (Path.ofText name) = .ok () := by
    rintro name ⟨⟩ -
    decide +kernel
  have hlinted : ∃ records, (lintFile t "a.html".toList Options.default).1 = .ok records := by
    have hok : (lintFile t "a.html".toList Options.default).1.isOk = true := by decide +kernel
    rcases h : (lintFile t "a.html".toList Options.default).1 with e | records
    · rw [h] at hok
      cases hok
    · exact ⟨records, rfl⟩
  obtain ⟨found, hfound, hstops, -⟩ := @run_all_or_nothing t ⟨false, []⟩ words a
    ⟨none, none, none, [], [], none, none⟩ Options.default false harguments (by decide +kernel)
    (by decide +kernel) hwritable
  have hmapM : a.paths.mapM (fun p => t.collect (Path.ofText p) ⟨[], []⟩) =
      .ok [[⟨false, ["a.html".toList]⟩], [⟨false, ["d".toList, "b.html".toList]⟩]] := by
    decide +kernel
  cases (mapM_eq_ok hfound).symm.trans hmapM
  obtain ⟨log, note, hlog, rfl, hrun⟩ := hstops ["a.html".toList] "d/b.html".toList []
    (.file (.denied "d/b.html".toList)) (by decide +kernel) (by simpa using hlinted)
    (by decide +kernel) (.file (by simp))
  refine ⟨t, ⟨false, []⟩, words, a, harguments, rfl, rfl, ?_⟩
  rw [hrun, hlog rfl]
  decide +kernel

/-- A text that cannot be located ends a run in the same way. -/
example : run ⟨.directory [("a.html".toList, .file (.ok (Utf8.encode "<p>&#65;</p>".toList)))], [], []⟩
    ⟨false, []⟩ false ["a.html".toList] =
      ⟨[], "Error: a.html: could not locate 'A' at or after offset 3\n".toList, none, .exit 2⟩ := by
  decide +kernel

end Command

end Untranslated
