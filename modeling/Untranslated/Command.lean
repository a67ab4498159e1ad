import Untranslated.Command.Arguments
import Untranslated.Config
import Untranslated.Files.Collect
import Untranslated.Lint
import Untranslated.Report

/-!
# The command

One run of the command on a file tree: the arguments are checked, the configuration is loaded, the
wanted files are collected and linted, and the report is printed and, if asked for, written to a
file. A run is a function of its input, and what it does to the outside is its `Outcome`.
-/

namespace Untranslated

/-- A failure that ends a run without an exit code of its own. -/
inductive Failure where
  /-- A path cannot be looked up, or the report cannot be written. -/
  | file (e : FileError)
  | config (e : ConfigError)
  | lint (e : LintError)
  deriving DecidableEq, Repr

/-- How a run ends. -/
inductive Ending where
  | exit (code : Nat)
  | usage (e : UsageError)
  | failure (e : Failure)
  deriving DecidableEq, Repr

/-- What a run does. -/
structure Outcome where
  /-- What it prints. -/
  output : Text
  /-- What it prints as errors and notes. -/
  messages : Text
  /-- The file that it writes. -/
  written : Option (Path × Text)
  ending : Ending
  deriving DecidableEq, Repr

namespace Command

/-- The exit code of a run that could not lint a file. -/
def errorCode : Nat := 2

/-- The options of a run: what the command line gives counts more than the configuration. -/
def options (a : Arguments) (c : Config) : Except OptionsError Options := do
  let base := c.toOptions
  let delimiters ← match a.delimiters with
    | some d => Options.delimitersOf (.string d)
    | none => pure base.delimiters
  let texts (given : Option Text) (otherwise : List Text) :=
    (given.map fun s => Options.textList (.string s)).getD otherwise
  return ⟨texts a.attributes base.attributes, delimiters, texts a.ignoredTags base.ignoredTags⟩

/-- The files to lint, path by path. -/
def files (t : FileTree) (a : Arguments) (c : Config) : Except FileError (List Text) := do
  let wanted : Collect.Filter := ⟨c.included, a.excluded ++ c.excluded⟩
  let found ← a.paths.mapM fun p => t.collect (Path.ofText p) wanted
  return found.flatten.map Path.text

/-- What is to be linted, and how. -/
structure Job where
  arguments : Arguments
  options : Options
  files : List Text
  deriving DecidableEq, Repr

/-- The configuration for the first of the paths, seen from the root. -/
def config (t : FileTree) (userFile : Path) (a : Arguments) : Except ConfigError Config :=
  Config.load t userFile
    (a.paths.head?.map fun p => (Path.ofText p).resolve t.workingDirectory) a.config

/-- The job that the words of a command line ask for, or how the run ends without one. -/
def job (t : FileTree) (userFile : Path) (words : List Text) : Except Ending Job :=
  match Arguments.ofWords t words with
  | .error (.usage e) => .error (.usage e)
  | .error (.file e) => .error (.failure (.file e))
  | .ok a =>
    match config t userFile a with
    | .error e => .error (.failure (.config e))
    | .ok c =>
      match options a c with
      | .error e => .error (.usage (.delimiters e))
      | .ok o =>
        match files t a c with
        | .error e => .error (.failure (.file e))
        | .ok fs => .ok ⟨a, o, fs⟩

/-- The records of the files in order, or the first file that could not be linted and why; and the
log up to there. -/
def lintAll (t : FileTree) (o : Options) :
    List Text → Except (Text × LintError) (List Record) × Log
  | [] => (.ok [], [])
  | file :: files =>
    match lintFile t file o with
    | (.error e, log) => (.error (file, e), log)
    | (.ok records, log) =>
      let (more, moreLog) := lintAll t o files
      (more.map (records ++ ·), log ++ moreLog)

/-- Whether a run reports a failure to lint and exits, rather than failing itself. -/
def isReported : LintError → Bool
  | .path _ => true
  | .file .nullByte => false
  | .file _ => true
  | .scan (.locate (.overlong _)) | .scan (.locate (.evidence _)) => false
  | .scan (.locate _) => true
  | .scan (.markup _) => false
  | .options _ => false

/-- A printed line, without styles unless they are kept. -/
def line (keepStyles : Bool) (s : Text) : Text :=
  (if keepStyles then s else Text.plain s) ++ ['\n']

/-- Prints a report and writes it where the job says. -/
def deliver (t : FileTree) (keepStyles : Bool) (a : Arguments) (messages : Text) (r : Report) :
    Outcome :=
  let output := line keepStyles (match a.format with
    | .text => r.text a.color
    | .json => r.json)
  let ending := Ending.exit (r.exitCode a.warnOnly)
  match a.jsonFile with
  | none | some [] => ⟨output, messages, none, ending⟩
  | some name =>
    let path := Path.ofText name
    match t.writable path with
    | .error e => ⟨output, messages, none, .failure (.file e)⟩
    | .ok () =>
      let note := line keepStyles ("JSON report written to ".toList ++ name)
      ⟨output, messages ++ note, some (path, r.json), ending⟩

/-- What a job prints and writes, and how it ends. -/
def perform (t : FileTree) (keepStyles : Bool) (j : Job) : Outcome :=
  let (result, log) := lintAll t j.options j.files
  let messages := if j.arguments.verbose then log.flatMap fun l => l.text ++ ['\n'] else []
  match result with
  | .ok records => deliver t keepStyles j.arguments messages ⟨j.arguments.paths, j.files, records⟩
  | .error (file, e) =>
    if isReported e then
      let note := line keepStyles ("Error: ".toList ++ file ++ [':', ' '] ++ e.message)
      ⟨[], messages ++ note, none, .exit errorCode⟩
    else ⟨[], messages, none, .failure (.lint e)⟩

/-- One run of the command. -/
def run (t : FileTree) (userFile : Path) (keepStyles : Bool) (words : List Text) : Outcome :=
  match job t userFile words with
  | .error ending => ⟨[], [], none, ending⟩
  | .ok j => perform t keepStyles j

end Command

end Untranslated
