import Untranslated.Finding
import Untranslated.Json.Writer
import Untranslated.Text.Styled

/-!
# Reports

What a run found, written for people (`text`) or for programs (`document`), and the exit code that
tells whether something was found.
-/

namespace Untranslated

/-- What a run found. -/
structure Report where
  /-- The paths that were to be checked. -/
  paths : List Text
  /-- The files that were checked. -/
  files : List Text
  records : List Record
  deriving DecidableEq, Repr, Inhabited

/-- A record as a JSON value; the evidence is given as a search pattern. -/
def Record.document (r : Record) : Json :=
  let f := r.finding
  .object [("file".toList, .string r.file),
    ("error".toList, .object [("id".toList, .string f.id), ("code".toList, .string f.code),
      ("reason".toList, .string f.reason), ("evidence".toList, .string f.pattern),
      ("line".toList, .int f.line), ("character".toList, .int f.character),
      ("scope".toList, .string f.scope)])]

namespace Report

/-- The files with findings, in the order of their first ones. -/
def filesWithFindings (r : Report) : List Text := (r.records.map Record.file).eraseDups

/-- The records of a file. -/
def recordsOf (r : Report) (file : Text) : List Record := r.records.filter (·.file == file)

/-- The number of findings of a kind. -/
def count (r : Report) (kind : CandidateKind) : Nat :=
  r.records.countP (·.finding.code == kind.code)

/-! ## The report for people -/

/-- The two lines of a finding: where and what it is, and the source around it. The numbers are places
in a text, which never have more digits than are written. -/
def findingLines (styles : Bool) (f : Finding) : List Text :=
  let place := "line ".toList ++ Text.ofInt f.line ++ ", col ".toList ++ Text.ofInt f.character
  [[' ', ' '] ++ Text.padRight 20 place ++ [' '] ++ Text.styled styles .yellow f.code ++
      [' ', ' '] ++ f.reason,
    List.replicate 4 ' ' ++ Text.styled styles .grey f.scope]

/-- The lines of a file: its name, its findings and an empty line. -/
def fileLines (r : Report) (styles : Bool) (file : Text) : List Text :=
  Text.styled styles .bold file ::
    (r.recordsOf file).flatMap (fun record => findingLines styles record.finding) ++ [[]]

/-- The lines that sum up the report. -/
def summaryLines (r : Report) : List Text :=
  let fileCount := Text.ofNat r.files.length ++ " file(s)".toList
  if r.records.isEmpty then ["No hardcoded strings in ".toList ++ fileCount ++ ['.']]
  else
    [List.replicate 60 '-',
      Text.ofNat r.records.length ++ " hardcoded string(s) in ".toList ++
        Text.ofNat r.filesWithFindings.length ++ " of ".toList ++ fileCount ++ [':', ' '] ++
        Text.ofNat (r.count .text) ++ " text, ".toList ++
        Text.ofNat (r.count .attribute) ++ " attribute".toList]

/-- The report for people, file by file and then summed up. -/
def text (r : Report) (styles : Bool) : Text :=
  Text.join ['\n'] (r.filesWithFindings.flatMap (r.fileLines styles) ++ r.summaryLines)

/-! ## The report for programs -/

/-- The name of the tool. -/
def tool : Text := "i18n-lint".toList

/-- The version of the tool. -/
def version : Text := "0.1.0".toList

/-- The report as a JSON value, records in the order in which they were found. -/
def document (r : Report) : Json :=
  .object [("tool".toList, .string tool), ("version".toList, .string version),
    ("paths".toList, .array (r.paths.map .string)),
    ("summary".toList, .object [("files".toList, .nat r.files.length),
      ("files_with_errors".toList, .nat r.filesWithFindings.length),
      ("total".toList, .nat r.records.length), ("text".toList, .nat (r.count .text)),
      ("attribute".toList, .nat (r.count .attribute))]),
    ("errors".toList, .array (r.records.map Record.document))]

/-- The report for programs, if its numbers can be written. -/
def json? (r : Report) : Except OverlongInteger Text := r.document.pretty

/-- The report for programs of a run. The numbers in it count files, records, lines and characters that
the run had at hand, so they never have more digits than are written, and this is what `json?` gives
(`json?_eq_ok`). -/
def json (r : Report) : Text := r.document.prettyAt 0

/-! ## The exit code -/

/-- The exit code: one if something was found, unless findings are only warnings. -/
def exitCode (r : Report) (warnOnly : Bool) : Nat :=
  if warnOnly || r.records.isEmpty then 0 else 1

end Report

end Untranslated
