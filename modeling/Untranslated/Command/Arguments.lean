import Untranslated.Command.Line
import Untranslated.Files.Tree
import Untranslated.Options
import Untranslated.Text.Case

/-!
# Arguments of the command

A command line with its values checked. The settings are checked in the order in which they are
given, the paths after them.
-/

namespace Untranslated

/-- The form of a report. -/
inductive Format where
  | text
  | json
  deriving DecidableEq, Repr, Inhabited

namespace Format

/-- The names of the forms. -/
def names : List (Text × Format) := [("text".toList, .text), ("json".toList, .json)]

/-- Whether two texts have the same letters, of either case. -/
def sameLetters (a b : Text) : Bool :=
  a.length == b.length && (a.zip b).all fun (x, y) => Text.sameLetter x y

/-- The form of the given name. -/
def ofName? (name : Text) : Option Format :=
  (names.find? fun entry => sameLetters entry.1 name).map (·.2)

end Format

/-- The parameters whose values are paths. -/
inductive PathParameter where
  | paths
  | config
  | jsonFile
  deriving DecidableEq, Repr, Inhabited

namespace PathParameter

/-- The name of the parameter in messages. -/
def name : PathParameter → String
  | .paths => "PATHS..."
  | .config => "--config"
  | .jsonFile => "--json-out"

/-- What a path of the parameter leads to. -/
def noun : PathParameter → String
  | .config => "File"
  | .paths | .jsonFile => "Path"

/-- Whether something must be there. -/
def mustExist : PathParameter → Bool
  | .jsonFile => false
  | .paths | .config => true

/-- Whether it may be a directory. -/
def takesDirectories : PathParameter → Bool
  | .config => false
  | .paths | .jsonFile => true

end PathParameter

/-- What is wrong with a path on the command line. -/
inductive PathFault where
  | missing
  | directory
  | unreadable
  deriving DecidableEq, Repr, Inhabited

/-- The end of the wording of a fault. -/
def PathFault.wording : PathFault → String
  | .missing => " does not exist."
  | .directory => " is a directory."
  | .unreadable => " is not readable."

/-- What is wrong with a command line. -/
inductive UsageError where
  | words (e : WordError)
  | unknownFormat (name : Text)
  | noPaths
  | path (parameter : PathParameter) (fault : PathFault) (path : Text)
  /-- The delimiters given on the command line are unusable. -/
  | delimiters (e : OptionsError)
  deriving DecidableEq, Repr

/-- The wording of what is wrong with the words of a command line. -/
def WordError.message : WordError → Text
  | .unknownOption name => "No such option ".toList ++ Text.quoted name ++ ['.']
  | .missingValue name =>
    "Option ".toList ++ Text.quoted name ++ " requires an argument.".toList
  | .unwantedValue name =>
    "Option ".toList ++ Text.quoted name ++ " does not take a value.".toList

namespace UsageError

/-- The beginning of the wording of an unusable value. -/
def invalidValue (parameter : String) : Text :=
  "Invalid value for '".toList ++ parameter.toList ++ "': ".toList

/-- The wording of a usage error. -/
def message : UsageError → Text
  | .words e => e.message
  | .unknownFormat name =>
    invalidValue "--format" ++ Text.quoted name ++ " is not one of ".toList ++
      Text.join [',', ' '] (Format.names.map fun entry => Text.quoted entry.1) ++ ['.']
  | .noPaths => "Missing argument 'PATHS...'.".toList
  | .path parameter fault p =>
    invalidValue parameter.name ++ parameter.noun.toList ++ [' '] ++ Text.quoted p ++
      fault.wording.toList
  | .delimiters e => invalidValue "--template-delimiters" ++ e.message

end UsageError

/-- Why arguments are refused: a usage error, or a path that cannot even be looked up. -/
inductive ArgumentError where
  | usage (e : UsageError)
  | file (e : FileError)
  deriving DecidableEq, Repr

/-- The checked arguments of a run. -/
structure Arguments where
  /-- The paths to check, as they were given. -/
  paths : List Text
  attributes : Option Text
  delimiters : Option Text
  ignoredTags : Option Text
  format : Format
  /-- The file to write the report for programs to. -/
  jsonFile : Option Text
  /-- Globs of the files and directories to leave out. -/
  excluded : List Text
  /-- The configuration file to use instead of those of the project and the user. -/
  config : Option Text
  /-- Whether findings are only warnings. -/
  warnOnly : Bool
  /-- Whether the report for people uses styles. -/
  color : Bool
  /-- Whether the log is printed. -/
  verbose : Bool
  deriving DecidableEq, Repr, Inhabited

namespace Arguments

/-- Checks a path: something is there, no directory where a file is wanted, and it may be opened. A
path of a file to be written need not lead anywhere. -/
def checkPath (t : FileTree) (parameter : PathParameter) (path : Text) :
    Except ArgumentError Unit :=
  let refuse (fault : PathFault) := .error (.usage (.path parameter fault path))
  match t.open? path with
  | .error .nullByte => .error (.file .nullByte)
  | .error _ => if parameter.mustExist then refuse .missing else .ok ()
  | .ok (.directory _) => if parameter.takesDirectories then .ok () else refuse .directory
  | .ok (.file (.error .denied)) => refuse .unreadable
  | .ok (.file _) => .ok ()

/-- Checks the value of a setting. -/
def checkSetting (t : FileTree) (s : Setting) (value : Text) : Except ArgumentError Unit :=
  match s with
  | .format =>
    if (Format.ofName? value).isSome then .ok () else .error (.usage (.unknownFormat value))
  | .config => checkPath t .config value
  | .jsonFile => checkPath t .jsonFile value
  | _ => .ok ()

/-- Checks the paths, of which there must be one. -/
def checkPaths (t : FileTree) (paths : List Text) : Except ArgumentError Unit :=
  if paths.isEmpty then .error (.usage .noPaths)
  else paths.forM (checkPath t .paths)

/-- The checked arguments of a command line. -/
def ofLine (t : FileTree) (line : CommandLine) : Except ArgumentError Arguments := do
  line.settings.forM fun s => checkSetting t s ((line.valueOf? s).getD [])
  checkPaths t line.paths
  return {
    paths := line.paths
    attributes := line.valueOf? .attributes
    delimiters := line.valueOf? .delimiters
    ignoredTags := line.valueOf? .ignoredTags
    format := ((line.valueOf? .format).bind Format.ofName?).getD .text
    jsonFile := line.valueOf? .jsonFile
    excluded := line.valuesOf .exclude
    config := line.valueOf? .config
    warnOnly := line.has .warnOnly
    color := line.wantsColor
    verbose := line.has .verbose }

/-- The checked arguments of the given words. -/
def ofWords (t : FileTree) (words : List Text) : Except ArgumentError Arguments :=
  match CommandLine.ofWords words with
  | .error e => .error (.usage (.words e))
  | .ok line => ofLine t line

end Arguments

end Untranslated
