import Untranslated.Files.Tree
import Untranslated.Scan

/-!
# Linting a file

Linting reads one file of a tree and scans its text. The path is checked first, then the options,
then the file is opened.
-/

namespace Untranslated

/-- What is given as the path of a file. -/
inductive PathArgument where
  | missing
  /-- A value of the named type, which is no path. -/
  | unusable (typeName : Text)
  | text (path : Text)
  deriving DecidableEq, Repr, Inhabited

/-- Why a path is refused. -/
inductive PathError where
  | undefined
  | wrongType (typeName : Text)
  | empty
  deriving DecidableEq, Repr

/-- The wording of a refused path. -/
def PathError.message : PathError → Text
  | .undefined => "path must be defined".toList
  | .wrongType name => "path must be a string or path-like object, not ".toList ++ name
  | .empty => "path must be a non-empty string".toList

/-- The text of a usable path. -/
def PathArgument.check : PathArgument → Except PathError Text
  | .missing => .error .undefined
  | .unusable name => .error (.wrongType name)
  | .text [] => .error .empty
  | .text p => .ok p

/-- Why a file could not be linted. -/
inductive LintError where
  | path (e : PathError)
  | options (e : OptionsError)
  | file (e : FileError)
  | scan (e : ScanError)
  deriving DecidableEq, Repr

/-- The wording of a failure to lint. -/
def LintError.message : LintError → Text
  | .path e => e.message
  | .options e => e.message
  | .file e => e.message
  | .scan e => e.message

/-- The records of a file and the log of its scan. Bytes that are no characters are replaced, and
one leading byte order mark is dropped. -/
def lintFile (t : FileTree) (path : Text) (options : Options) :
    Except LintError (List Record) × Log :=
  match t.readFile path with
  | .error e => (.error (.file e), [])
  | .ok bytes =>
    let (result, log) := scan (Utf8.dropMark (Utf8.decodeLossy bytes)) path options
    (result.mapError .scan, log)

/-- The records of a file for unchecked arguments. -/
def lint (t : FileTree) (path : PathArgument) (options : Value) : Except LintError (List Record) :=
  match path.check with
  | .error e => .error (.path e)
  | .ok path =>
    match Options.ofValue options with
    | .error e => .error (.options e)
    | .ok options => (lintFile t path options).1

end Untranslated
