import Untranslated.Files.Path
import Untranslated.Text.Quoted
import Untranslated.Text.Utf8

/-!
# File trees

The files that the program sees, as a value. Looking up a path follows its names one by one from
the root or from the working directory; only directories can be entered, and all of them can. A file
that is there need not be readable.
-/

namespace Untranslated

/-- Why a file cannot be read. -/
inductive ReadFailure where
  /-- It may not be opened. -/
  | denied
  /-- It can be opened, but its device does not yield the bytes. -/
  | device
  deriving DecidableEq, Repr, Inhabited

/-- What a file holds: its bytes, or why they cannot be read. -/
abbrev FileContent := Except ReadFailure (List UInt8)

/-- A file with its content, or a directory with its named entries. -/
inductive FileNode where
  | file (content : FileContent)
  | directory (entries : List (Text × FileNode))
  deriving Repr, Inhabited

namespace FileNode

/-- An empty directory. -/
def empty : FileNode := .directory []

/-- The entries of a directory with one replaced or added. -/
def putEntry (name : Text) (node : FileNode) :
    List (Text × FileNode) → List (Text × FileNode)
  | [] => [(name, node)]
  | e :: es => if e.1 = name then (name, node) :: es else e :: putEntry name node es

/-- The tree with a node at the given names below it; directories on the way are made. An empty
directory does not replace a directory. -/
def insert (node : FileNode) : List Text → FileNode → FileNode
  | [], .directory entries =>
    match node with
    | .directory [] => .directory entries
    | _ => node
  | [], .file _ => node
  | name :: names, .directory entries =>
    .directory (putEntry name (insert node names ((entries.lookup name).getD empty)) entries)
  | name :: names, .file _ => .directory [(name, insert node names empty)]

end FileNode

/-- A file tree, the working directory in it, and the home directories by the names of the accounts;
the empty name is that of the current account. -/
structure FileTree where
  root : FileNode
  workingDirectory : List Text
  homes : List (Text × Path)
  deriving Repr, Inhabited

/-- Why a file could not be opened, read or written. -/
inductive FileError where
  | notFound (path : Text)
  | isDirectory (path : Text)
  | notDirectory (path : Text)
  /-- The file may not be opened. -/
  | denied (path : Text)
  /-- The file is open, but reading or writing it fails. -/
  | device
  /-- The path or a name in it has too many bytes. -/
  | nameTooLong (path : Text)
  /-- The path holds a NUL character. -/
  | nullByte
  deriving DecidableEq, Repr

/-- The wording of a failure to open, read or write a file. -/
def FileError.message : FileError → Text
  | .notFound p => "[Errno 2] No such file or directory: ".toList ++ Text.quoted p
  | .isDirectory p => "[Errno 21] Is a directory: ".toList ++ Text.quoted p
  | .notDirectory p => "[Errno 20] Not a directory: ".toList ++ Text.quoted p
  | .denied p => "[Errno 13] Permission denied: ".toList ++ Text.quoted p
  | .device => "[Errno 5] Input/output error".toList
  | .nameTooLong p => "[Errno 36] File name too long: ".toList ++ Text.quoted p
  | .nullByte => "embedded null byte".toList

/-- The error of a file at the given path that cannot be read. -/
def ReadFailure.error (path : Text) : ReadFailure → FileError
  | .denied => .denied path
  | .device => .device

namespace FileTree

/-- The most bytes of a name. -/
def nameLimit : Nat := 255

/-- The most bytes of a path. -/
def pathLimit : Nat := 4095

/-- How many bytes a text takes. -/
def byteCount (s : Text) : Nat := (Utf8.encode s).length

/-- Follows names from the innermost of the given nodes, the others being the directories around
it. The error says whether a name was missing or a file was to be entered. -/
def follow (path : Text) : List Text → List FileNode → Except FileError FileNode
  | [], node :: _ => .ok node
  | _, [] => .error (.notFound path)
  | name :: names, node :: outer =>
    match node with
    | .file _ => .error (.notDirectory path)
    | .directory entries =>
      if name.isEmpty || name = ['.'] then follow path names (node :: outer)
      else if name = ['.', '.'] then
        follow path names (if outer.isEmpty then [node] else outer)
      else if nameLimit < byteCount name then .error (.nameTooLong path)
      else
        match entries.lookup name with
        | none => .error (.notFound path)
        | some inner => follow path names (inner :: node :: outer)

/-- The directories from the working directory outwards. -/
def workingDirectories (t : FileTree) : List FileNode :=
  t.workingDirectory.foldl (fun stack name =>
    match stack with
    | .directory entries :: _ =>
      match entries.lookup name with
      | some inner => inner :: stack
      | none => stack
    | _ => stack) [t.root]

/-- What a path given as text leads to. -/
def open? (t : FileTree) (path : Text) : Except FileError FileNode :=
  if path.contains (Char.ofNat 0) then .error .nullByte
  else if path.isEmpty then .error (.notFound path)
  else if pathLimit < byteCount path then .error (.nameTooLong path)
  else if Text.startsWith ['/'] path then follow path (Text.splitOn '/' path) [t.root]
  else follow path (Text.splitOn '/' path) t.workingDirectories

/-- The bytes of the file at a path given as text. -/
def readFile (t : FileTree) (path : Text) : Except FileError (List UInt8) :=
  match t.open? path with
  | .error e => .error e
  | .ok (.directory _) => .error (.isDirectory path)
  | .ok (.file content) => content.mapError (ReadFailure.error path)

/-- What a path leads to, if it leads anywhere; only a path that is too long to be looked up is an
error. -/
def lookUp (t : FileTree) (p : Path) : Except FileError (Option FileNode) :=
  match t.open? p.text with
  | .ok node => .ok (some node)
  | .error (.nameTooLong path) => .error (.nameTooLong path)
  | .error _ => .ok none

/-- The content of the file at a path, if there is a file. -/
def file? (t : FileTree) (p : Path) : Except FileError (Option FileContent) :=
  (t.lookUp p).map fun
    | some (.file content) => some content
    | _ => none

/-- Whether a file can be written at a path: its directory exists, and the path is no directory and
no file that cannot even be read. -/
def writable (t : FileTree) (p : Path) : Except FileError Unit :=
  match t.open? p.text with
  | .ok (.directory _) => .error (.isDirectory p.text)
  | .ok (.file content) => (content.mapError (ReadFailure.error p.text)).map fun _ => ()
  | .error (.notFound path) =>
    match t.open? p.parent.text with
    | .ok (.directory _) => .ok ()
    | _ => .error (.notFound path)
  | .error e => .error e

end FileTree

end Untranslated
