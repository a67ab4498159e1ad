import Untranslated.Command

/-!
# The program

The command line tool: it reads the part of the file system that the command line speaks of, runs
the command on it, prints what the run prints and writes what it writes.
-/

namespace Untranslated.Program

/-- The place in the file system of the given names below the root. -/
def entryOf (names : List Text) : IO.FS.DirEntry := ⟨⟨"/"⟩, String.ofList (Text.join ['/'] names)⟩

/-- A file with its bytes, or with the reason why they cannot be read. -/
def readFile (place : IO.FS.DirEntry) : IO FileNode := do
  try
    return .file (.ok (← IO.FS.readBinFile place.path).toList)
  catch e =>
    match e with
    | .permissionDenied .. => return .file (.error .denied)
    | _ => return .file (.error .device)

/-- A file with its content, or the entries of a directory with all that is in them. Directories that
are never entered count as empty. -/
partial def readNode (names : List Text) : IO FileNode := do
  let entry := entryOf names
  if ← entry.path.isDir then
    let entries ← (← entry.path.readDir).toList.mapM fun entry => do
      let name := entry.fileName.toList
      if Collect.excludedDirectories.contains name then
        return (name, if ← entry.path.isDir then FileNode.empty else .file (.ok []))
      else
        return (name, ← readNode (names ++ [name]))
    return .directory entries
  else readFile entry

/-- The tree with what stands at the given names: a file, or the mark of a directory. -/
def addPlace (root : FileNode) (names : List Text) : IO FileNode := do
  let entry := entryOf names
  if ← entry.path.isDir then return FileNode.empty.insert names root
  else if ← entry.path.pathExists then return (← readFile entry).insert names root
  else return root

/-- The tree with all places on the way to a path, and the files beside them that matter for the
configuration. -/
def addWay (workingDirectory : List Text) (root : FileNode) (path : Path) : IO FileNode := do
  let names := if path.absolute then path.parts else workingDirectory ++ path.parts
  (List.range (names.length + 1)).foldlM (fun root n => do
    let here := Path.collapse (names.take n)
    let root ← addPlace root here
    let root ← addPlace root (here ++ [Config.fileName])
    addPlace root (here ++ [Config.topMark])) root

/-- The tree with everything at a path. -/
def addAll (workingDirectory : List Text) (root : FileNode) (path : Path) : IO FileNode := do
  let names := (path.resolve workingDirectory).parts
  let root ← addWay workingDirectory root path
  if ← (entryOf names).path.isDir then return (← readNode names).insert names root
  else return root

/-- The part of the file system that a command line speaks of. -/
def readTree (workingDirectory : List Text) (home userFile : Path) (words : List Text) :
    IO FileTree := do
  let line := (CommandLine.ofWords words).toOption.getD CommandLine.empty
  let homes := [([], home)]
  let others := (line.valuesOf .config ++ line.valuesOf .jsonFile).map Path.ofText
  let root ← line.paths.foldlM (fun root p => addAll workingDirectory root (Path.ofText p))
    FileNode.empty
  let expanded := others.filterMap (Path.expandHome? homes)
  let root ← (userFile :: others ++ expanded).foldlM (addWay workingDirectory) root
  let root ← addWay workingDirectory root ⟨false, []⟩
  return ⟨root, workingDirectory, homes⟩

/-- The last words of a run that has no exit code of its own, and the code it exits with. -/
def finish : Ending → Text × UInt32
  | .exit code => ([], code.toUInt32)
  | .usage e => ("Error: ".toList ++ e.message ++ ['\n'], 2)
  | .failure (.file e) => (e.message ++ ['\n'], 1)
  | .failure (.config e) => (e.message ++ ['\n'], 1)
  | .failure (.lint e) => (e.message ++ ['\n'], 1)

end Untranslated.Program

open Untranslated Program in
/-- Runs the command on the words of the command line. -/
def main (args : List String) : IO UInt32 := do
  let words := args.map String.toList
  let workingDirectory := (Path.ofText (← IO.currentDir).toString.toList).parts
  let home := Path.ofText ((← IO.getEnv "HOME").getD "/").toList
  let userFile : Path := { home with parts := home.parts ++ Config.userFileBelowHome }
  let tree ← readTree workingDirectory home userFile words
  let stdout ← IO.getStdout
  let stderr ← IO.getStderr
  let outcome := Command.run tree userFile (← stdout.isTty) words
  stdout.putStr (String.ofList outcome.output)
  stdout.flush
  stderr.putStr (String.ofList outcome.messages)
  match outcome.written with
  | none => pure ()
  | some (path, content) =>
    let names := (path.resolve workingDirectory).parts
    IO.FS.writeFile (entryOf names).path (String.ofList content)
  let (lastWords, code) := finish outcome.ending
  stderr.putStr (String.ofList lastWords)
  return code
