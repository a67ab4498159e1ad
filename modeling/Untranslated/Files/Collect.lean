import Untranslated.Files.Glob
import Untranslated.Files.Tree
import Untranslated.Text.Case

/-!
# Collecting files

The markup files below a directory. Directories that are excluded by name are not entered. The stack is
taken to be as deep as the tree, though a walk may run out of it at about a thousand levels.
-/

namespace Untranslated

namespace Collect

/-- Directories that are never entered. -/
def excludedDirectories : List Text :=
  [".git", "node_modules", "dist", "build", ".venv", "venv", "__pycache__"].map String.toList

/-- The extensions of markup files. -/
def markupExtensions : List Text :=
  [".html", ".htm", ".xhtml", ".ejs", ".hbs", ".handlebars", ".mustache", ".njk", ".jinja",
   ".jinja2", ".j2", ".erb", ".tpl", ".twig", ".vue"].map String.toList

/-- Which files are wanted. -/
structure Filter where
  /-- Globs of the files to take; empty means the markup files. -/
  included : List Text
  /-- Globs of the files and directories to leave out. -/
  excluded : List Text
  deriving DecidableEq, Repr, Inhabited

/-- Whether a directory of the given name is entered. -/
def Filter.enters (f : Filter) (name : Text) : Bool :=
  !excludedDirectories.contains name && !Glob.anyMatches f.excluded name

/-- Whether a file is wanted, by its path below the root and its name. -/
def Filter.wants (f : Filter) (relative name : Text) : Bool :=
  !(Glob.anyMatches f.excluded relative || Glob.anyMatches f.excluded name) &&
    if f.included.isEmpty then markupExtensions.contains (Text.lower (extension name))
    else Glob.anyMatches f.included relative || Glob.anyMatches f.included name

mutual

/-- The wanted files in the entries of a directory, each as its names below the root; `below` are
the names of the directory itself. -/
def fromEntries (f : Filter) (below : List Text) : List (Text × FileNode) → List (List Text)
  | [] => []
  | (name, node) :: rest => fromNode f below name node ++ fromEntries f below rest

/-- The wanted files in one entry of a directory. -/
def fromNode (f : Filter) (below : List Text) (name : Text) : FileNode → List (List Text)
  | .file _ =>
    let parts := below ++ [name]
    if f.wants (Text.join ['/'] parts) name then [parts] else []
  | .directory entries => if f.enters name then fromEntries f (below ++ [name]) entries else []

end

/-- Order of paths name by name. -/
def partsLe : List Text → List Text → Bool
  | [], _ => true
  | _ :: _, [] => false
  | a :: as, b :: bs => if a = b then partsLe as bs else Text.le a b

end Collect

/-- The wanted files at a path: the path itself if it is a file, else the wanted files below it. -/
def FileTree.collect (t : FileTree) (root : Path) (f : Collect.Filter) :
    Except FileError (List Path) :=
  (t.lookUp root).map fun
    | none => []
    | some (.file _) => [root]
    | some (.directory entries) =>
      ((Collect.fromEntries f [] entries).mergeSort Collect.partsLe).map fun parts =>
        { root with parts := root.parts ++ parts }

end Untranslated
