import Untranslated.Text.Basic

/-!
# Paths

A path is a list of names, read from the root or from the working directory. Empty names and single
dots vanish when a path is read; double dots stay.
-/

namespace Untranslated

/-- A path with its redundant parts removed. -/
structure Path where
  absolute : Bool
  parts : List Text
  deriving DecidableEq, Repr, Inhabited

namespace Path

/-- The path that a text denotes. -/
def ofText (s : Text) : Path :=
  ⟨Text.startsWith ['/'] s, (Text.splitOn '/' s).filter fun p => !p.isEmpty && p != ['.']⟩

/-- A path as text; the working directory is a single dot. -/
def text (p : Path) : Text :=
  match p.absolute, p.parts with
  | false, [] => ['.']
  | true, parts => '/' :: Text.join ['/'] parts
  | false, parts => Text.join ['/'] parts

/-- The path of something inside a directory. -/
def child (p : Path) (name : Text) : Path := { p with parts := p.parts ++ [name] }

/-- The path one part shorter, the same for a path without parts. -/
def parent (p : Path) : Path := { p with parts := p.parts.dropLast }

/-- The proper beginnings of a list, longest first. -/
def beginnings : List Text → List (List Text)
  | [] => []
  | p :: ps => (beginnings ps).map (p :: ·) ++ [[]]

/-- All shorter paths, longest first. -/
def parents (p : Path) : List Path := (beginnings p.parts).map fun parts => { p with parts }

/-- The names with every double dot resolved against the name before it. -/
def collapse (parts : List Text) : List Text :=
  (parts.foldl (fun stack p => if p = ['.', '.'] then stack.drop 1 else p :: stack) []).reverse

/-- The path from the root, given the working directory. -/
def resolve (workingDirectory : List Text) (p : Path) : Path :=
  ⟨true, collapse (if p.absolute then p.parts else workingDirectory ++ p.parts)⟩

/-- The path with a tilde at its beginning replaced by a home directory: that of the account whose
name follows the tilde, and that of the current account if no name does. There is none for an
unknown account. -/
def expandHome? (homes : List (Text × Path)) (p : Path) : Option Path :=
  match p.absolute, p.parts with
  | false, ('~' :: name) :: rest =>
    (homes.lookup name).map fun home => { home with parts := home.parts ++ rest }
  | _, _ => some p

end Path

/-- The extension of a file name: from its last dot on, unless that dot is its first or last
character. -/
def extension (name : Text) : Text :=
  let tail := name.reverse.takeWhile (· != '.')
  if tail.isEmpty || name.length ≤ tail.length + 1 then [] else '.' :: tail.reverse

end Untranslated
