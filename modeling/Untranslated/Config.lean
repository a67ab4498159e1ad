import Untranslated.Files.Tree
import Untranslated.Options
import Untranslated.Yaml.Document

/-!
# Configuration files

Options may be set in two files: one of the project, found in the scanned directory or above it, and
one of the user. Both hold a `lint` section. What the project sets counts more than what the user
sets, name by name, and an explicitly given file replaces both.
-/

namespace Untranslated

/-- The entries of a mapping in a configuration file. -/
abbrev Entries := List (Value × Value)

/-- What configuration files set; `none` leaves the built-in default. -/
structure Config where
  attributes : Option (List Text)
  delimiters : Option Delimiters
  ignoredTags : Option (List Text)
  /-- Globs of the files to take. -/
  included : List Text
  /-- Globs of the files and directories to leave out. -/
  excluded : List Text
  /-- The project's file, or the explicitly given one, if it counted. -/
  projectFile : Option Text
  /-- The user's file, if it counted. -/
  userFile : Option Text
  deriving DecidableEq, Repr, Inhabited

/-- Why no configuration can be had. -/
inductive ConfigError where
  /-- A configuration file holds something that no value can be made of. -/
  | fault (e : Yaml.Fault)
  /-- A setting is unusable. -/
  | options (e : OptionsError)
  /-- The configuration is no mapping but a value of the named type. -/
  | notMapping (typeName : Text)
  /-- A path begins in the home directory of an unknown account. -/
  | noHome
  /-- A path cannot be looked up. -/
  | file (e : FileError)
  deriving DecidableEq, Repr

/-- The wording for a configuration that cannot be had. -/
def ConfigError.message : ConfigError → Text
  | .fault e => e.message
  | .options e => e.message
  | .notMapping name => ['\''] ++ name ++ "' object has no attribute 'get'".toList
  | .noHome => "Could not determine home directory.".toList
  | .file e => e.message

namespace Config

/-- The name of a project's configuration file. -/
def fileName : Text := ".i18nlint.yml".toList

/-- The path of the user's configuration file below the home directory. -/
def userFileBelowHome : List Text := [".i18nlint".toList, "config.yml".toList]

/-- What marks the top directory of a project. -/
def topMark : Text := ".git".toList

/-- The name of the section that is read. -/
def sectionName : Text := "lint".toList

/-- The names of the settings in the section. -/
def settingNames : List Text :=
  ["attributes", "template_delimiters", "ignore_tags", "include", "exclude"].map String.toList

/-- The `lint` section of a configuration, empty if there is none or if it is no mapping. A
configuration that holds nothing has none. -/
def lintSection (raw : Value) : Except ConfigError Entries :=
  if !raw.isSomething then .ok []
  else
    match raw with
    | .map entries => .ok (((Value.lookup? sectionName entries).map Value.entries).getD [])
    | v => .error (.notMapping v.typeName)

/-- The list of texts set under a name; nothing is set by null. -/
def texts? (name : String) (entries : Entries) : Except ConfigError (Option (List Text)) :=
  match Value.lookup? name.toList entries with
  | none | some .null => .ok none
  | some v => ((Options.texts v).map some).mapError .options

/-- The delimiters that the entries set; an unusable value sets none. -/
def delimiters? (entries : Entries) : Option Delimiters :=
  match Value.lookup? "template_delimiters".toList entries with
  | none => none
  | some v => match Options.delimitersOf v with
    | .ok d => d
    | .error _ => none

/-- What the entries of a `lint` section set. -/
def ofSection (entries : Entries) : Except ConfigError Config := do
  let attributes ← texts? "attributes" entries
  let ignoredTags ← texts? "ignore_tags" entries
  let included ← texts? "include" entries
  let excluded ← texts? "exclude" entries
  return ⟨attributes, delimiters? entries, ignoredTags, included.getD [], excluded.getD [], none,
    none⟩

/-- What a configuration sets. -/
def ofValue (raw : Value) : Except ConfigError Config := do ofSection (← lintSection raw)

/-- What the configurations of the project and of the user set together. -/
def ofValues (project user : Value) : Except ConfigError Config := do
  let user ← lintSection user
  let project ← lintSection project
  ofSection (project ++ user)

/-- The options of a scan, with the defaults for what is not set. -/
def toOptions (c : Config) : Options :=
  ⟨c.attributes.getD Options.defaultAttributes, c.delimiters,
    c.ignoredTags.getD Options.defaultIgnoredTags⟩

/-! ## Files -/

/-- What a configuration file holds. -/
structure Contents where
  /-- Whether it holds anything at all. -/
  isEmpty : Bool
  /-- The settings of its `lint` section. -/
  settings : Entries
  deriving Repr, Inhabited

/-- The place of the entry whose key is the given string. -/
def placeOf? (name : Text) (entries : List (Value × Yaml.Ref)) : Option Yaml.Ref :=
  entries.findSome? fun
    | (.string k, r) => if k = name then some r else none
    | _ => none

/-- What a document holds as a configuration file; nothing if it is no mapping. Only the values of
settings are looked at. -/
def Contents.ofDocument? (d : Yaml.Document) : Option Contents := do
  let entries ← d.entries? d.root
  let inner := ((placeOf? sectionName entries).bind d.entries?).getD []
  some ⟨entries.isEmpty, settingNames.filterMap fun name =>
    (placeOf? name inner).map fun r => (.string name, d.items r)⟩

/-- The document in the configuration file at a path, the path beginning in a home directory if it
says so. A file that is missing or unreadable holds none. -/
def document (t : FileTree) (p : Path) : Except ConfigError (Option Yaml.Document) :=
  match p.expandHome? t.homes with
  | none => .error .noHome
  | some p =>
    match t.file? p with
    | .error e => .error (.file e)
    | .ok content =>
      match (content.bind Except.toOption).bind Utf8.decode? with
      | none => .ok none
      | some s =>
        match Yaml.parse (Text.unifyBreaks s) with
        | .ok d => .ok (some d)
        | .error .malformed => .ok none
        | .error (.fault e) => .error (.fault e)

/-- What the configuration file at a path holds. A file that is missing, unreadable or no mapping
holds nothing. -/
def contents (t : FileTree) (p : Path) : Except ConfigError (Option Contents) :=
  (document t p).map (·.bind Contents.ofDocument?)

/-- The settings in a file, none if it holds nothing. -/
def settingsOf (c : Option Contents) : Entries := (c.map (·.settings)).getD []

/-- The directories up to the first one that is marked as the top of a project. -/
def upToTop (t : FileTree) : List Path → Except FileError (List Path)
  | [] => .ok []
  | d :: outer => do
    let mark ← t.lookUp (d.child topMark)
    if mark.isSome then return [d] else return d :: (← upToTop t outer)

/-- The first of the paths that leads to a file. -/
def firstFile? (t : FileTree) : List Path → Except FileError (Option Path)
  | [] => .ok none
  | p :: ps => do
    let content ← t.file? p
    if content.isSome then return some p else firstFile? t ps

/-- The configuration file of the project that a file or directory belongs to: the nearest one in
its directory or above, up to the top directory of the project. -/
def find? (t : FileTree) (p : Path) : Except FileError (Option Path) := do
  let content ← t.file? p
  let start := if content.isSome then p.parent else p
  let searched ← upToTop t (start :: start.parents)
  firstFile? t (searched.map (·.child fileName))

/-- The configuration of an explicitly given file. -/
def ofFile (t : FileTree) (path : Text) : Except ConfigError Config := do
  let c ← contents t (Path.ofText path)
  let config ← ofSection (settingsOf c)
  return { config with projectFile := if c.isSome then some path else none }

/-- The configuration for a path from the files of its project and of the user. -/
def ofPath (t : FileTree) (userFile : Path) (path : Option Path) : Except ConfigError Config := do
  let user ← contents t userFile
  let projectFile ← match path with
    | none => pure none
    | some p => (find? t p).mapError .file
  let project ← match projectFile with
    | none => pure none
    | some p => contents t p
  let config ← ofSection (settingsOf project ++ settingsOf user)
  return { config with
    projectFile := if project.isSome then projectFile.map Path.text else none
    userFile := if user.any fun c => !c.isEmpty then some userFile.text else none }

/-- The configuration for a path, or that of an explicitly given file. -/
def load (t : FileTree) (userFile : Path) (path : Option Path) (explicit : Option Text) :
    Except ConfigError Config :=
  match explicit with
  | some p => ofFile t p
  | none => ofPath t userFile path

end Config

end Untranslated
