import Untranslated.Text.Basic

/-!
# Command lines

The words of a command line, told apart into options and paths. Options may stand anywhere before a
lone double dash. A long option takes its value from behind an equals sign or from the next word;
short options may share a word, and one with a value takes what is left of it or the next word.

The rules and the messages are those of the releases of click that put the name of an unknown option
in quotes.
-/

namespace Untranslated

/-- An option with a value. -/
inductive Setting where
  | attributes
  | delimiters
  | ignoredTags
  | format
  | jsonFile
  | exclude
  | config
  deriving DecidableEq, Repr, Inhabited

/-- An option without a value. -/
inductive Flag where
  | warnOnly
  | color
  | noColor
  | verbose
  deriving DecidableEq, Repr, Inhabited

/-- An option of the command. -/
inductive CommandOption where
  | setting (s : Setting)
  | flag (f : Flag)
  deriving DecidableEq, Repr, Inhabited

namespace CommandOption

/-- The long names of the options. -/
def longNames : List (Text × CommandOption) :=
  [("--attributes", .setting .attributes), ("--template-delimiters", .setting .delimiters),
   ("--ignore-tags", .setting .ignoredTags), ("--format", .setting .format),
   ("--json-out", .setting .jsonFile), ("--exclude", .setting .exclude),
   ("--config", .setting .config), ("--warn-only", .flag .warnOnly), ("--color", .flag .color),
   ("--no-color", .flag .noColor), ("--verbose", .flag .verbose)].map
    fun (name, o) => (String.toList name, o)

/-- The short names of the options. -/
def shortNames : List (Char × CommandOption) :=
  [('a', .setting .attributes), ('t', .setting .delimiters), ('i', .setting .ignoredTags),
   ('v', .flag .verbose)]

end CommandOption

/-- What is wrong with the words of a command line. -/
inductive WordError where
  | unknownOption (name : Text)
  | missingValue (name : Text)
  | unwantedValue (name : Text)
  deriving DecidableEq, Repr

/-- An option as it was given. -/
inductive Given where
  | setting (s : Setting) (value : Text)
  | flag (f : Flag)
  deriving DecidableEq, Repr, Inhabited

/-- A command line: the given options and the paths, each in order. -/
structure CommandLine where
  given : List Given
  paths : List Text
  deriving DecidableEq, Repr, Inhabited

namespace CommandLine

/-- The command line that nothing is given on. -/
def empty : CommandLine := ⟨[], []⟩

/-- The options of a word, and the option whose value is the next word, with its name. -/
structure WordOptions where
  given : List Given
  waiting : Option (Text × Setting)
  deriving DecidableEq, Repr, Inhabited

/-- The options of a word of short names, without its dash. -/
def ofShortNames : Text → Except WordError WordOptions
  | [] => .ok ⟨[], none⟩
  | c :: rest =>
    match CommandOption.shortNames.lookup c with
    | none => .error (.unknownOption ['-', c])
    | some (.flag f) => do
      let more ← ofShortNames rest
      return { more with given := .flag f :: more.given }
    | some (.setting s) =>
      .ok (if rest.isEmpty then ⟨[], some (['-', c], s)⟩ else ⟨[.setting s rest], none⟩)

/-- The options of a word that begins with a dash. -/
def ofWord (word : Text) : Except WordError WordOptions :=
  let (name, value) := match Text.cutAt? '=' word with
    | some (name, value) => (name, some value)
    | none => (word, none)
  match CommandOption.longNames.lookup name, value with
  | some (.setting s), some v => .ok ⟨[.setting s v], none⟩
  | some (.setting s), none => .ok ⟨[], some (name, s)⟩
  | some (.flag f), none => .ok ⟨[.flag f], none⟩
  | some (.flag _), some _ => .error (.unwantedValue name)
  | none, _ =>
    if Text.startsWith ['-', '-'] word then .error (.unknownOption name)
    else ofShortNames (word.drop 1)

/-- Whether a word gives options: it begins with a dash and is not just a dash. -/
def isOptionWord (word : Text) : Bool := Text.startsWith ['-'] word && word != ['-']

/-- The command line with more options in front. -/
def addGiven (given : List Given) (line : CommandLine) : CommandLine :=
  { line with given := given ++ line.given }

/-- The command line with one more path in front. -/
def addPath (path : Text) (line : CommandLine) : CommandLine :=
  { line with paths := path :: line.paths }

/-- The command line of the given words. -/
def ofWords : List Text → Except WordError CommandLine
  | [] => .ok empty
  | word :: rest =>
    if word = ['-', '-'] then .ok ⟨[], rest⟩
    else if isOptionWord word then
      match ofWord word with
      | .error e => .error e
      | .ok ⟨given, none⟩ => (ofWords rest).map (addGiven given)
      | .ok ⟨given, some (name, s)⟩ =>
        match rest with
        | [] => .error (.missingValue name)
        | value :: rest => (ofWords rest).map (addGiven (given ++ [.setting s value]))
    else (ofWords rest).map (addPath word)

/-- The values given for a setting, in order. -/
def valuesOf (line : CommandLine) (s : Setting) : List Text :=
  line.given.filterMap fun
    | .setting s' v => if s' = s then some v else none
    | .flag _ => none

/-- The value of a setting; of several the last one counts. -/
def valueOf? (line : CommandLine) (s : Setting) : Option Text := (line.valuesOf s).getLast?

/-- The settings that are given, in the order of their first values. -/
def settings (line : CommandLine) : List Setting :=
  (line.given.filterMap fun
    | .setting s _ => some s
    | .flag _ => none).eraseDups

/-- Whether a flag is given. -/
def has (line : CommandLine) (f : Flag) : Bool := line.given.contains (.flag f)

/-- Whether styles are wanted: they are unless the last flag about them says otherwise. -/
def wantsColor (line : CommandLine) : Bool :=
  match (line.given.filter fun g => g == .flag .color || g == .flag .noColor).getLast? with
  | some (.flag .noColor) => false
  | _ => true

end CommandLine

end Untranslated
