import Untranslated.Source.Mask
import Untranslated.Value

/-!
# Options

What a scan checks, and how option values of any shape are read. A missing option means the
built-in default, an explicit empty list turns the check off.
-/

namespace Untranslated

/-- What a scan checks. -/
structure Options where
  /-- The attributes to check. -/
  attributes : List Text
  /-- The delimiters of template expressions. -/
  delimiters : Option Delimiters
  /-- The elements whose content is not checked. -/
  ignoredTags : List Text
  deriving DecidableEq, Repr, Inhabited

/-- Why options are refused. -/
inductive OptionsError where
  /-- The delimiters are no pair of non-empty texts. -/
  | delimiters
  /-- The options are no mapping but a value of the named type. -/
  | notMapping (typeName : Text)
  /-- A list holds an integer with more digits than are written. -/
  | overlongInteger
  deriving DecidableEq, Repr

/-- The wording of an options error. -/
def OptionsError.message : OptionsError → Text
  | .delimiters => "templateDelimiters must be a pair of non-empty strings".toList
  | .notMapping name =>
    "options must be a LintOptions or a mapping, not ".toList ++ name
  | .overlongInteger => Numeral.limitMessage none

namespace Options

/-- The attributes checked by default. -/
def defaultAttributes : List Text := ["alt".toList, "title".toList, "placeholder".toList]

/-- The elements ignored by default. -/
def defaultIgnoredTags : List Text := ["script".toList, "style".toList]

/-- The built-in options. -/
def default : Options := ⟨defaultAttributes, none, defaultIgnoredTags⟩

/-- The parts of a text between commas, trimmed. -/
def commaParts (s : Text) : List Text := (Text.splitOn ',' s).map Text.trim

/-- A list of texts: a text is cut at its commas and empty parts are dropped, a list or set is taken
item by item, and anything else is empty. The texts of a set are meant up to their order. -/
def textList : Value → List Text
  | .string s => (commaParts s).filter fun p => !p.isEmpty
  | .list vs | .set vs => vs.map Value.text
  | _ => []

/-- A list of texts, if all of its items can be written. -/
def texts (v : Value) : Except OptionsError (List Text) :=
  match v with
  | .list vs | .set vs =>
    if Value.areWritable vs then .ok (textList v) else .error .overlongInteger
  | v => .ok (textList v)

/-- Two non-empty texts as delimiters; no texts mean no delimiters. -/
def delimiterPair : List Value → Except OptionsError (Option Delimiters)
  | [] => .ok none
  | [.string a, .string b] =>
    if a.isEmpty || b.isEmpty then .error .delimiters else .ok (some ⟨a, b⟩)
  | _ => .error .delimiters

/-- Delimiters: a pair of non-empty texts, given as a list or as one text with a comma. Nothing,
a blank text and an empty list mean no delimiters. -/
def delimitersOf : Value → Except OptionsError (Option Delimiters)
  | .null => .ok none
  | .string s =>
    if (Text.trim s).isEmpty then .ok none else delimiterPair ((commaParts s).map Value.string)
  | .list vs => delimiterPair vs
  | _ => .error .delimiters

/-- Options from values for each of them, absent ones standing for the defaults. -/
def ofValues (attributes delimiters ignoredTags : Option Value) : Except OptionsError Options := do
  let attributes ← match attributes with
    | none => pure defaultAttributes
    | some v => texts v
  let ignoredTags ← match ignoredTags with
    | none => pure defaultIgnoredTags
    | some v => texts v
  let pair ← match delimiters with
    | none => pure none
    | some v => delimitersOf v
  return ⟨attributes, pair, ignoredTags⟩

/-- The value of the last entry under one of the given names that is not null. -/
def lastOf (names : List Text) (entries : List (Value × Value)) : Option Value :=
  (entries.filterMap fun
    | (.string _, .null) => none
    | (.string k, v) => if k ∈ names then some v else none
    | _ => none).getLast?

/-- Options from a mapping; names that are no options are skipped. -/
def ofEntries (entries : List (Value × Value)) : Except OptionsError Options :=
  ofValues (lastOf ["attributes".toList] entries)
    (lastOf ["templateDelimiters".toList, "template_delimiters".toList] entries)
    (lastOf ["ignoreTags".toList, "ignore_tags".toList] entries)

/-- Options from any value: nothing means the defaults, and all else must be a mapping. -/
def ofValue : Value → Except OptionsError Options
  | .null => .ok default
  | .map entries => ofEntries entries
  | v => .error (.notMapping v.typeName)

end Options

end Untranslated
