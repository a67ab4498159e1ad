import Untranslated.Html.Reference
import Untranslated.Text.Case
import Untranslated.Text.Quoted

/-!
# Markup events

A markup text is read as a sequence of events: tags, runs of text with their references decoded,
comments and declarations. Reading is tolerant: what does not form a construct is text. Only a
marked section `<![…` that names no section or an unknown one is refused, and so is a reference
whose number has too many digits.

The text is read in two passes. The first one stops at a construct that more input could complete;
the second one reads what is left knowing that nothing follows.

The rules are those of `html.parser` 3.11.2 as Beautiful Soup 4.15.0 drives it.
-/

namespace Untranslated

/-- Strings of a document that are not tags. -/
inductive LeafKind where
  | text
  | comment
  | doctype
  | cdata
  | declaration
  | instruction
  deriving DecidableEq, Repr, Inhabited

/-- An event of a markup text. -/
inductive Event where
  | startTag (name : Text) (attributes : List (Text × Text))
  /-- A tag written `<name … />`. -/
  | selfClosed (name : Text) (attributes : List (Text × Text))
  | endTag (name : Text)
  /-- A piece of text; adjacent pieces belong together. -/
  | text (s : Text)
  /-- A string that stands on its own. -/
  | leaf (kind : LeafKind) (s : Text)
  deriving DecidableEq, Repr, Inhabited

/-- Why a markup text is refused. -/
inductive MarkupError where
  /-- A marked section without a name; its first twenty characters. -/
  | namelessSection (source : Text)
  /-- A marked section of an unknown kind; its name with the whitespace behind it. -/
  | unknownSection (name : Text)
  /-- A reference that cannot be read. -/
  | overlong (reference : OverlongReference)
  deriving DecidableEq, Repr

/-- The wording for a marked section that is refused for the given cause. -/
def MarkupError.sectionMessage (cause : Text) : Text :=
  "The markup you provided was rejected by the parser. ".toList ++
    "Trying a different parser or a different encoding may help.".toList ++
    "\n\nOriginal exception(s) from parser:\n AssertionError: ".toList ++ cause

/-- The wording of a refusal. -/
def MarkupError.message : MarkupError → Text
  | .namelessSection source =>
    sectionMessage ("expected name token at ".toList ++ Text.quoted source)
  | .unknownSection name => sectionMessage
    ("unknown status keyword ".toList ++ Text.quoted name ++ " in marked section".toList)
  | .overlong reference => reference.message

namespace Event

/-! ## Tags -/

/-- Characters that end a tag name. -/
def endsTagName (c : Char) : Bool :=
  c == '\t' || c == '\n' || c == '\r' || c == '\x0c' || c == ' ' || c == '/' || c == '>' ||
    c == '\x00'

/-- What follows the whitespace and stray slashes before an attribute; the slash of `/>` stays.
Also returned is the character before the rest, `prev` being the one before the text. -/
def skipGap (prev : Char) : Text → Char × Text
  | [] => (prev, [])
  | c :: rest =>
    if Text.isSpace c then skipGap c rest
    else if c = '/' ∧ rest.head? ≠ some '>' then skipGap c rest
    else (prev, c :: rest)

/-- A value without quotes: it ends at whitespace and at `>`. -/
def bareValue (s : Text) : Text × Text := Text.span (fun c => c != '>' && !Text.isSpace c) s

/-- The value part of an attribute, read from behind the attribute's name: the value and the rest.
An opening quote that is never closed leaves the attribute without a value, except that whitespace
before the quote makes the value empty, and that of several equals signs the last one belongs to
the value. -/
def readValue? (s : Text) : Option (Text × Text) :=
  let (signs, s) := Text.span (· == '=') (s.dropWhile Text.isSpace)
  let (blank, s) := Text.span Text.isSpace s
  if signs.isEmpty then none
  else
    let unclosed : Option (Text × Text) :=
      match blank.getLast? with
      | some c => some ([], c :: s)
      | none => if signs.length = 1 then none else some (bareValue ('=' :: s))
    match s with
    | '\x27' :: rest => match Text.cutAt? '\x27' rest with
      | some found => some found
      | none => unclosed
    | '"' :: rest => match Text.cutAt? '"' rest with
      | some found => some found
      | none => unclosed
    | s => some (bareValue s)

/-- Whether an attribute may begin behind the character. -/
def precedesAttribute (c : Char) : Bool := c == '\x27' || c == '"' || c == '/' || Text.isSpace c

/-- The attributes of a tag, read from the first one on: names in lower case, values as written.
The rest begins where no further attribute does. -/
def readAttributes (prev : Char) (s : Text) : List (Text × Text) × Text :=
  match s with
  | [] => ([], [])
  | c :: rest =>
    if precedesAttribute prev && !Text.isSpace c && c != '/' && c != '>' then
      let (more, tail) :=
        Text.span (fun d => !Text.isSpace d && d != '/' && d != '=' && d != '>') rest
      let (value, tail) := (readValue? tail).getD ([], tail)
      -- The character before the rest is the last one read.
      let last := ((c :: rest).take (rest.length + 1 - tail.length)).getLast?.getD c
      let (last, tail) := skipGap last tail
      if tail.length < rest.length + 1 then
        let (others, tail) := readAttributes last tail
        ((Text.lower (c :: more), value) :: others, tail)
      else ([], s)
    else ([], s)
termination_by s.length

/-- What a text that begins with `<` and a letter comes to. -/
inductive TagReading where
  | tag (name : Text) (attributes : List (Text × Text)) (selfClosed : Bool) (rest : Text)
  /-- No tag after all; the rest begins behind the offending part. -/
  | stray (rest : Text)
  /-- The text ends inside the tag. -/
  | unfinished
  | refused (e : MarkupError)
  deriving DecidableEq, Repr

/-- A start tag, read from behind its `<`. The values of its attributes are decoded as soon as its
end is found. -/
def readTag (s : Text) : TagReading :=
  let (name, rest) := Text.span (fun c => !endsTagName c) s
  let (last, rest) := skipGap (name.getLast?.getD '<') rest
  let (attributes, rest) := readAttributes last rest
  match rest with
  | [] => .unfinished
  | '>' :: rest => decoded attributes fun attributes => .tag (Text.lower name) attributes false rest
  | '/' :: '>' :: rest =>
    decoded attributes fun attributes => .tag (Text.lower name) attributes true rest
  | c :: _ =>
    if Text.isLetter c || c == '=' || c == '/' then .unfinished
    else decoded attributes fun _ => .stray rest
where
  /-- The reading with decoded attributes. -/
  decoded (attributes : List (Text × Text)) (reading : List (Text × Text) → TagReading) :
      TagReading :=
    match attributes.findSome? fun (_, v) => Reference.overlong? v with
    | some reference => .refused (.overlong reference)
    | none => reading (attributes.map fun (k, v) => (k, Reference.decode v))

/-- An end tag `</name>` in its plain form, read from behind `</`: its name and the rest. -/
def readEndTag? (s : Text) : Option (Text × Text) :=
  match s.dropWhile Text.isSpace with
  | [] => none
  | c :: rest =>
    if Text.isLetter c then
      let (more, rest) := Text.span
        (fun d => Text.isLetterOrDigit d || d == '-' || d == '.' || d == ':' || d == '_') rest
      match rest.dropWhile Text.isSpace with
      | '>' :: rest => some (Text.lower (c :: more), rest)
      | _ => none
    else none

/-! ## Declarations -/

/-- Text up to a closing sequence, whose parts may have whitespace between them, and what follows
that sequence. -/
def cutAtClose? (parts : Text) : Text → Option (Text × Text)
  | [] => none
  | c :: rest =>
    match closes parts (c :: rest) with
    | some after => some ([], after)
    | none => (cutAtClose? parts rest).map fun (a, b) => (c :: a, b)
where
  /-- What follows the parts, with whitespace allowed before every part but the first. -/
  closes : Text → Text → Option Text
    | [], s => some s
    | p :: ps, d :: s => if p = d then later ps s else none
    | _ :: _, [] => none
  /-- What follows the remaining parts, with whitespace allowed before each. -/
  later : Text → Text → Option Text
    | [], s => some s
    | p :: ps, s =>
      match s.dropWhile Text.isSpace with
      | d :: s => if p = d then later ps s else none
      | [] => none

/-- Text up to the end `--` of a comment, which whitespace may separate from its `>`. -/
def cutAtCommentEnd? : Text → Option (Text × Text)
  | [] => none
  | '-' :: '-' :: rest =>
    match rest.dropWhile Text.isSpace with
    | '>' :: after => some ([], after)
    | _ => (cutAtCommentEnd? ('-' :: rest)).map fun (a, b) => ('-' :: a, b)
  | c :: rest => (cutAtCommentEnd? rest).map fun (a, b) => (c :: a, b)

/-- Sections closed by two brackets. -/
def bracketSections : List Text :=
  ["temp".toList, "cdata".toList, "ignore".toList, "include".toList, "rcdata".toList]

/-- Sections closed by one bracket. -/
def conditionalSections : List Text := ["if".toList, "else".toList, "endif".toList]

/-- What a declaration comes to. -/
inductive DeclReading where
  | leaf (kind : LeafKind) (s : Text) (rest : Text)
  /-- The text ends inside the declaration. -/
  | unfinished
  | refused (e : MarkupError)
  deriving DecidableEq, Repr

/-- The content of a marked section as a string of the document. -/
def sectionLeaf (body rest : Text) : DeclReading :=
  if Text.lower (body.take 6) = "cdata[".toList then .leaf .cdata (body.drop 6) rest
  else .leaf .declaration body rest

/-- A marked section, read from behind `<![`. -/
def readSection (s : Text) : DeclReading :=
  match s with
  | [] => .unfinished
  | c :: rest =>
    if Text.isLetter c then
      let (more, rest) := Text.span
        (fun d => Text.isLetterOrDigit d || d == '-' || d == '_' || d == '.') rest
      let (blank, rest) := Text.span Text.isSpace rest
      let name := Text.lower (c :: more)
      if rest.isEmpty then .unfinished
      else if name ∈ bracketSections then
        match cutAtClose? [']', ']', '>'] s with
        | some (body, rest) => sectionLeaf body rest
        | none => .unfinished
      else if name ∈ conditionalSections then
        match cutAtClose? [']', '>'] s with
        | some (body, rest) => sectionLeaf body rest
        | none => .unfinished
      else .refused (.unknownSection (c :: more ++ blank))
    else .refused (.namelessSection ("<![".toList ++ s.take 17))

/-- A string of the document that ends at the next `>`. -/
def leafUpToBracket (kind : LeafKind) (s : Text) : DeclReading :=
  match Text.cutAt? '>' s with
  | some (body, rest) => .leaf kind body rest
  | none => .unfinished

/-- A comment, section, document type or bogus comment, read from behind `<!`. -/
def readDeclaration (s : Text) : DeclReading :=
  match s with
  | '-' :: '-' :: rest =>
    match cutAtCommentEnd? rest with
    | some (body, rest) => .leaf .comment body rest
    | none => .unfinished
  | '[' :: rest => readSection rest
  | s =>
    if Text.lower (s.take 7) = "doctype".toList then
      match Text.cutAt? '>' (s.drop 7) with
      | some (body, rest) => .leaf .doctype ((s.take 7 ++ body).drop 8) rest
      | none => .unfinished
    else leafUpToBracket .comment s

/-! ## References -/

/-- A numeric reference between tags, read from behind `&#`: it counts only when a character that
is no hexadecimal digit follows. A semicolon belongs to the reference. -/
def readCharRef? (s : Text) : Option (Text × Text) :=
  match Reference.readNumber? s with
  | some (n, c :: rest) =>
    if Text.isHexDigit c then none
    else some ([Reference.ofNumber n], if c = ';' then rest else c :: rest)
  | _ => none

/-- A named reference between tags, read from behind `&`: its name and the rest. Some character
other than a letter or digit follows the name, if need be the last dash or dot of the name. -/
def readEntityRef? (s : Text) : Option (Text × Text) :=
  match s with
  | [] => none
  | c :: _ =>
    if Text.isLetter c then
      let (name, rest) := Text.span (fun d => Text.isLetterOrDigit d || d == '-' || d == '.') s
      match rest with
      | ';' :: rest => some (name, rest)
      | _ :: _ => some (name, rest)
      | [] =>
        let kept := name.reverse.dropWhile Text.isLetterOrDigit
        match kept with
        | [] => none
        | _ :: before => some (before.reverse, s.drop before.length)
    else none

/-! ## The reader -/

/-- One step of reading. -/
inductive Step where
  /-- Events were read; reading goes on at `rest`, verbatim inside the named element if any. -/
  | next (events : List Event) (verbatim : Option Text) (rest : Text)
  /-- Nothing more can be read in this pass. -/
  | stop (events : List Event) (rest : Text)
  | refused (e : MarkupError)
  deriving Repr

/-- The part of a construct that turned out to be text when nothing follows: through the next `>`,
else up to the next `<`, else one character. -/
def strayText (s : Text) : Text × Text :=
  match s with
  | [] => ([], [])
  | c :: rest =>
    match Text.cutAt? '>' rest with
    | some (a, b) => (c :: a ++ ['>'], b)
    | none =>
      match Text.span (· != '<') rest with
      | (_, []) => ([c], rest)
      | (a, b) => (c :: a, b)

/-- A construct that the text ends in: the first pass stops, the second one takes it as text. -/
def unfinished (final : Bool) (verbatim : Option Text) (s : Text) : Step :=
  if final then
    let (a, b) := strayText s
    .next [.text a] verbatim b
  else .stop [] s

/-- Elements whose content is read verbatim. -/
def verbatimElements : List Text := ["script".toList, "style".toList]

/-- An end tag, `s` beginning with `</`. Inside a verbatim element only its own end tag counts. -/
def stepEndTag (final : Bool) (verbatim : Option Text) (s : Text) : Step :=
  let inner := s.drop 2
  match Text.cutAt? '>' inner with
  | none => unfinished final verbatim s
  | some (upto, behind) =>
    match readEndTag? inner, verbatim with
    | some (name, rest), none => .next [.endTag name] none rest
    | some (name, rest), some element =>
      if name = element then .next [.endTag name] none rest
      else .next [.text ('<' :: '/' :: upto ++ ['>'])] verbatim behind
    | none, some _ => .next [.text ('<' :: '/' :: upto ++ ['>'])] verbatim behind
    | none, none =>
      match inner with
      | '>' :: rest => .next [] none rest
      | c :: _ =>
        if Text.isLetter c then
          .next [.endTag (Text.lower (inner.takeWhile fun d => !endsTagName d))] none behind
        else .next [.leaf .comment upto] none behind
      | [] => .next [] none behind

/-- A construct that begins with `<`. -/
def stepMarkup (final : Bool) (verbatim : Option Text) (s : Text) : Step :=
  match s with
  | '<' :: '/' :: _ => stepEndTag final verbatim s
  | '<' :: '!' :: rest =>
    match readDeclaration rest with
    | .leaf kind body rest => .next [.leaf kind body] verbatim rest
    | .unfinished => unfinished final verbatim s
    | .refused e => .refused e
  | '<' :: '?' :: rest =>
    match leafUpToBracket .instruction rest with
    | .leaf kind body rest => .next [.leaf kind body] verbatim rest
    | _ => unfinished final verbatim s
  | '<' :: c :: rest =>
    if Text.isLetter c then
      match readTag (c :: rest) with
      | .tag name attributes true rest => .next [.selfClosed name attributes] verbatim rest
      | .tag name attributes false rest =>
        let verbatim := if name ∈ verbatimElements then some name else verbatim
        .next [.startTag name attributes] verbatim rest
      | .stray after => .next [.text (s.take (s.length - after.length))] verbatim after
      | .refused e => .refused e
      | .unfinished => unfinished final verbatim s
    else .next [.text ['<']] verbatim (c :: rest)
  | s => .stop [] s

/-- A construct that begins with `&`. -/
def stepReference (final : Bool) (s : Text) : Step :=
  match s with
  | '&' :: '#' :: rest =>
    match readCharRef? rest with
    | some (cs, after) =>
      match Reference.overlongNumber? rest with
      | some reference => .refused (.overlong reference)
      | none => .next [.text cs] none after
    | none => if ';' ∈ rest then .stop [.text ['&', '#']] rest else .stop [] s
  | '&' :: c :: rest =>
    match readEntityRef? (c :: rest) with
    | some (name, rest) => .next [.text (Reference.ofName name)] none rest
    | none =>
      if Text.isLetter c then
        if final && rest.isEmpty then .stop [] [c] else .stop [] s
      else .next [.text ['&']] none (c :: rest)
  | s => .stop [] s

/-- Whether `s` begins with the end tag of the given element, letter case aside. -/
def startsEndTag (name : Text) (s : Text) : Bool :=
  match s with
  | '<' :: '/' :: rest =>
    let rest := rest.dropWhile Text.isSpace
    let head := rest.take name.length
    head.length == name.length && (name.zip head).all (fun (a, b) => Text.sameLetter a b) &&
      ((rest.drop name.length).dropWhile Text.isSpace).head? == some '>'
  | _ => false

/-- The text up to the next end tag of the element, and the rest from there. -/
def cutAtEndTag? (name : Text) : Text → Option (Text × Text)
  | [] => none
  | c :: rest =>
    if startsEndTag name (c :: rest) then some ([], c :: rest)
    else (cutAtEndTag? name rest).map fun (a, b) => (c :: a, b)

/-- A run of text as an event, unless it is empty. -/
def textEvents (s : Text) : List Event := if s.isEmpty then [] else [.text s]

/-- One step at a text that is not empty. -/
def step (final : Bool) (verbatim : Option Text) (s : Text) : Step :=
  match verbatim with
  | some name =>
    match s with
    | '<' :: _ =>
      if startsEndTag name s then stepMarkup final verbatim s else skipVerbatim name s
    | _ => skipVerbatim name s
  | none =>
    match s with
    | '<' :: _ => stepMarkup final none s
    | '&' :: _ => stepReference final s
    | _ =>
      let (run, rest) := Text.span (fun c => c != '<' && c != '&') s
      .next (textEvents run) none rest
where
  /-- Verbatim content up to the end tag. -/
  skipVerbatim (name s : Text) : Step :=
    match cutAtEndTag? name s with
    | some (run, rest) => .next (textEvents run) (some name) rest
    | none => .stop [] s

/-- One pass over a text: the events read, the verbatim element it ended in, and what it left. -/
def pass (final : Bool) (verbatim : Option Text) (s : Text) :
    Except MarkupError (List Event × Option Text × Text) :=
  if s.isEmpty then .ok ([], verbatim, [])
  else
    match step final verbatim s with
    | .refused e => .error e
    | .stop events rest => .ok (events, verbatim, rest)
    | .next events verbatim rest =>
      if rest.length < s.length then
        match pass final verbatim rest with
        | .error e => .error e
        | .ok (more, verbatim, rest) => .ok (events ++ more, verbatim, rest)
      else .ok (events, verbatim, rest)
termination_by s.length

/-- The events of a markup text. What neither pass could read is text, unless it stands inside a
verbatim element that is never closed: that is dropped. -/
def read (s : Text) : Except MarkupError (List Event) := do
  let (first, verbatim, rest) ← pass false none s
  let (second, verbatim, rest) ← pass true verbatim rest
  return first ++ second ++ if verbatim.isNone then textEvents rest else []

end Event

end Untranslated
