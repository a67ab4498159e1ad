import Untranslated.Finding
import Untranslated.Options

/-!
# Scanning a text

A scan reads the markup, collects the candidates, keeps those that break a rule, locates them in
the source and reports them in source order.
-/

namespace Untranslated

/-- Why a scan was given up. -/
inductive ScanError where
  | markup (e : MarkupError)
  | locate (e : LocateError)
  deriving DecidableEq, Repr

/-- The wording of a scan's failure. -/
def ScanError.message : ScanError → Text
  | .markup e => e.message
  | .locate e => e.message

namespace Scan

/-- The findings of an accepted candidate with the given evidence. -/
def findings (lines : Lines) (kind : CandidateKind) (rule : Rule) (e : EvidenceSpan) :
    List Finding :=
  match kind with
  | .text => Finding.ofText rule e.start e.stop lines
  | .attribute => [Finding.ofAttribute rule e.start e.stop e.scope lines]

/-- The groups of findings of the candidates, one group per reported candidate. -/
def groups (src : Resolver.Source) (lines : Lines) :
    List Candidate → Resolver.State → Except LocateError (List (List Finding)) × Resolver.State
  | [], st => (.ok [], st)
  | c :: cs, st =>
    match c.classify src.mask with
    | none => groups src lines cs st
    | some rule =>
      match Resolver.resolve src c st with
      | (.error e, st) => (.error e, st)
      | (.ok none, st) => groups src lines cs st
      | (.ok (some e), st) =>
        let group := findings lines c.kind rule e
        match groups src lines cs st with
        | (.error e, st) => (.error e, st)
        | (.ok more, st) => (.ok (if group.isEmpty then more else group :: more), st)

/-- Order of groups by their first findings. -/
def groupLe (a b : List Finding) : Bool :=
  match a, b with
  | f :: _, g :: _ => f.le g
  | [], _ => true
  | _ :: _, [] => false

end Scan

/-- The records of a text in source order, together with the log. Groups that begin at the same
place keep the order in which they were found. -/
def scan (text label : Text) (options : Options) : Except ScanError (List Record) × Log :=
  match Document.parse [] text with
  | .error e => (.error (.markup e), [])
  | .ok d =>
    let src : Resolver.Source := ⟨text, Mask.build text options.delimiters⟩
    let candidates := d.candidates options.ignoredTags options.attributes
    match Scan.groups src (Lines.of text) candidates (Resolver.State.start src d) with
    | (.error e, st) => (.error (.locate e), st.log)
    | (.ok groups, st) =>
      let records := (groups.mergeSort Scan.groupLe).flatten.map fun f => ⟨label, f⟩
      let summary :=
        label ++ [':', ' '] ++ Text.ofNat records.length ++ " hardcoded string(s)".toList
      (.ok records, st.log ++ [⟨.scanner, summary⟩])

end Untranslated
