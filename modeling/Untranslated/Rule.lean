import Untranslated.Candidate
import Untranslated.Source.Mask

/-!
# Rules

A candidate breaks a rule when something visible is left of it once its template expressions are
removed. There is one rule for texts and one for attributes.
-/

namespace Untranslated

/-- The rule that a candidate breaks. -/
structure Rule where
  id : Text
  code : Text
  reason : Text
  deriving DecidableEq, Repr, Inhabited

/-- The identifier that all findings carry. -/
def Rule.errorId : Text := "(error)".toList

/-- The code of the rule for each kind of candidate. -/
def CandidateKind.code : CandidateKind → Text
  | .text => "W001".toList
  | .attribute => "W002".toList

namespace Candidate

/-- What is wrong with a candidate that breaks its rule. -/
def reason (c : Candidate) : Text :=
  match c.kind with
  | .attribute =>
    "Hardcoded '".toList ++ c.attributeName.getD "None".toList ++ "' attribute".toList
  | .text => "Hardcoded <".toList ++ c.tag ++ "> tag".toList

/-- The rule that a candidate breaks, if any. -/
def classify (c : Candidate) (mask : Mask) : Option Rule :=
  if Text.isBlank (mask.stripExpressions c.value) then none
  else some ⟨Rule.errorId, c.kind.code, c.reason⟩

end Candidate

end Untranslated
