import Untranslated.Text.Basic

/-!
# Log

Scanning keeps a record of what it noticed on the way. A log line names the part of the program it
comes from.
-/

namespace Untranslated

/-- The parts of the program that write log lines. -/
inductive LogSource where
  | resolver
  | scanner
  deriving DecidableEq, Repr, Inhabited

/-- The name of a part as it stands in the log. -/
def LogSource.name : LogSource → Text
  | .resolver => "i18nlint.scanner.resolver".toList
  | .scanner => "i18nlint.scanner.scanner".toList

/-- One line of the log. -/
structure LogLine where
  source : LogSource
  message : Text
  deriving DecidableEq, Repr, Inhabited

/-- A log line as it is printed. -/
def LogLine.text (l : LogLine) : Text := l.source.name ++ [':', ' '] ++ l.message

/-- What was logged, oldest line first. -/
abbrev Log := List LogLine

end Untranslated
