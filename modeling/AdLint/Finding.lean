import AdLint.Location
import AdLint.Rule

/-!
# Findings

A finding is one violation of a rule: where it is, what it is about, how grave and how sure it is,
and the message for the user.
-/

namespace AdLint

/-- A violation of a rule. -/
structure Finding where
  rule : Rule
  location : Location
  /-- The class, field, call or component that the finding is about. -/
  subject : String
  severity : Severity
  confidence : Confidence
  message : String
  deriving DecidableEq, Repr, Inhabited

namespace Finding

/-- The finding that a rule reports about a subject unless a check says otherwise. -/
def ofRule (rule : Rule) (location : Location) (subject : String) : Finding :=
  { rule, location, subject
    severity := rule.severity
    confidence := .high
    message := rule.message subject }

/-- The order in which findings are listed: by file, line, column and rule. -/
def compare (a b : Finding) : Ordering :=
  (a.location.file.compare b.location.file).then <|
  (Ord.compare a.location.line b.location.line).then <|
  (Ord.compare a.location.column b.location.column).then <|
  Ord.compare a.rule.rank b.rule.rank

end Finding

end AdLint
