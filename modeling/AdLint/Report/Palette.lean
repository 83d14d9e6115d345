import AdLint.Finding
import AdLint.Report.Share
import AdLint.Report.Styled

/-!
# How the parts of findings look

A rule is shown in the colour of its category, so that the categories can be told apart in every
report.
-/

namespace AdLint.Palette

/-- The colour of a category. -/
def categoryColor : Category → Color
  | .roomDatabase => .cyan
  | .restrictedApi => .magenta
  | .backwardCompatibility => .yellow

/-- The title of a category. -/
def category (c : Category) : Styled := (Styled.colored (categoryColor c) c.title).bold

/-- The code of a rule. -/
def rule (r : Rule) : Styled := Styled.colored (categoryColor r.category) r.code

/-- A severity, seven characters wide. -/
def severity (s : Severity) : Styled :=
  let label : Styled := Text.padRight 7 s.label
  match s with
  | .error => (label.colored .red).bold
  | .warning => (label.colored .yellow).bold
  | .info => label.colored .blue

/-- A confidence: the less sure, the emptier the circle. -/
def confidence : Confidence → Styled
  | .high => Styled.colored .green "●"
  | .medium => Styled.colored .yellow "◐"
  | .low => Styled.dimmed "○"

/-- A path. -/
def path (text : String) : Styled := (Styled.colored .cyan text).bold

/-- A line and a column, aligned at the colon. -/
def position (line column : Nat) : Styled :=
  Styled.dimmed
    (Text.padLeft 5 (toString line) ++ ":" ++ Text.padRight 3 (toString column) : String)

/-- What a finding is about. -/
def subject (text : String) : Styled := Styled.bold text

/-- A count. -/
def count (n : Nat) : Styled := Styled.bold (toString n)

/-- A thick line. -/
def divider (width : Nat) : Styled := Styled.dimmed (Text.replicate width '━')

/-- A thin line. -/
def thinDivider (width : Nat) : Styled := Styled.dimmed (Text.replicate width '─')

/-- A bar for the share of a category. -/
def bar (part whole width : Nat) (c : Category) : Styled :=
  let filled := Share.barCells part whole width
  Styled.colored (categoryColor c)
    (Text.replicate filled '█' ++ Text.replicate (width - filled) '░' : String)

/-- The headline of a report. -/
def headline (text : String) : Styled := (Styled.colored .cyan text).bold

/-- The heading of a section. -/
def heading (text : String) : Styled := (Styled.colored .white text).bold

/-- A message that all is well. -/
def success (text : String) : Styled := (Styled.colored .green text).bold

end AdLint.Palette
