import AdLint.Json.Basic
import AdLint.Report.Statistics

/-!
# Findings as data

Two formats for other programs: a plain list of findings with counts, and the static analysis
results interchange format. The objects of the latter have their keys in alphabetical order.
-/

namespace AdLint.DataReport

/-- The name of the program. -/
def programName : String := "adservices-lint"

/-- The version of the program. -/
def programVersion : String := "0.1.0"

/-- A finding in the plain list. -/
def issue (f : Finding) : Json :=
  .object
    [ ("code", .text f.rule.code), ("name", .text f.rule.name),
      ("category", .text f.rule.category.title), ("severity", .text f.severity.label),
      ("confidence", .text f.confidence.label), ("file", .text f.location.file.text),
      ("line", .count f.location.line), ("column", .count f.location.column),
      ("subject", .text f.subject), ("message", .text f.message) ]

/-- The rules with their counts, in the order of their codes. -/
def ruleCounts (s : Statistics) : Json :=
  let entries := s.byRule.map fun e => (e.1.code, e.2)
  .object ((entries.mergeSort fun a b => decide (a.1 ≤ b.1)).map fun e => (e.1, .count e.2))

/-- The plain list of findings with counts. -/
def plain (findings : List Finding) : Json :=
  let s : Statistics := ⟨findings⟩
  .object
    [ ("version", .text programVersion), ("total_issues", .count s.total),
      ("summary",
        .object
          [ ("errors", .count (s.ofSeverity .error)), ("warnings", .count (s.ofSeverity .warning)),
            ("infos", .count (s.ofSeverity .info)), ("files_affected", .count s.fileCount),
            ("by_rule", ruleCounts s) ]),
      ("issues", .array (findings.map issue)) ]

/-- The word of the interchange format for a severity. -/
def level : Severity → String
  | .error => "error"
  | .warning => "warning"
  | .info => "note"

/-- An object with one text. -/
def textObject (text : String) : Json := .object [("text", .text text)]

/-- A rule in the interchange format. -/
def ruleObject (r : Rule) : Json :=
  .object
    [ ("defaultConfiguration", .object [("level", .text (level r.severity))]),
      ("fullDescription", textObject (r.message "<subject>")), ("id", .text r.code),
      ("name", .text r.name), ("properties", .object [("category", .text r.category.title)]),
      ("shortDescription", textObject r.name) ]

/-- A finding in the interchange format. -/
def result (f : Finding) : Json :=
  let place : Json :=
    .object
      [ ("artifactLocation",
          .object [("uri", .text (Text.replaceChar '\\' '/' f.location.file.text))]),
        ("region",
          .object
            [("startColumn", .count f.location.column), ("startLine", .count f.location.line)]) ]
  .object
    [ ("level", .text (level f.severity)),
      ("locations", .array [.object [("physicalLocation", place)]]),
      ("message", textObject f.message),
      ("properties",
        .object [("confidence", .text f.confidence.label), ("subject", .text f.subject)]),
      ("ruleId", .text f.rule.code), ("ruleIndex", .count f.rule.rank) ]

/-- The findings in the interchange format. -/
def interchange (findings : List Finding) : Json :=
  let program : Json :=
    .object
      [ ("name", .text programName), ("rules", .array (Rule.all.map ruleObject)),
        ("version", .text programVersion) ]
  .object
    [ ("$schema", .text "https://json.schemastore.org/sarif-2.1.0.json"),
      ("runs",
        .array
          [ .object
              [ ("results", .array (findings.map result)),
                ("tool", .object [("driver", program)]) ] ]),
      ("version", .text "2.1.0") ]

end AdLint.DataReport
