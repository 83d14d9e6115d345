import AdLint.FileTree
import AdLint.Finding
import AdLint.Json.Shape

/-!
# Baselines

A baseline holds the findings of a run, so that a later run reports only what is new. An entry
stands for one finding with its rule, file, subject and message. The line is kept for the reader and
does not count, so that a finding may move within its file.

## Main definitions

* `Baseline.ofFindings`: the baseline of findings
* `Baseline.newOf`: the findings that a baseline does not cover
* `Baseline.written`, `Baseline.parse?`: a baseline as a text, and back
* `Baseline.complaint?`: what is wrong with a text that writes no baseline
* `Baseline.load`, `Baseline.save`: a baseline in a file
-/

namespace AdLint

/-- What tells one entry from another. -/
structure BaselineKey where
  rule : String
  file : String
  subject : String
  message : String
  deriving DecidableEq, Repr, Inhabited

/-- An entry of a baseline. -/
structure BaselineEntry where
  key : BaselineKey
  line : Option Nat := none
  deriving DecidableEq, Repr, Inhabited

/-- A baseline. -/
structure Baseline where
  version : Nat
  entries : List BaselineEntry
  deriving DecidableEq, Repr, Inhabited

/-- The text of a path relative to the base, if it lies below it, with slashes between its
segments. -/
def portablePath (base path : Path) : String :=
  Text.replaceChar '\\' '/' ((path.relativeTo? base).getD path).text

namespace BaselineEntry

/-- The entry of a finding. -/
def ofFinding (base : Path) (f : Finding) : BaselineEntry :=
  { key :=
      { rule := f.rule.code
        file := portablePath base f.location.file
        subject := f.subject
        message := f.message }
    line := some f.location.line }

/-- The order of entries: by file, line, rule and subject. An entry without a line stands before
those with one. -/
def compare (a b : BaselineEntry) : Ordering :=
  (Ord.compare a.key.file b.key.file).then <|
  (Ord.compare a.line b.line).then <|
  (Ord.compare a.key.rule b.key.rule).then <|
  Ord.compare a.key.subject b.key.subject

/-- The value of an entry. -/
def toJson (e : BaselineEntry) : Json :=
  .object <|
    [ ("rule", .text e.key.rule),
      ("file", .text e.key.file),
      ("subject", .text e.key.subject),
      ("message", .text e.key.message) ] ++
    e.line.toList.map fun line => ("line", Json.count line)

end BaselineEntry

namespace Baseline

/-- The version of baselines that is written and read. -/
def currentVersion : Nat := 1

/-- The baseline of findings. -/
def ofFindings (base : Path) (findings : List Finding) : Baseline :=
  { version := currentVersion
    entries :=
      (findings.map (BaselineEntry.ofFinding base)).mergeSort fun a b => (a.compare b).isLE }

/-- The findings that are left when each of the keys covers one finding. -/
def uncovered (base : Path) : List BaselineKey → List Finding → List Finding
  | _, [] => []
  | keys, f :: findings =>
    let key := (BaselineEntry.ofFinding base f).key
    if keys.contains key then uncovered base (keys.erase key) findings
    else f :: uncovered base keys findings

/-- The findings that a baseline does not cover. -/
def newOf (b : Baseline) (base : Path) (findings : List Finding) : List Finding :=
  uncovered base (b.entries.map BaselineEntry.key) findings

/-! ## Comparison -/

/-- How findings compare with a baseline. -/
structure Comparison where
  /-- Entries of the baseline. -/
  total : Nat
  /-- Findings that the baseline covers. -/
  found : Nat
  /-- Findings that it does not cover. -/
  new : Nat
  /-- Entries without a finding. -/
  fixed : Nat
  deriving DecidableEq, Repr, Inhabited

/-- What is said about a comparison. -/
def Comparison.shown (c : Comparison) : String :=
  s!"{c.found} baselined, {c.new} new, {c.fixed} fixed"

/-- How findings compare with the baseline. -/
def comparison (b : Baseline) (base : Path) (findings : List Finding) : Comparison :=
  let new := (b.newOf base findings).length
  let found := findings.length - new
  { total := b.entries.length, found, new, fixed := b.entries.length - found }

/-! ## Baselines as texts -/

/-- The value of a baseline. -/
def toJson (b : Baseline) : Json :=
  .object
    [("version", Json.count b.version), ("entries", .array (b.entries.map BaselineEntry.toJson))]

/-- The text of a baseline. -/
def written (b : Baseline) : String := b.toJson.pretty

/-- The values of the given keys, of which none may stand twice. An array gives the values in the
order of the keys. -/
def record? (keys : List String) : Json → Option (List (String × Json))
  | .object entries =>
    if keys.all fun key => (entries.filter fun entry => entry.1 == key).length ≤ 1 then some entries
    else none
  | .array items => if items.length ≤ keys.length then some (keys.zip items) else none
  | _ => none

/-- The value of a key. -/
def value? (entries : List (String × Json)) (key : String) : Option Json :=
  (entries.find? fun entry => entry.1 == key).map Prod.snd

/-- The text that a value holds. -/
def text? : Json → Option String
  | .text value => some value
  | _ => none

/-- The number below a bound that a value holds, written with digits alone. -/
def natBelow? (bound : Nat) : Json → Option Nat
  | .number written =>
    let digits := written.toList
    let n := digits.foldl (fun n c => n * 10 + (c.toNat - '0'.toNat)) 0
    if digits.all Char.isDigit && n < bound then some n else none
  | _ => none

/-- The line that a value holds. -/
def line? : Json → Option (Option Nat)
  | .null => some none
  | value => (natBelow? (Nat.pow 2 64) value).map some

/-- The entry that a value holds. -/
def entry? (j : Json) : Option BaselineEntry := do
  let entries ← record? ["rule", "file", "subject", "message", "line"] j
  some
    { key :=
        { rule := ← (value? entries "rule").bind text?
          file := ← (value? entries "file").bind text?
          subject := ← (value? entries "subject").bind text?
          message := ← (value? entries "message").bind text? }
      line := ← line? ((value? entries "line").getD .null) }

/-- The entries that a value holds. -/
def entries? : Json → Option (List BaselineEntry)
  | .array items => items.mapM entry?
  | _ => none

/-- The baseline that a value holds. -/
def ofJson? (j : Json) : Option Baseline := do
  let entries ← record? ["version", "entries"] j
  some
    { version := ← (value? entries "version").bind (natBelow? (Nat.pow 2 32))
      entries := ← (value? entries "entries").bind entries? }

/-- The baseline that a text writes. -/
def parse? (text : String) : Option Baseline := (Json.parse? text).bind ofJson?

/-- What the text of an entry holds. -/
def entryShape : Json.Shape :=
  .record "BaselineEntry"
    [ ("rule", true, .text),
      ("file", true, .text),
      ("subject", true, .text),
      ("message", true, .text),
      ("line", false, .optional (.natural "usize" (Nat.pow 2 64))) ]

/-- What the text of a baseline holds. -/
def shape : Json.Shape :=
  .record "Baseline"
    [("version", true, .natural "u32" (Nat.pow 2 32)), ("entries", true, .list entryShape)]

/-- What is said about the first fault of a text. -/
def complaint? (text : String) : Option String :=
  (shape.fault? text).map fun fault => fault.message text

/-! ## Baselines in files -/

/-- Why a baseline cannot be loaded or saved. -/
inductive Failure where
  | unreadable (path : Path) (cause : FileError)
  | invalid (path : Path) (complaint : Option String)
  | unsupportedVersion (version : Nat)
  | unwritable (path : Path) (cause : FileError)
  deriving DecidableEq, Repr, Inhabited

namespace Failure

/-- What is said about a failure. -/
def message : Failure → String
  | unreadable path _ => "Failed to read baseline " ++ path.text
  | invalid path _ => "Invalid baseline file " ++ path.text
  | unsupportedVersion version =>
    s!"Unsupported baseline version {version} (expected {currentVersion})"
  | unwritable path _ => "Failed to write baseline " ++ path.text

/-- What is said about the cause of a failure. -/
def cause? : Failure → Option String
  | unreadable _ cause => some cause.message
  | unwritable _ cause => some cause.message
  | invalid _ complaint => complaint
  | unsupportedVersion _ => none

/-- What is said about a failure and its cause. -/
def fullMessage (f : Failure) : String :=
  match f.cause? with
  | some cause => f.message ++ ": " ++ cause
  | none => f.message

end Failure

/-- The baseline in a file. -/
def load (t : FileTree) (path : Path) : Except Failure Baseline :=
  match t.read path with
  | .error cause => .error (.unreadable path cause)
  | .ok text =>
    match parse? text with
    | none => .error (.invalid path (complaint? text))
    | some b =>
      if b.version == currentVersion then .ok b else .error (.unsupportedVersion b.version)

/-- The files after a baseline is saved. -/
def save (b : Baseline) (t : FileTree) (path : Path) : Except Failure FileTree :=
  match t.write path b.written with
  | .error cause => .error (.unwritable path cause)
  | .ok t => .ok t

end Baseline

end AdLint
