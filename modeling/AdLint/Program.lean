import AdLint.CommandLine.Reader
import AdLint.Run

/-!
# The program

The program reads its command line, runs, and ends with an exit code: 0 if no grave finding was
reported, 1 if one was or the run ended with an error, and 2 if the command line cannot be carried
out.

## Main definitions

* `program`: what the program prints and writes, and its exit code
-/

namespace AdLint

/-- How the program ends. -/
structure Ending where
  exitCode : Nat
  output : Output

/-- What is said to a user who asks for help. -/
def helpText : String :=
  String.intercalate "\n"
    [ "Usage: adservices-lint [OPTIONS] [PATH]",
      "",
      "Options:",
      "  -c, --config <CONFIG>            Configuration file",
      "  -t, --target <TARGET>            Directory to analyze, repeatable",
      "  -e, --exclude <EXCLUDE>          Pattern to exclude, repeatable",
      "  -f, --format <FORMAT>            terminal, compact, json or sarif",
      "  -o, --output <OUTPUT>            Output file for json and sarif",
      "      --rules <RULES>              Only run these rules",
      "      --disable <RULES>            Skip these rules",
      "      --min-confidence <LEVEL>     low, medium or high",
      "      --baseline <FILE>            Report only findings that are not in the file",
      "      --generate-baseline <FILE>   Save the findings in the file",
      "      --parallel                   Parse files in parallel",
      "      --list-rules                 List every rule",
      "      --summary                    Show statistics only",
      "      --group-by <MODE>            rule or category",
      "      --expand                     Show every finding of a group",
      "      --top <N>                    Rules shown in a summary",
      "  -v, --verbose                    More notices",
      "  -q, --quiet                      Results only",
      "  -h, --help                       This help",
      "  -V, --version                    The version",
      "" ]

/-- How the program ends when its command line cannot be carried out. -/
def usageEnding (o : Output) : UsageError → Ending
  | .displayVersion =>
    { exitCode := 0
      output :=
        { o with stdout := DataReport.programName ++ " " ++ DataReport.programVersion ++ "\n" } }
  | .displayHelp => { exitCode := 0, output := { o with stdout := helpText } }
  | _ => { exitCode := 2, output := { o with stderr := helpText } }

/-- What the program prints and writes, and its exit code. -/
def program (words : List String) (colors : Bool) (files : FileTree) : Ending :=
  let start : Output := { files }
  match CommandLine.parse words with
  | .error e => usageEnding start e
  | .ok c =>
    match (run c colors).run start with
    | (.ok grave, output) => { exitCode := if grave then 1 else 0, output }
    | (.error e, o) =>
      { exitCode := 1, output := o.notify colors [Styled.colored .red "Error", ": " ++ e.message] }

end AdLint
