import AdLint.CommandLine.Basic

/-!
# Reading command lines

A command line is read word by word. An option may wait for its value, and a value is only looked at
when the next option or path begins, or at the end: an option that does not exist is reported before
a value that cannot be read. After two dashes every word is a path.

## Main definitions

* `CommandLine.parse`: the command line that words write
-/

namespace AdLint

/-- The options that take no value. -/
inductive Flag where
  | parallel
  | verbose
  | quiet
  | listRules
  | summary
  | expand
  | help
  | version
  deriving DecidableEq, Repr

/-- The options that take a value, and the project. -/
inductive Setting where
  | project
  | config
  | target
  | exclude
  | format
  | output
  | rules
  | disable
  | minConfidence
  | baseline
  | generateBaseline
  | completions
  | groupBy
  | top
  deriving DecidableEq, Repr

namespace Setting

/-- Whether the option may be given more than once. -/
def isRepeatable : Setting → Bool
  | target | exclude | rules | disable => true
  | _ => false

end Setting

namespace CommandLine

/-- The option with a long name. -/
def long? (name : String) : Option (Flag ⊕ Setting) :=
  match name with
  | "parallel" => some (.inl .parallel)
  | "verbose" => some (.inl .verbose)
  | "quiet" => some (.inl .quiet)
  | "list-rules" => some (.inl .listRules)
  | "summary" => some (.inl .summary)
  | "expand" => some (.inl .expand)
  | "help" => some (.inl .help)
  | "version" => some (.inl .version)
  | "config" => some (.inr .config)
  | "target" => some (.inr .target)
  | "exclude" => some (.inr .exclude)
  | "format" => some (.inr .format)
  | "output" => some (.inr .output)
  | "rules" => some (.inr .rules)
  | "disable" => some (.inr .disable)
  | "min-confidence" => some (.inr .minConfidence)
  | "baseline" => some (.inr .baseline)
  | "generate-baseline" => some (.inr .generateBaseline)
  | "completions" => some (.inr .completions)
  | "group-by" => some (.inr .groupBy)
  | "top" => some (.inr .top)
  | _ => none

/-- The option with a name of one letter. -/
def short? (letter : Char) : Option (Flag ⊕ Setting) :=
  match letter with
  | 'v' => some (.inl .verbose)
  | 'q' => some (.inl .quiet)
  | 'h' => some (.inl .help)
  | 'V' => some (.inl .version)
  | 'c' => some (.inr .config)
  | 't' => some (.inr .target)
  | 'e' => some (.inr .exclude)
  | 'f' => some (.inr .format)
  | 'o' => some (.inr .output)
  | _ => none

/-- What was read of a command line. -/
structure Reading where
  line : CommandLine := {}
  /-- The options that were given. -/
  flags : List Flag := []
  settings : List Setting := []
  /-- An option whose value was not looked at yet, and the value if it was given. -/
  waiting : Option (Setting × Option String) := none
  /-- Whether a path for the project was given. -/
  hasProject : Bool := false
  /-- Whether two dashes were given. -/
  onlyPaths : Bool := false

/-- The path that a value gives, which must not be empty. -/
def pathValue (value : String) : Except UsageError Path :=
  if value.isEmpty then .error .invalidValue else .ok ⟨value⟩

/-- The number that a value gives, with or without a sign in front. -/
def countValue (value : String) : Except UsageError Nat :=
  let digits :=
    match value.toList with
    | '+' :: cs => cs
    | cs => cs
  let n := digits.foldl (fun n c => n * 10 + (c.toNat - '0'.toNat)) 0
  if digits.isEmpty || !digits.all Char.isDigit || Nat.pow 2 64 ≤ n then .error .valueValidation
  else .ok n

/-- The shells that completions can be written for. -/
def shells : List String := ["bash", "elvish", "fish", "powershell", "zsh"]

/-- The command line with a value for an option. -/
def set (c : CommandLine) (setting : Setting) (value : String) : Except UsageError CommandLine :=
  match setting with
  | .project => do .ok { c with project := ← pathValue value }
  | .config => do .ok { c with config := some (← pathValue value) }
  | .target => do .ok { c with targets := c.targets ++ [← pathValue value] }
  | .exclude => .ok { c with exclude := c.exclude ++ [value] }
  | .format =>
    match OutputFormat.ofLabel? value with
    | some format => .ok { c with format }
    | none => .error .invalidValue
  | .output => do .ok { c with output := some (← pathValue value) }
  | .rules => .ok { c with rules := c.rules ++ Text.splitAt ',' value }
  | .disable => .ok { c with disable := c.disable ++ Text.splitAt ',' value }
  | .minConfidence => .ok { c with minConfidence := value }
  | .baseline => do .ok { c with baseline := some (← pathValue value) }
  | .generateBaseline => do .ok { c with generateBaseline := some (← pathValue value) }
  | .completions =>
    if shells.contains value then .ok { c with completions := some value } else .error .invalidValue
  | .groupBy => .ok { c with groupBy := some value }
  | .top => do .ok { c with top := ← countValue value }

/-- The command line with an option that takes no value. -/
def enable (c : CommandLine) (flag : Flag) : Except UsageError CommandLine :=
  match flag with
  | .parallel => .ok { c with parallel := true }
  | .verbose => .ok { c with verbose := true }
  | .quiet => .ok { c with quiet := true }
  | .listRules => .ok { c with listRules := true }
  | .summary => .ok { c with summary := true }
  | .expand => .ok { c with expand := true }
  | .help => .error .displayHelp
  | .version => .error .displayVersion

namespace Reading

/-- The reading with a value for an option. -/
def take (r : Reading) (setting : Setting) (value : String) : Except UsageError Reading := do
  if r.settings.contains setting && !setting.isRepeatable then .error .argumentConflict
  else .ok { r with line := ← r.line.set setting value, settings := setting :: r.settings }

/-- The reading with the waiting value looked at. -/
def settle (r : Reading) : Except UsageError Reading :=
  match r.waiting with
  | none => .ok r
  | some (_, none) => .error .invalidValue
  | some (setting, some value) => { r with waiting := none }.take setting value

/-- The reading after an option that takes no value. -/
def flag (r : Reading) (flag : Flag) : Except UsageError Reading := do
  let r ← r.settle
  if r.flags.contains flag then .error .argumentConflict
  else .ok { r with line := ← r.line.enable flag, flags := flag :: r.flags }

/-- The reading after an option that takes a value, which may stand in the same word. -/
def setting (r : Reading) (setting : Setting) (value : Option String) :
    Except UsageError Reading := do
  let r ← r.settle
  match value with
  | some value => r.take setting value
  | none => .ok { r with waiting := some (setting, none) }

/-- The reading after a word with two dashes in front. A value may stand behind an equals sign. -/
def long (r : Reading) (cs : List Char) : Except UsageError Reading :=
  let name := cs.takeWhile (· != '=')
  let value := (cs.drop name.length).tail?.map String.ofList
  match long? (String.ofList name) with
  | none => .error .unknownArgument
  | some (.inl f) => if value.isSome then .error .tooManyValues else r.flag f
  | some (.inr s) => r.setting s value

/-- The reading after letters behind a dash. The rest behind a letter for an option that takes a
value is its value, with or without an equals sign. -/
def short (r : Reading) : List Char → Except UsageError Reading
  | [] => .ok r
  | letter :: rest =>
    match short? letter with
    | none => .error .unknownArgument
    | some (.inl f) => do (← r.flag f).short rest
    | some (.inr s) =>
      match rest with
      | [] => r.setting s none
      | '=' :: value => r.setting s (some (String.ofList value))
      | value => r.setting s (some (String.ofList value))

/-- The reading after a path for the project, which can be given once. -/
def path (r : Reading) (word : String) : Except UsageError Reading :=
  if r.hasProject then .error .unknownArgument
  else do
    let r ← r.settle
    .ok { r with hasProject := true, waiting := some (.project, some word) }

/-- The reading after a word. -/
def word (r : Reading) (word : String) : Except UsageError Reading :=
  if r.onlyPaths then r.path word
  else
    match word.toList with
    | ['-', '-'] => .ok { r with onlyPaths := true }
    | '-' :: '-' :: cs => r.long cs
    | '-' :: c :: cs => r.short (c :: cs)
    | _ =>
      match r.waiting with
      | some (setting, none) => .ok { r with waiting := some (setting, some word) }
      | _ => r.path word

end Reading

/-- The command line that words write. -/
def parse (words : List String) : Except UsageError CommandLine := do
  let r ← words.foldlM Reading.word {}
  .ok (← r.settle).line

end CommandLine

end AdLint
