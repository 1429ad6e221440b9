import XmlWorkload.Run.Basic

/-!
# The command line

The words of a command line, read as a request.  Options take their value behind an equals sign or
from the next word; a value is checked when the option that took it is left behind.
-/

set_option autoImplicit false

namespace XmlWorkload.CommandLine

/-- An option that takes a value. -/
inductive ValueOption where
  | workload
  | outputDirectory
  | root
  | cycles
  | startCycle
  | threads
  | seed
  deriving DecidableEq, Repr

/-- An option. -/
inductive OptionName where
  | withValue (option : ValueOption)
  /-- The one that asks for a dry run. -/
  | dryRun
  | help
  deriving DecidableEq, Repr

/-- What is wrong with the words of a command line.  Asking for help counts among it. -/
inductive UsageError where
  | displayHelp
  | invalidValue
  | argumentConflict
  | valueValidation
  | unknownArgument
  /-- A value for an option that takes none. -/
  | tooManyValues
  /-- An option that has to be there is missing. -/
  | missingRequiredArgument
  deriving DecidableEq, Repr

/-- The name of what is wrong. -/
def UsageError.name : UsageError → String
  | .displayHelp => "DisplayHelp"
  | .invalidValue => "InvalidValue"
  | .argumentConflict => "ArgumentConflict"
  | .valueValidation => "ValueValidation"
  | .unknownArgument => "UnknownArgument"
  | .tooManyValues => "TooManyValues"
  | .missingRequiredArgument => "MissingRequiredArgument"

/-- The option of a long name. -/
def longOption? : String → Option OptionName
  | "workload" => some (.withValue .workload)
  | "output-dir" => some (.withValue .outputDirectory)
  | "root" => some (.withValue .root)
  | "cycles" => some (.withValue .cycles)
  | "start-cycle" => some (.withValue .startCycle)
  | "threads" => some (.withValue .threads)
  | "seed" => some (.withValue .seed)
  | "dry-run" => some .dryRun
  | "help" => some .help
  | _ => none

/-- The option of a short name. -/
def shortOption? : Char → Option OptionName
  | 'w' => some (.withValue .workload)
  | 'o' => some (.withValue .outputDirectory)
  | 'h' => some .help
  | _ => none

/-- What has been read of a command line. -/
structure Reading where
  /-- The options with their values, in the order of their reading. -/
  values : List (ValueOption × String)
  /-- Whether a dry run is asked for. -/
  dryRun : Bool
  /-- The option that was read last, with its value if that stood in a word of its own.  Its value
  has not been checked yet. -/
  pending : Option (ValueOption × Option String)
  deriving Inhabited

/-- Whether an option takes a number. -/
def takesNumber : ValueOption → Bool
  | .workload | .outputDirectory | .root => false
  | .cycles | .startCycle | .threads | .seed => true

/-- Whether an option takes a path, which cannot be empty. -/
def takesPath : ValueOption → Bool
  | .workload | .outputDirectory => true
  | _ => false

namespace Reading

/-- The value of an option. -/
def value? (reading : Reading) (option : ValueOption) : Option String :=
  (reading.values.find? fun entry => entry.1 == option).map Prod.snd

/-- The reading with a value for an option. -/
def put (reading : Reading) (option : ValueOption) (value : String) : Except UsageError Reading :=
  if (reading.value? option).isSome then .error .argumentConflict
  else if takesPath option && value == "" then .error .invalidValue
  else if takesNumber option && (Decimal.readWord? value).isNone then .error .valueValidation
  else .ok { reading with values := reading.values ++ [(option, value)] }

/-- The reading after the option that was read last is left behind: its value has to be there, and
is checked. -/
def settle (reading : Reading) : Except UsageError Reading :=
  match reading.pending with
  | none => .ok reading
  | some (_, none) => .error .invalidValue
  | some (option, some value) => { reading with pending := none }.put option value

/-- The reading after an option whose value stands in the same word, if it has one there. -/
def takeOption (reading : Reading) (option : ValueOption) (attached : Option String) :
    Except UsageError Reading := do
  let reading ← reading.settle
  match attached with
  | some value => reading.put option value
  | none => pure { reading with pending := some (option, none) }

/-- The reading after a dry run was asked for. -/
def takeDryRun (reading : Reading) : Except UsageError Reading := do
  let reading ← reading.settle
  if reading.dryRun then throw .argumentConflict
  pure { reading with dryRun := true }

/-- The reading after help was asked for, which ends it. -/
def takeHelp (reading : Reading) : Except UsageError Reading := do
  let _ ← reading.settle
  throw .displayHelp

/-- The reading after a word that starts with two hyphens, given without them. -/
def takeLong (reading : Reading) (word : List Char) : Except UsageError Reading :=
  let name := String.ofList (word.takeWhile fun c => c != '=')
  let attached := match word.dropWhile fun c => c != '=' with
    | [] => none
    | _ :: value => some (String.ofList value)
  match longOption? name, attached with
  | none, _ => .error .unknownArgument
  | some (.withValue option), attached => reading.takeOption option attached
  | some _, some _ => .error .tooManyValues
  | some .dryRun, none => reading.takeDryRun
  | some .help, none => reading.takeHelp

/-- The reading after a word that starts with one hyphen, given as the letter behind it and what
follows the letter. -/
def takeShort (reading : Reading) (letter : Char) (rest : List Char) :
    Except UsageError Reading :=
  match shortOption? letter with
  | none => .error .unknownArgument
  | some (.withValue option) =>
    reading.takeOption option (match rest with
      | [] => none
      | '=' :: value => some (String.ofList value)
      | value => some (String.ofList value))
  | some .dryRun => reading.takeDryRun
  | some .help => reading.takeHelp

/-- The reading after a word that is no option: the value of the option before it, if that has none
yet. -/
def takeValue (reading : Reading) (word : String) : Except UsageError Reading :=
  match reading.pending with
  | some (option, none) => .ok { reading with pending := some (option, some word) }
  | _ => .error .unknownArgument

/-- The reading after more words. -/
def takeAll (reading : Reading) : List String → Except UsageError Reading
  | [] => reading.settle
  | word :: rest => do
    match word.toList with
    | ['-', '-'] => if rest = [] then reading.settle else .error .unknownArgument
    | '-' :: '-' :: long => (← reading.takeLong long).takeAll rest
    | '-' :: letter :: more => (← reading.takeShort letter more).takeAll rest
    | _ => (← reading.takeValue word).takeAll rest

/-- The number that was given for an option. -/
def number? (reading : Reading) (option : ValueOption) : Option Nat :=
  (reading.value? option).bind Decimal.readWord?

/-- The request that was read. -/
def request (reading : Reading) : Except UsageError RunRequest :=
  match reading.value? .workload, reading.value? .outputDirectory with
  | some workload, some outputDirectory =>
    .ok ⟨workload, outputDirectory, reading.value? .root, (reading.number? .cycles).getD 1000,
      (reading.number? .startCycle).getD 0, (reading.number? .threads).getD 4,
      reading.number? .seed, reading.dryRun⟩
  | _, _ => .error .missingRequiredArgument

end Reading

/-- The request that the words behind the command make. -/
def parse (words : List String) : Except UsageError RunRequest := do
  let reading ← Reading.takeAll ⟨[], false, none⟩ words
  reading.request

/-- What the words of a command line ask for. -/
inductive Invocation where
  | run (request : RunRequest)
  | help
  | misuse

/-- Whether a word asks for help on its own. -/
def asksForHelp (word : String) : Bool :=
  word == "--help" || "-h".toList.isPrefixOf word.toList

/-- What the words of a command line ask for. -/
def interpret : List String → Invocation
  | "populate" :: words =>
    match parse words with
    | .ok request => .run request
    | .error .displayHelp => .help
    | .error _ => .misuse
  | ["help"] | ["help", "populate"] | ["help", "help"] => .help
  | word :: _ => if asksForHelp word then .help else .misuse
  | [] => .misuse

/-- What a program leaves behind besides the disk. -/
structure ProgramOutcome where
  exitCode : Nat
  output : List String
  errors : List String
  deriving DecidableEq, Repr

/-- The help text. -/
def helpText : List String :=
  ["Templated, streaming XML data generator for load testing", "",
    "Usage: xmlgen populate --workload <WORKLOAD> --output-dir <OUTPUT_DIR> [OPTIONS]", "",
    "Options:",
    "  -w, --workload <WORKLOAD>        Path to workload YAML file",
    "  -o, --output-dir <OUTPUT_DIR>    Output directory for XML files (cleaned before the run)",
    "      --root <ROOT>                Root element name (overrides that of the workload)",
    "      --cycles <CYCLES>            Number of cycles to run [default: 1000]",
    "      --start-cycle <START_CYCLE>  First cycle number [default: 0]",
    "      --threads <THREADS>          Number of parallel workers [default: 4]",
    "      --seed <SEED>                Random seed for deterministic generation",
    "      --dry-run                    Resolve a few cycles without writing files",
    "  -h, --help                       Print help"]

/-- The line that tells why a run failed. -/
def errorLine (error : RunError) : String := "Error: " ++ String.intercalate ": " error.chain

/-- The exit code of a program whose run failed.  A run that was ended itself has a code of its own. -/
def exitCodeOf : RunError → Nat
  | .aborted _ => 101
  | _ => 1

/-- Carries out what the words of a command line ask for. -/
def perform (words : List String) (disk : Disk) : ProgramOutcome × Disk :=
  match interpret words with
  | .help => (⟨0, helpText, []⟩, disk)
  | .misuse => (⟨2, [], helpText⟩, disk)
  | .run request =>
    let (outcome, disk) := Run.perform request disk
    match outcome.result with
    | .ok _ => (⟨0, outcome.log, []⟩, disk)
    | .error error => (⟨exitCodeOf error, outcome.log, [errorLine error]⟩, disk)

end XmlWorkload.CommandLine
