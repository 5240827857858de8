import LibSurvey.Arguments
import LibSurvey.Log
import LibSurvey.Report.Document
import LibSurvey.Report.Listing
import LibSurvey.Script.Run

/-!
The commands of the program: a survey of a library, of one header or of one object, and how its
result is shown.
-/

namespace LibSurvey

inductive Task where
  | discover (library : String)
  | header (file : Path)
  | symbols (object : Path)
deriving DecidableEq, Repr

/-- What the options of a command say. -/
structure Choices where
  object : Option Path
  includes : List Path
  maxDepth : Option Nat
  preferDebugInfo : Bool
  preprocessor : Option String
  timeoutMs : Option Nat
  json : Bool
  verbose : Bool
deriving DecidableEq, Repr

structure Command extends Choices where
  task : Task
deriving DecidableEq, Repr

/-- What the program leaves behind. -/
structure Outcome where
  code : Nat
  output : String
  errors : String
deriving DecidableEq, Repr

namespace Command

def outputSpecs : List OptionSpec :=
  [Arguments.help, ⟨"json", none, false⟩, ⟨"verbose", some 'v', false⟩]

def includeSpec : OptionSpec :=
  ⟨"include", some 'I', true⟩

def discoverSpecs : List OptionSpec :=
  outputSpecs ++ [includeSpec, ⟨"object", none, true⟩, ⟨"max-depth", none, true⟩,
    ⟨"prefer-debug-info", none, false⟩, ⟨"preprocessor", none, true⟩, ⟨"timeout-ms", none, true⟩]

/-- A path among the arguments, which cannot be empty. -/
def path? (text : String) : Except Misuse Path :=
  if text.isEmpty then .error .wrong else .ok ⟨text⟩

/-- The value of an option, if it is given, by a function that may refuse it. -/
def value? {α : Type} (args : Arguments) (name : String) (decode : String → Except Misuse α) :
    Except Misuse (Option α) :=
  match args.values name with
  | [] => .ok none
  | value :: _ => (decode value).map some

def natural? (text : String) : Except Misuse Nat :=
  match Text.natural? text.toList with
  | some value => .ok value
  | none => .error .wrong

/-- What options say, of which only directories may be given more than once. -/
def choices? (specs : List OptionSpec) (args : Arguments) : Except Misuse Choices := do
  if specs.any fun spec => spec ≠ includeSpec && args.repeats spec.name then throw .wrong
  pure {
    object := ← value? args "object" path?
    includes := ← (args.values "include").mapM path?
    maxDepth := ← value? args "max-depth" natural?
    preferDebugInfo := args.has "prefer-debug-info"
    preprocessor := ← value? args "preprocessor" .ok
    timeoutMs := ← value? args "timeout-ms" natural?
    json := args.has "json"
    verbose := args.has "verbose" }

/-- Whether arguments can be the first ones of a command: no option is wrong, and there is no more
than the one operand that its task is about. -/
def isSound (specs : List OptionSpec) (task : String → Except Misuse Task) (args : Arguments) :
    Bool :=
  (choices? specs args).toBool && args.operands.length ≤ 1 &&
    args.operands.all fun operand => (task operand).toBool

def ofSpecs? (specs : List OptionSpec) (task : String → Except Misuse Task)
    (args : List String) : Except Misuse Command := do
  let found ← Arguments.read specs (isSound specs task) ⟨[], []⟩ args
  match found.operands with
  | [operand] => pure { toChoices := ← choices? specs found, task := ← task operand }
  | _ => throw .wrong

def discover? (operand : String) : Except Misuse Task :=
  .ok (.discover operand)

def header? (operand : String) : Except Misuse Task :=
  (path? operand).map .header

def symbols? (operand : String) : Except Misuse Task :=
  (path? operand).map .symbols

/-- What arguments ask for that begin with no command. -/
def outside (args : List String) : Misuse :=
  match args.map String.toList with
  | ('-' :: 'h' :: _) :: _ => .help
  | ('-' :: 'V' :: _) :: _ => .version
  | _ =>
    match args with
    | ["help"] | ["help", "discover"] | ["help", "header"] | ["help", "symbols"]
    | ["help", "help"] => .help
    | "--help" :: _ => .help
    | "--version" :: _ => .version
    | _ => .wrong

/-- The command that arguments give. -/
def parse? (args : List String) : Except Misuse Command :=
  match args with
  | "discover" :: rest => ofSpecs? discoverSpecs discover? rest
  | "header" :: rest => ofSpecs? (outputSpecs ++ [includeSpec]) header? rest
  | "symbols" :: rest => ofSpecs? outputSpecs symbols? rest
  | args => .error (outside args)

/-- The configuration of a command: that of the environment with what the arguments change. -/
def config (command : Command) (environment : Environment) : Config :=
  let given := environment.config
  { given with
    extraDirs := given.extraDirs ++ command.includes
    maxIncludeDepth := command.maxDepth.getD given.maxIncludeDepth
    precedence := if command.preferDebugInfo then .debugInfo else given.precedence
    preprocessor := command.preprocessor.or given.preprocessor
    toolTimeoutMs :=
      match command.timeoutMs with
      | some 0 => none
      | some limit => some limit
      | none => given.toolTimeoutMs
    diagnostics := command.verbose }

def survey (command : Command) (surveyor : Surveyor) : Survey :=
  match command.task with
  | .discover library => surveyor.discover library command.object
  | .header file => surveyor.parseHeader file
  | .symbols object => surveyor.inspectObject object

/-- The failure that ends a command: an object is all that `symbols` has to show. -/
def failure? (command : Command) (survey : Survey) : Option Failure :=
  match command.task with
  | .symbols _ => survey.binaryFailure
  | _ => none

def shown (command : Command) (survey : Survey) : String :=
  if command.json then survey.document.render ++ "\n"
  else Listing.render survey command.verbose

def run (command : Command) (surveyor : Surveyor) : Outcome :=
  let survey := command.survey surveyor
  match command.failure? survey with
  | some failure => ⟨1, "", "Error: " ++ failure.message ++ "\n"⟩
  | none => ⟨if survey.cancelled then 130 else 0, command.shown survey, ""⟩

end Command

namespace Misuse

def usage : String :=
  "Usage: ffiscope discover LIBRARY [--object OBJECT] [-I DIR]... [--max-depth N]\n" ++
  "         [--prefer-debug-info] [--preprocessor PROGRAM] [--timeout-ms N] [--json] [-v]\n" ++
  "       ffiscope header FILE [-I DIR]... [--json] [-v]\n" ++
  "       ffiscope symbols OBJECT [--json] [-v]\n"

def outcome : Misuse → Outcome
  | .help => ⟨0, usage, ""⟩
  | .version => ⟨0, "ffiscope 0.0.0\n", ""⟩
  | .wrong => ⟨2, "", usage⟩

end Misuse

/-- The whole program on files that are at hand: logging starts first, then the arguments are read,
then the command runs. Only the scripts among the files are run as tools. -/
def Command.runWith (tree : FileTree) (environment : Environment) (args : List String) : Outcome :=
  match Log.start tree environment with
  | .error fault => ⟨1, "", "Failed to initialize logging: " ++ fault.message ++ "\n"⟩
  | .ok tree =>
    match Command.parse? args with
    | .error misuse => misuse.outcome
    | .ok command =>
      command.run ⟨command.config environment, tree.view, Script.behaviour tree, .never⟩

end LibSurvey
