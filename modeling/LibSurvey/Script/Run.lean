import LibSurvey.FileTree
import LibSurvey.Script.Expand
import LibSurvey.Script.Parser
import LibSurvey.Script.Programs
import LibSurvey.Tool

/-!
Scripts as tools: what a script leaves when it is run, and what becomes of a call of a program that
may be such a script.
-/

namespace LibSurvey.Script

/-- Why the commands that follow are not run: the script has ended, or a turn of a loop has, with the
loop or without it. -/
inductive Ending where
  | exits (status : ExitStatus)
  | leavesLoop
  | nextTurn
deriving DecidableEq, Repr

/-- A script at work. `files` are those that it has written. -/
structure Machine where
  scope : Scope
  files : List (String × List UInt8)
  input : List UInt8
  output : ByteArray
  errors : ByteArray
  elapsedMs : Nat
  ended : Option Ending

/-- The bytes with more after them. -/
def append (bytes : ByteArray) (more : List UInt8) : ByteArray :=
  more.foldl ByteArray.push bytes

namespace Machine

def setStatus (machine : Machine) (status : Nat) : Machine :=
  { machine with scope := { machine.scope with status } }

/-- Takes in what a program leaves. -/
def absorb (machine : Machine) (effect : Effect) : Machine :=
  { machine with
    scope := { machine.scope with status := effect.status }
    input := effect.input
    output := append machine.output effect.output
    errors := append machine.errors effect.errors
    elapsedMs := machine.elapsedMs + effect.elapsedMs }

def finish (machine : Machine) (status : ExitStatus) : Machine :=
  { machine with ended := some (.exits status) }

def exitStatus (machine : Machine) : ExitStatus :=
  match machine.ended with
  | some (.exits status) => status
  | _ => .code machine.scope.status

/-- The same place with nothing written yet. -/
def fresh (machine : Machine) : Machine :=
  { machine with output := .empty, errors := .empty, elapsedMs := 0 }

/-- A machine that does not come to an end within a day. -/
def exhaust (machine : Machine) : Machine :=
  { machine.finish (.code 0) with elapsedMs := machine.elapsedMs + 86400000 }

/-- The status that a script ends with. -/
def lastStatus (machine : Machine) : Nat :=
  match machine.exitStatus with
  | .code status => status
  | .signal number => 128 + number

/-- Goes on after something that ran apart. A signal to the script ends it from anywhere. -/
def resume (machine apart : Machine) : Machine :=
  match apart.exitStatus with
  | .code status => machine.setStatus status
  | .signal number => machine.finish (.signal number)

/-- Goes on after a loop. -/
def afterLoop (machine : Machine) : Machine :=
  if machine.ended = some .leavesLoop then { machine with ended := none } else machine

/-- Goes on after a turn of a loop. -/
def afterTurn (machine : Machine) : Machine :=
  if machine.ended = some .nextTurn then { machine with ended := none } else machine

/-- Reads a file, one of its own before any other. -/
def read (machine : Machine) (read : ReadFile) : ReadFile := fun name =>
  if name = "/dev/null" then .ok []
  else match machine.files.lookup name with
    | some bytes => .ok bytes
    | none => read name

def write (machine : Machine) (name : String) (bytes : List UInt8) : Machine :=
  { machine with files := (name, bytes) :: machine.files.filter (·.1 != name) }

end Machine

/-- How commands within a command are run. -/
abbrev RunInner : Type := Machine → Command → Machine

def signalNumber (name : String) : Nat :=
  match name.toNat? with
  | some number => number
  | none =>
    ((ExitStatus.signalNames.find? fun (_, known) =>
      known = name || known = "SIG" ++ name).map Prod.fst).getD 15

/-- The signal that `kill` sends to the script itself, if it does. -/
def killed? (args : List String) : Option Nat :=
  match args with
  | ["$$"] => some 15
  | ["-s", name, "$$"] => some (signalNumber name)
  | [flag, "$$"] => some (signalNumber (String.ofList (flag.toList.drop 1)))
  | _ => none

/-- Divides a line among names; the last one gets what is left. -/
def readInto (scope : Scope) (names : List String) (line : List Char) : Scope :=
  match names with
  | [] => scope
  | [name] => scope.assign name (String.ofList (Text.trim line))
  | name :: rest =>
    let line := Text.trimLeft line
    let first := line.takeWhile (!Text.isBlank ·)
    readInto (scope.assign name (String.ofList first)) rest (line.drop first.length)

/-- Takes a line from the input; there has to be one that ends. -/
def readLine (machine : Machine) (names : List String) : Machine :=
  let line := machine.input.takeWhile (· != 10)
  let scope := readInto machine.scope names (Text.Utf8.decodeLossy line)
  let status := if line.length < machine.input.length then 0 else 1
  { machine with scope := { scope with status }, input := machine.input.drop (line.length + 1) }

/-- The name of a program without the directory where it is kept. -/
def programName (path : String) : String :=
  let base := ((Path.mk path).fileName?).getD path
  if path = "/bin/" ++ base || path = "/usr/bin/" ++ base then base else path

/-- Runs a program, unless there is none of that name. -/
def callProgram (read : ReadFile) (line : Nat) (machine : Machine) (name : String)
    (args : List String) : Machine :=
  machine.absorb ((program? (machine.read read) (programName name) args machine.input).getD
    (Effect.complain machine.input 127 s!"{machine.scope.script}: {line}: {name}: not found"))

def shells : List String :=
  ["sh", "bash", "dash", "ash"]

/-- What a shell is called to run: the name of the script, its text, its arguments and its input. -/
structure ShellCall where
  name : String
  text : List Char
  args : List String
  input : List UInt8

/-- A call of a shell: with a script, with a file that holds one, or with one as its input. -/
def shellCall (read : ReadFile) (shell : String) (args : List String) (input : List UInt8) :
    Except String ShellCall :=
  match args with
  | "-c" :: text :: rest => .ok ⟨rest.head?.getD shell, text.toList, rest.tail, input⟩
  | _ =>
    match args.dropWhile fun arg => arg.startsWith "-" with
    | [] => .ok ⟨shell, Text.Utf8.decodeLossy input, [], []⟩
    | file :: args =>
      match read file with
      | .ok bytes => .ok ⟨file, Text.Utf8.decodeLossy bytes, args, input⟩
      | .error _ => .error s!"{shell}: 0: cannot open {file}: No such file"

def callShell (inner : RunInner) (read : ReadFile) (machine : Machine) (name : String)
    (args : List String) : Machine :=
  match shellCall (machine.read read) name args machine.input with
  | .error complaint => machine.absorb (Effect.complain machine.input 2 complaint)
  | .ok shell =>
    let after := inner
      { machine with scope := ⟨shell.name, shell.args, [], 0⟩, input := shell.input }
      (parse shell.text)
    { after with scope := { machine.scope with status := after.lastStatus }, ended := none }

/-- Runs a command by its name and the fields after it. -/
def call (inner : RunInner) (read : ReadFile) (line : Nat) (machine : Machine) (name : String)
    (args : List String) : Machine :=
  match name with
  | ":" | "export" | "umask" | "trap" | "wait" | "ulimit" => machine.setStatus 0
  | "exit" =>
    machine.finish (.code ((args.head?.bind String.toNat?).getD machine.scope.status % 256))
  | "shift" =>
    let count := (args.head?.bind String.toNat?).getD 1
    { machine with scope := { machine.scope with args := machine.scope.args.drop count } }
  | "set" =>
    match args with
    | "--" :: args => { machine with scope := { machine.scope with args, status := 0 } }
    | _ => machine.setStatus 0
  | "kill" =>
    match killed? args with
    | some 0 => machine.setStatus 0
    | some number => machine.finish (.signal number)
    | none => machine.setStatus 1
  | "break" => { machine with ended := some .leavesLoop }
  | "continue" => { machine with ended := some .nextTurn }
  | "read" => readLine machine (args.filter (· != "-r"))
  | "eval" => inner machine (parse (" ".intercalate args).toList)
  | _ =>
    if shells.contains (programName name) then callShell inner read machine (programName name) args
    else callProgram read line machine name args

def callFields (inner : RunInner) (read : ReadFile) (line : Nat) (machine : Machine)
    (fields : List String) : Machine :=
  match fields with
  | [] | ["exec"] => machine
  | "exec" :: name :: args =>
    let machine := call inner read line machine name args
    machine.finish machine.exitStatus
  | "command" :: name :: args => call inner read line machine name args
  | name :: args => call inner read line machine name args

/-- Output without the ends of lines that close it. -/
def printedText (output : ByteArray) : List Char :=
  Text.dropLastWhile (· = '\n') (Text.Utf8.decodeLossy output.toList)

/-- Runs the scripts in a word, so that it refers to nothing but the scope. -/
def settle (inner : RunInner) (machine : Machine) (word : Word) : Machine × Word :=
  word.foldl (fun (machine, parts) part =>
    match part with
    | .command script quoted =>
      let after := inner machine.fresh (parse script)
      ({ (machine.resume after) with
          files := after.files
          input := after.input
          errors := machine.errors ++ after.errors
          elapsedMs := machine.elapsedMs + after.elapsedMs },
        parts ++ [.printed (printedText after.output) quoted])
    | part => (machine, parts ++ [part])) (machine, [])

def settleAll (inner : RunInner) (machine : Machine) (words : List Word) : Machine × List Word :=
  words.foldl (fun (machine, settled) word =>
    let (machine, word) := settle inner machine word
    (machine, settled ++ [word])) (machine, [])

/-- Where a stream of a command goes. -/
inductive Sink where
  | output
  | errors
  | file (name : String)
deriving DecidableEq

/-- What redirections make of the three streams of a command. -/
structure Streams where
  input : Option (List UInt8)
  output : Sink
  errors : Sink

def redirectStream (read : ReadFile) (machine : Machine) (streams : Streams) :
    Redirect → Machine × Streams
  | .join source target =>
    let sink := if target = 1 then streams.output else streams.errors
    if target = 1 || target = 2 then
      (machine, if source = 1 then { streams with output := sink }
        else if source = 2 then { streams with errors := sink } else streams)
    else (machine, streams)
  | .toFile source target keeps =>
    let name := oneText machine.scope target
    if name = "/dev/stdout" || name = "/dev/stderr" then
      let sink := if name = "/dev/stdout" then streams.output else streams.errors
      (machine, if source = 2 then { streams with errors := sink }
        else { streams with output := sink })
    else
      let old := if keeps then ((machine.read read name).toOption).getD [] else []
      (machine.write name old,
        if source = 2 then { streams with errors := .file name }
        else { streams with output := .file name })
  | .fromText text =>
    let bytes := bytesOf (oneText machine.scope text).toList
    (machine, { streams with input := some bytes })
  | .fromFile source =>
    let bytes := ((machine.read read (oneText machine.scope source)).toOption).getD []
    (machine, { streams with input := some bytes })

/-- Brings what a command has written to a place. -/
def deliver (read : ReadFile) (machine : Machine) (sink : Sink) (bytes : ByteArray) : Machine :=
  match sink with
  | .output => { machine with output := machine.output ++ bytes }
  | .errors => { machine with errors := machine.errors ++ bytes }
  | .file name =>
    if name = "/dev/null" then machine
    else machine.write name (((machine.read read name).toOption).getD [] ++ bytes.toList)

def settleRedirect (inner : RunInner) (machine : Machine) : Redirect → Machine × Redirect
  | .join source target => (machine, .join source target)
  | .toFile source target keeps =>
    let (machine, target) := settle inner machine target
    (machine, .toFile source target keeps)
  | .fromFile source =>
    let (machine, source) := settle inner machine source
    (machine, .fromFile source)
  | .fromText text =>
    let (machine, text) := settle inner machine text
    (machine, .fromText text)

/-- Runs a command whose streams are redirected. -/
def withRedirects (inner : RunInner) (read : ReadFile) (redirects : List Redirect)
    (body : Machine → Machine) (machine : Machine) : Machine :=
  if redirects.isEmpty then body machine
  else
    let (machine, streams) := redirects.foldl (fun (machine, streams) redirect =>
      let (machine, redirect) := settleRedirect inner machine redirect
      redirectStream read machine streams redirect)
      (machine, (⟨none, .output, .errors⟩ : Streams))
    let after := body { machine.fresh with input := streams.input.getD machine.input }
    let whole : Machine := { after with
      input := if streams.input.isSome then machine.input else after.input
      output := machine.output
      errors := machine.errors
      elapsedMs := machine.elapsedMs + after.elapsedMs }
    deliver read (deliver read whole streams.output after.output) streams.errors after.errors

/-- Takes values over into the variables. -/
def assignAll (inner : RunInner) (machine : Machine) (assignments : List (String × Word)) :
    Machine :=
  assignments.foldl (fun machine (name, value) =>
    let (machine, value) := settle inner machine value
    { machine with scope := machine.scope.assign name (oneText machine.scope value) }) machine

/-- Runs a simple command. Values given before a name hold only while it runs, and not for its
words. -/
def runSimple (inner : RunInner) (read : ReadFile) (machine : Machine)
    (assignments : List (String × Word)) (words : List Word) (redirects : List Redirect)
    (line : Nat) : Machine :=
  let (machine, words) :=
    settleAll inner (if words.isEmpty then machine.setStatus 0 else machine) words
  let fields := words.flatMap (fieldsOf machine.scope)
  let assigned := assignAll inner machine assignments
  let after := withRedirects inner read redirects
    (fun machine => callFields inner read line machine fields) assigned
  if assignments.isEmpty || fields.isEmpty then after
  else { after with scope := { after.scope with bindings := machine.scope.bindings } }

/-- Runs a command with so many steps left. A script that needs more is one that goes on and on. -/
def run (read : ReadFile) : Nat → Machine → Command → Machine
  | 0, machine, _ => if machine.ended.isSome then machine else machine.exhaust
  | steps + 1, machine, command =>
    if machine.ended.isSome then machine
    else match command with
    | .nothing => machine
    | .simple assignments words redirects line =>
      runSimple (run read steps) read machine assignments words redirects line
    | .sequence first second => run read steps (run read steps machine first) second
    | .both first second =>
      let machine := run read steps machine first
      if machine.scope.status = 0 then run read steps machine second else machine
    | .either first second =>
      let machine := run read steps machine first
      if machine.scope.status = 0 then machine else run read steps machine second
    | .negate command =>
      let machine := run read steps machine command
      machine.setStatus (if machine.scope.status = 0 then 1 else 0)
    | .pipe first second =>
      let left := run read steps machine.fresh first
      let right := run read steps
        { machine.fresh with input := left.output.toList, files := left.files } second
      { ((machine.resume left).resume right) with
        files := right.files
        input := left.input
        output := machine.output ++ right.output
        errors := machine.errors ++ left.errors ++ right.errors
        elapsedMs := machine.elapsedMs + max left.elapsedMs right.elapsedMs }
    | .choose subject arms =>
      let (machine, subject) := settle (run read steps) machine subject
      let text := (oneText machine.scope subject).toList
      match arms.find? fun (words, _) =>
          words.any fun word => matchesPattern (patternOf machine.scope word) text with
      | some (_, body) => run read steps machine body
      | none => machine.setStatus 0
    | .branch condition yes no =>
      let machine := run read steps machine condition
      if machine.ended.isSome then machine
      else if machine.scope.status = 0 then run read steps machine yes
      else run read steps (machine.setStatus 0) no
    | .loop condition body =>
      let machine := run read steps machine condition
      if machine.ended.isSome then machine.afterLoop
      else if machine.scope.status = 0 then
        let machine := (run read steps machine body).afterTurn
        if machine.ended.isSome then machine.afterLoop
        else run read steps machine (.loop condition body)
      else machine.setStatus 0
    | .each name words body =>
      let (machine, words) := settleAll (run read steps) machine words
      ((words.flatMap (fieldsOf machine.scope)).foldl (fun machine value =>
        if machine.ended.isSome then machine
        else
          (run read steps { machine with scope := machine.scope.assign name value } body).afterTurn)
        machine).afterLoop
    | .apart body =>
      let after := run read steps machine body
      { after with scope := machine.scope, ended := none }.resume after
    | .redirected body redirects =>
      withRedirects (run read steps) read redirects (fun machine => run read steps machine body)
        machine

/-- How many commands may stand inside one another or follow from a loop. -/
def maxSteps : Nat := 100000

/-- What a script leaves. -/
def outcome (read : ReadFile) (name : String) (text : List Char) (args : List String)
    (input : List UInt8) : ToolOutcome :=
  let machine := run read maxSteps ⟨⟨name, args, [], 0⟩, [], input, .empty, .empty, 0, none⟩
    (parse text)
  ⟨machine.elapsedMs, machine.exitStatus, machine.output.toList, machine.errors.toList⟩

/-- The words of the line that names the interpreter of a script. -/
def interpreter? (text : List Char) : Option (List String) :=
  match text with
  | '#' :: '!' :: rest => some ((Text.words (rest.takeWhile (· != '\n'))).map String.ofList)
  | _ => none

/-- The call of a shell or another known program by its name alone. -/
def knownCall (read : ReadFile) (name : String) (args : List String) (input : List UInt8) :
    ToolBehaviour :=
  if shells.contains name then
    match shellCall read name args input with
    | .ok shell => .finishes (outcome read shell.name shell.text shell.args shell.input)
    | .error complaint => .finishes ⟨0, .code 2, [], bytesOf (complaint ++ "\n").toList⟩
  else match program? read name args input with
    | some effect =>
      .finishes ⟨effect.elapsedMs, .code effect.status, effect.output, effect.errors⟩
    | none => .missing OsError.notFound.message

/-- The call of a known program by the path where it is kept. -/
def storedCall (read : ReadFile) (path : String) (args : List String) (input : List UInt8) :
    ToolBehaviour :=
  if programName path = path then .missing OsError.notFound.message
  else knownCall read (programName path) args input

/-- The call of a file by the interpreter that it names. -/
def interpretedCall (read : ReadFile) (words : List String) (args : List String)
    (input : List UInt8) : ToolBehaviour :=
  match words with
  | "/usr/bin/env" :: name :: _ => knownCall read name args input
  | path :: options => storedCall read path (options ++ args) input
  | [] => .missing OsError.notExecutable.message

/-- What a call of a program does when the programs are the scripts of a tree. A name with a slash
is a path; any other is a program that is there without being a file of the tree. -/
def behaviour (tree : FileTree) (request : ToolCall) : ToolBehaviour :=
  let read : ReadFile := fun name => (tree.read ⟨name⟩).map ByteArray.toList
  if request.program.contains '/' then
    match tree.resolve ⟨request.program⟩ with
    | .error .notFound => storedCall read request.program request.args request.input
    | .error error => .missing error.message
    | .ok (_, .file content true) =>
      match interpreter? (Text.Utf8.decodeLossy content.toList) with
      | some words => interpretedCall read words (request.program :: request.args) request.input
      | none => .missing OsError.notExecutable.message
    | .ok _ => .missing OsError.denied.message
  else knownCall read request.program request.args request.input

end LibSurvey.Script
