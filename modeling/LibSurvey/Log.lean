import LibSurvey.Environment
import LibSurvey.FileTree

/-!
The settings of a log, and the place of its file. What is written to a log is no result, but a log
file whose directory cannot be made keeps the program from starting.
-/

namespace LibSurvey.Log

inductive Format where
  | pretty
  | json
deriving DecidableEq, Repr

inductive Level where
  | error
  | warn
  | info
  | debug
  | trace
deriving DecidableEq, Repr

inductive Fault where
  | invalidFormat (text : String)
  | invalidLevel (text : String)
  | file (error : OsError)
deriving DecidableEq, Repr

def Fault.message : Fault → String
  | .invalidFormat text => "Invalid log format: " ++ text ++ ". Use 'pretty' or 'json'"
  | .invalidLevel text =>
    "Invalid log level: " ++ text ++ ". Use 'error', 'warn', 'info', 'debug', or 'trace'"
  | .file error => "File logging error: " ++ error.message

namespace Format

def name : Format → String
  | .pretty => "pretty"
  | .json => "json"

/-- The format of a name in any case. -/
def ofName? (text : String) : Except Fault Format :=
  match String.ofList (Text.lower text.toList) with
  | "pretty" => .ok .pretty
  | "text" => .ok .pretty
  | "json" => .ok .json
  | _ => .error (.invalidFormat text)

end Format

namespace Level

def name : Level → String
  | .error => "error"
  | .warn => "warn"
  | .info => "info"
  | .debug => "debug"
  | .trace => "trace"

/-- The name as a log line shows it. -/
def label : Level → String
  | .error => "ERROR"
  | .warn => "WARN"
  | .info => "INFO"
  | .debug => "DEBUG"
  | .trace => "TRACE"

/-- The level of a name in any case. -/
def ofName? (text : String) : Except Fault Level :=
  match String.ofList (Text.lower text.toList) with
  | "error" => .ok .error
  | "warn" => .ok .warn
  | "warning" => .ok .warn
  | "info" => .ok .info
  | "debug" => .ok .debug
  | "trace" => .ok .trace
  | _ => .error (.invalidLevel text)

end Level

/-- The log file that the environment names. -/
def file? (environment : Environment) : Option Path :=
  (environment.lookup "FFISCOPE_LOG_FILE").bind fun value =>
    if value.isEmpty then none else some ⟨value⟩

/-- Makes the directory of a log file and the file. In a directory that is there already, a file
whose name is a date is kept instead. -/
def openFile (tree : FileTree) (file : Path) : Except Fault FileTree :=
  if tree.isDirectory file then .ok tree
  else
    let dir := match file.parent? with
      | some dir => if dir.text.isEmpty then ⟨"."⟩ else dir
      | none => ⟨"."⟩
    match tree.makeDirectories (dir.text.length + 1) dir with
    | .error error => .error (.file error)
    | .ok tree =>
      match tree.resolve file with
      | .ok _ => .ok tree
      | .error _ => .ok (tree.insert file (.file .empty false))

/-- The files after logging has started. -/
def start (tree : FileTree) (environment : Environment) : Except Fault FileTree :=
  match file? environment with
  | some file => openFile tree file
  | none => .ok tree

end LibSurvey.Log
