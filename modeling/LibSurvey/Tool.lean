import LibSurvey.Cancellation
import LibSurvey.Text.Blank
import LibSurvey.Text.Utf8

/-!
Running tools. What a tool does is given; here is what a survey makes of it: it looks at the tool
every few milliseconds and gives up when it is cancelled or the time is over.
-/

namespace LibSurvey

inductive ExitStatus where
  | code (code : Nat)
  | signal (number : Nat)
deriving DecidableEq, Repr

namespace ExitStatus

def signalNames : List (Nat × String) :=
  [(1, "SIGHUP"), (2, "SIGINT"), (3, "SIGQUIT"), (4, "SIGILL"), (5, "SIGTRAP"), (6, "SIGABRT"),
    (7, "SIGBUS"), (8, "SIGFPE"), (9, "SIGKILL"), (10, "SIGUSR1"), (11, "SIGSEGV"),
    (12, "SIGUSR2"), (13, "SIGPIPE"), (14, "SIGALRM"), (15, "SIGTERM")]

def message : ExitStatus → String
  | .code value => s!"exit status: {value}"
  | .signal number =>
    match signalNames.lookup number with
    | some name => s!"signal: {number} ({name})"
    | none => s!"signal: {number}"

end ExitStatus

structure ToolCall where
  program : String
  args : List String
  input : List UInt8
deriving DecidableEq, Repr

/-- What a tool leaves behind when it is allowed to finish. -/
structure ToolOutcome where
  elapsedMs : Nat
  status : ExitStatus
  output : List UInt8
  errors : List UInt8
deriving DecidableEq, Repr

/-- A tool either does not start or finishes after some time. -/
inductive ToolBehaviour where
  | missing (reason : String)
  | finishes (outcome : ToolOutcome)
deriving DecidableEq, Repr

namespace ToolOutcome

/-- Only a tool that reports success has an answer. -/
def answer (outcome : ToolOutcome) (program : String) : Except Failure String :=
  if outcome.status = .code 0 then
    .ok (String.ofList (Text.Utf8.decodeLossy outcome.output))
  else
    let errors := Text.trim (Text.Utf8.decodeLossy outcome.errors)
    .error (.toolUnavailable program s!"{outcome.status.message}: {String.ofList errors}")

end ToolOutcome

/-- What a survey needs to know to run tools: how each call goes, how long one may take, and when
the survey is cancelled. -/
structure ToolRunner where
  behaviour : ToolCall → ToolBehaviour
  timeoutMs : Option Nat
  cancellation : Cancellation

namespace ToolRunner

/-- The time between two looks at a tool. -/
def pollMs : Nat := 10

def isOver (runner : ToolRunner) (waitedMs : Nat) : Bool :=
  match runner.timeoutMs with
  | some limit => limit ≤ waitedMs
  | none => false

/-- Waits for a tool that is found running so many times more; what it then leaves is `done`. -/
def wait (runner : ToolRunner) (program : String) (done : Except Failure String)
    (waitedMs : Nat) (course : Course) : Nat → Except Failure String × Course
  | 0 => (done, course)
  | polls + 1 =>
    if runner.cancellation.isSet course then (.error .cancelled, course.looked)
    else if runner.isOver waitedMs then
      (.error (.toolTimeout program (runner.timeoutMs.getD 0)), course.looked)
    else
      runner.wait program done (waitedMs + pollMs) (course.looked.after pollMs) polls

/-- How often a tool is found running before it is found finished. -/
def pollsFor (elapsedMs : Nat) : Nat :=
  (elapsedMs + pollMs - 1) / pollMs

/-- The standard output of a tool that finished in time and without complaint. -/
def run (runner : ToolRunner) (course : Course) (call : ToolCall) :
    Except Failure String × Course :=
  if runner.cancellation.isSet course then (.error .cancelled, course.looked)
  else match runner.behaviour call with
    | .missing reason => (.error (.toolUnavailable call.program reason), course.looked)
    | .finishes outcome =>
      runner.wait call.program (outcome.answer call.program) 0 course.looked
        (pollsFor outcome.elapsedMs)

end ToolRunner
end LibSurvey
