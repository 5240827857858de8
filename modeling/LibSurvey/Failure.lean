import LibSurvey.Path
import LibSurvey.Text.Duration

/-!
The conditions under which a step of a survey gives no answer. Most of them only cost data; the
step that meets one leaves a diagnostic and the survey goes on.
-/

namespace LibSurvey

inductive Failure where
  | toolUnavailable (program reason : String)
  | toolTimeout (program : String) (limitMs : Nat)
  | cancelled
  | headerNotFound (library : String)
  | unparsable (path : Path) (reason : String)
  | unresolvableExpression (expression : String)
  | unresolvableInclude (name : String) (includer : Path)
  | unreadableObject (path : Path) (reason : String)
  | debugInfo (reason : String)
  | io (reason : String)
deriving DecidableEq, Repr

namespace Failure

def message : Failure → String
  | .toolUnavailable program reason => s!"Tool unavailable: {program}: {reason}"
  | .toolTimeout program limitMs =>
    s!"Tool timed out after {Text.duration limitMs}: {program}"
  | .cancelled => "Discovery cancelled"
  | .headerNotFound library => s!"Header not found for library {library}"
  | .unparsable path reason => s!"Failed to parse {path.text}: {reason}"
  | .unresolvableExpression expression => s!"Unresolvable expression: {expression}"
  | .unresolvableInclude name includer => s!"Unresolvable include {name} (from {includer.text})"
  | .unreadableObject path reason => s!"Failed to open object {path.text}: {reason}"
  | .debugInfo reason => s!"Debug info error: {reason}"
  | .io reason => s!"IO error: {reason}"

/-- Whether the failure is the caller's to handle; all others only leave data out. -/
def isFatal : Failure → Bool
  | .unreadableObject _ _ => true
  | _ => false

end Failure
end LibSurvey
