/-!
Diagnostics: the conditions that a survey absorbed, each under the stage that met it.
-/

namespace LibSurvey

inductive Stage where
  | locate
  | include
  | parse
  | fallback
  | evaluate
  | preprocess
  | debugInfo
  | symbols
  | merge
deriving DecidableEq, Repr

def Stage.name : Stage → String
  | .locate => "locate"
  | .include => "include"
  | .parse => "parse"
  | .fallback => "fallback"
  | .evaluate => "evaluate"
  | .preprocess => "preprocess"
  | .debugInfo => "debug-info"
  | .symbols => "symbols"
  | .merge => "merge"

structure Diagnostic where
  stage : Stage
  message : String
deriving DecidableEq, Repr

def Diagnostic.render (diagnostic : Diagnostic) : String :=
  "[" ++ diagnostic.stage.name ++ "] " ++ diagnostic.message

/-- A sink for diagnostics. A disabled one drops what is recorded in it. -/
structure Diagnostics where
  enabled : Bool
  entries : List Diagnostic
deriving DecidableEq, Repr

namespace Diagnostics

def empty (enabled : Bool) : Diagnostics :=
  ⟨enabled, []⟩

def record (sink : Diagnostics) (stage : Stage) (message : String) : Diagnostics :=
  if sink.enabled then { sink with entries := sink.entries ++ [⟨stage, message⟩] } else sink

/-- Adds the entries of another sink, which has already dropped what it did not want. -/
def extend (sink other : Diagnostics) : Diagnostics :=
  { sink with entries := sink.entries ++ other.entries }

end Diagnostics
end LibSurvey
