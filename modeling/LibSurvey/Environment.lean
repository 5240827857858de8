import LibSurvey.Config
import LibSurvey.Text.Casing
import LibSurvey.Text.Natural

/-!
Configuration from environment variables. A variable whose value makes no sense is as good as none.
-/

namespace LibSurvey

/-- Variables by name; of several with one name the first counts. -/
abbrev Environment := List (String × String)

namespace Environment

/-- The value of a variable without blanks around it, if there is one. -/
def trimmed? (environment : Environment) (name : String) : Option (List Char) :=
  (environment.lookup name).map fun value => Text.trim value.toList

def natural? (environment : Environment) (name : String) : Option Nat :=
  (environment.trimmed? name).bind Text.natural?

/-- The name of a program, which cannot be empty. -/
def program? (environment : Environment) (name : String) : Option String :=
  (environment.trimmed? name).bind fun value =>
    if value.isEmpty then none else some (String.ofList value)

/-- The directories in a list that colons separate. -/
def dirs (environment : Environment) (name : String) : List Path :=
  match environment.lookup name with
  | some value =>
    ((Text.splitAt (· = ':') value.toList).filter fun piece => !piece.isEmpty).map fun piece =>
      ⟨String.ofList piece⟩
  | none => []

def isYes (value : List Char) : Bool :=
  ["1", "true", "yes", "on"].contains (String.ofList (Text.lower value))

def flag (environment : Environment) (name : String) : Bool :=
  (environment.trimmed? name).any isYes

/-- The default configuration with what the environment changes of it. A time limit of zero is
none. -/
def config (environment : Environment) : Config :=
  { Config.default with
    maxIncludeDepth :=
      (environment.natural? "FFISCOPE_MAX_INCLUDE_DEPTH").getD Config.default.maxIncludeDepth
    extraDirs := environment.dirs "FFISCOPE_INCLUDE_PATH"
    packageTool := (environment.program? "PKG_CONFIG").getD Config.default.packageTool
    preprocessor := environment.program? "FFISCOPE_PREPROCESSOR"
    toolTimeoutMs :=
      match environment.natural? "FFISCOPE_TOOL_TIMEOUT_MS" with
      | some 0 => none
      | some limit => some limit
      | none => Config.default.toolTimeoutMs
    precedence :=
      if environment.flag "FFISCOPE_PREFER_DEBUG_INFO" then .debugInfo else .header }

end Environment
end LibSurvey
