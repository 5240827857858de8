import LibSurvey.Header.Annotations
import LibSurvey.Path

/-!
What a caller decides about a survey.
-/

namespace LibSurvey

/-- Which signature is kept for a function that headers and debug information both describe. -/
inductive Precedence where
  | header
  | debugInfo
deriving DecidableEq, Repr

structure Config where
  maxIncludeDepth : Nat
  extraDirs : List Path
  systemDirs : List Path
  packageTool : String
  preprocessor : Option String
  toolTimeoutMs : Option Nat
  precedence : Precedence
  annotations : Annotations
  diagnostics : Bool
deriving DecidableEq, Repr

namespace Config

/-- The directories in which headers stand by convention. -/
def conventionalDirs : List Path :=
  [⟨"./include"⟩, ⟨"/usr/include"⟩, ⟨"/usr/local/include"⟩]

def default : Config where
  maxIncludeDepth := 20
  extraDirs := []
  systemDirs := conventionalDirs
  packageTool := "pkg-config"
  preprocessor := none
  toolTimeoutMs := some 10000
  precedence := .header
  annotations := ⟨[]⟩
  diagnostics := false

instance : Inhabited Config := ⟨default⟩

end Config
end LibSurvey
