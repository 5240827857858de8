import LibSurvey.Demand

/-!
The program: it reads the files that a command asks for, and prints what the command answers.
-/

namespace LibSurvey

def variableNames : List String :=
  ["FFISCOPE_MAX_INCLUDE_DEPTH", "FFISCOPE_INCLUDE_PATH", "PKG_CONFIG", "FFISCOPE_PREPROCESSOR",
    "FFISCOPE_TOOL_TIMEOUT_MS", "FFISCOPE_PREFER_DEBUG_INFO"]

def readEnvironment : IO Environment :=
  variableNames.filterMapM fun name => do
    pure ((← IO.getEnv name).map fun value => (name, value))

def readFile (path : Path) : IO (Option ByteArray) := do
  match ← (IO.FS.readBinFile path.text).toBaseIO with
  | .ok content => pure (some content)
  | .error _ => pure none

/-- Reads files until nothing more is asked for that has not been tried. -/
partial def gather (wanted : FileTree → List Path) (tried : List String) (tree : FileTree) :
    IO FileTree := do
  let asked := Text.distinct ((wanted tree).map Path.text)
  match asked.filter fun text => !tried.contains text with
  | [] => pure tree
  | texts =>
    let mut grown := tree
    for text in texts do
      if let some content ← readFile ⟨text⟩ then
        grown := grown.insert ⟨text⟩ (.file content true)
    gather wanted (tried ++ texts) grown

/-- Runs the command that the arguments give. -/
def runArguments (args : List String) : IO UInt32 := do
  let environment ← readEnvironment
  let here := (Path.mk (toString (← IO.currentDir))).pieces.filter fun piece => !piece.isEmpty
  let tree ← match Command.parse? args with
    | .ok command => gather (Demand.paths command environment) [] (.empty here)
    | .error _ => pure (.empty here)
  let outcome := Command.runWith tree environment args
  IO.print outcome.output
  IO.eprint outcome.errors
  pure outcome.code.toUInt32

end LibSurvey

def main (args : List String) : IO UInt32 :=
  LibSurvey.runArguments args
