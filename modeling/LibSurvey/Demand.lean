import LibSurvey.Command

/-!
The files that a command may ask for, as far as the files at hand tell. Once all of them that exist
are at hand, the command gives its final answer.
-/

namespace LibSurvey.Demand

/-- The names that a header includes. -/
def includesOf (annotations : Annotations) (content : ByteArray) : List String :=
  Emission.includes <|
    match Declarations.ofBytes? annotations content.toList with
    | .ok emissions => emissions
    | .error _ => Reading.lineEmissions annotations content.toList

/-- The directories that a command searches. -/
def dirs (surveyor : Surveyor) : Task → List Path
  | .discover library =>
    match (Locate.searchPaths surveyor.config surveyor.runner .start (.empty false) library).1 with
    | .ok paths => paths.all
    | .error _ => []
  | .header file => surveyor.pathsAround file
  | .symbols _ => []

/-- The files that the task of a command asks for. -/
def named (surveyor : Surveyor) : Task → List Path
  | .discover library =>
    (dirs surveyor (.discover library)).flatMap fun dir =>
      (LibraryName.candidates library).map dir.join
  | .header file => [file]
  | .symbols object => [object]

/-- The programs that are files. -/
def programs (config : Config) : List Path :=
  ((config.packageTool :: config.preprocessor.toList).filter (·.contains '/')).map Path.mk

/-- The files that the files at hand include. -/
def included (surveyor : Surveyor) (tree : FileTree) (dirs : List Path) : List Path :=
  tree.nodes.toList.flatMap fun entry =>
    match entry.2 with
    | .file content _ =>
      let places := (Path.mk entry.1).parent?.toList ++ dirs
      (includesOf surveyor.config.annotations content).flatMap fun name =>
        places.map fun dir => dir.join ⟨name⟩
    | _ => []

def paths (command : Command) (environment : Environment) (tree : FileTree) : List Path :=
  let config := command.config environment
  let surveyor : Surveyor := ⟨config, tree.view, Script.behaviour tree, .never⟩
  programs config ++ command.object.toList ++ named surveyor command.task ++
    included surveyor tree (dirs surveyor command.task)

end LibSurvey.Demand
