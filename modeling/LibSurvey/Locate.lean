import LibSurvey.Config
import LibSurvey.Diagnostics
import LibSurvey.SearchPaths
import LibSurvey.Tool

/-!
Where the headers of a library are searched: a package tool is asked under every name of the
library, and conventional directories are added.
-/

namespace LibSurvey.Locate

/-- The failures after which no other name is tried. -/
def stops : Failure → Bool
  | .cancelled => true
  | .toolTimeout _ _ => true
  | _ => false

/-- Asks under each name in turn. The first answer with directories counts; with no answer at all the
last failure does. `failed` is that failure, and `answered` says that the tool has answered. -/
def queryNames (runner : ToolRunner) (program : String) (answered : Bool)
    (failed : Option Failure) (course : Course) :
    List String → Except Failure (List Path) × Course
  | [] =>
    match failed with
    | some failure => (if answered then .ok [] else .error failure, course)
    | none => (.ok [], course)
  | name :: rest =>
    match runner.run course ⟨program, ["--cflags", name], []⟩ with
    | (.ok output, course) =>
      let dirs := SearchPaths.ofFlags output
      if dirs.isEmpty then queryNames runner program true failed course rest
      else (.ok dirs, course)
    | (.error failure, course) =>
      if stops failure then (.error failure, course)
      else queryNames runner program answered (some failure) course rest

/-- The include directories that the package tool reports. -/
def query (config : Config) (runner : ToolRunner) (course : Course) (library : String) :
    Except Failure (List Path) × Course :=
  queryNames runner config.packageTool false none course (LibraryName.packages library)

/-- The search paths of a library. A failing tool only leaves its directories out, unless the survey
was cancelled. -/
def searchPaths (config : Config) (runner : ToolRunner) (course : Course)
    (sink : Diagnostics) (library : String) :
    Except Failure SearchPaths × Diagnostics × Course :=
  let paths (dirs : List Path) : SearchPaths := ⟨config.extraDirs, dirs, config.systemDirs⟩
  match query config runner course library with
  | (.ok dirs, course) => (.ok (paths dirs), sink, course)
  | (.error .cancelled, course) => (.error .cancelled, sink, course)
  | (.error failure, course) => (.ok (paths []), sink.record .locate failure.message, course)

end LibSurvey.Locate
