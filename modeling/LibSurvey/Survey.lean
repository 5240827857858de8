import LibSurvey.Header.Session
import LibSurvey.Locate
import LibSurvey.Merge
import LibSurvey.Preprocess

/-!
A survey of one library: its headers are located and walked, perhaps preprocessed as well, and an
object is read. Each stage adds to what the stages before it found and loses none of it. Only
cancellation ends a survey early, and what was found until then stays.
-/

namespace LibSurvey

structure Survey where
  library : String
  header : Option Path
  searchPaths : List Path
  /-- The machine of the object that was read. -/
  architecture : Option Architecture
  constants : ConstantSet
  macros : MacroSet
  functions : FoundFunctions
  /-- Why an object told nothing. -/
  binaryFailure : Option Failure
  cancelled : Bool
  diagnostics : List Diagnostic

/-- What a survey depends on and never changes. -/
structure Surveyor where
  config : Config
  files : FileView
  tools : ToolCall → ToolBehaviour
  cancellation : Cancellation

/-- A survey under way. -/
structure Progress where
  found : Survey
  sink : Diagnostics
  course : Course

namespace Progress

/-- Goes on with the next stage unless the survey was cancelled. -/
def andThen (progress : Progress) (next : Progress → Progress) : Progress :=
  if progress.found.cancelled then progress else next progress

def note (progress : Progress) (stage : Stage) (failure : Failure) : Progress :=
  { progress with sink := progress.sink.record stage failure.message }

/-- The same survey, cancelled. -/
def cancel (progress : Progress) : Progress :=
  { progress with found := { progress.found with cancelled := true } }

def finish (progress : Progress) : Survey :=
  { progress.found with diagnostics := progress.sink.entries }

end Progress

namespace Survey

def start (library : String) : Survey :=
  ⟨library, none, [], none, ∅, ∅, ∅, none, false, []⟩

end Survey

namespace Surveyor

def runner (surveyor : Surveyor) : ToolRunner :=
  ⟨surveyor.tools, surveyor.config.toolTimeoutMs, surveyor.cancellation⟩

def around (surveyor : Surveyor) : Surroundings :=
  ⟨surveyor.files, surveyor.cancellation⟩

def start (surveyor : Surveyor) (library : String) : Progress :=
  ⟨.start library, .empty surveyor.config.diagnostics, .start⟩

/-- Looks whether the survey has been cancelled. -/
def check (surveyor : Surveyor) (progress : Progress) : Progress :=
  let isSet := surveyor.cancellation.isSet progress.course
  { progress with
    found := { progress.found with cancelled := progress.found.cancelled || isSet }
    course := progress.course.looked }

/-- Functions that are known already stay as they are. -/
def addHeaderFunctions (known : FoundFunctions) (found : List (String × Signature)) :
    FoundFunctions :=
  found.foldl (fun functions entry =>
    functions.insertIfNew entry.1 (.typed entry.2 .header)) known

/-- Takes over what the walk of a session found, even if it was cut short. -/
def takeWalk (progress : Progress) (walked : Walked) : Progress :=
  let signatures := walked.session.findings.signatures
  { found := { progress.found with
      constants := signatures.constants
      macros := signatures.macros
      functions := addHeaderFunctions progress.found.functions signatures.functions.toList
      cancelled := walked.cancelled }
    sink := progress.sink.extend walked.session.findings.diagnostics
    course := walked.session.course }

def walkHeader (surveyor : Surveyor) (header : Path) (progress : Progress) : Progress :=
  let session := Session.start surveyor.config progress.found.searchPaths progress.course
  takeWalk progress (session.walk surveyor.around .byTokens header)

/-- Adds the functions that only preprocessing shows. A preprocessor that fails is only noted. -/
def preprocess (surveyor : Surveyor) (program : String) (header : Path) (progress : Progress) :
    Progress :=
  match Preprocess.functions surveyor.runner progress.course program header
      progress.found.searchPaths surveyor.config.annotations with
  | (.ok found, course) =>
    { progress with
      found := { progress.found with
        functions := addHeaderFunctions progress.found.functions found }
      course }
  | (.error .cancelled, course) => { progress with course }.cancel
  | (.error failure, course) => { progress with course }.note .preprocess failure

/-- The stages that read a header. -/
def readHeader (surveyor : Surveyor) (header : Path) (progress : Progress) : Progress :=
  let walked := (surveyor.check progress).andThen (surveyor.walkHeader header)
  match surveyor.config.preprocessor with
  | none => walked
  | some program =>
    (walked.andThen surveyor.check).andThen (surveyor.preprocess program header)

/-- Finds where headers are, or that the survey was cancelled meanwhile. -/
def locatePaths (surveyor : Surveyor) (library : String) (progress : Progress) : Progress :=
  match Locate.searchPaths surveyor.config surveyor.runner progress.course progress.sink library
  with
  | (.ok paths, sink, course) =>
    { found := { progress.found with searchPaths := paths.all }, sink, course }
  | (.error _, sink, course) => { progress with sink, course }.cancel

/-- Finds and reads the main header. A library without one is only noted. -/
def readMainHeader (surveyor : Surveyor) (library : String) (progress : Progress) : Progress :=
  match SearchPaths.mainHeader? surveyor.files library progress.found.searchPaths with
  | .error failure => progress.note .locate failure
  | .ok header =>
    surveyor.readHeader header
      { progress with found := { progress.found with header := some header } }

def headerStages (surveyor : Surveyor) (library : String) (progress : Progress) : Progress :=
  ((surveyor.check progress).andThen (surveyor.locatePaths library)).andThen
    (surveyor.readMainHeader library)

/-- Takes over what an object told. -/
def takeBinary (surveyor : Surveyor) (binary : BinarySignatures) (progress : Progress) :
    Progress :=
  let merged :=
    Merge.functions surveyor.config.precedence progress.found.functions binary progress.sink
  { progress with
    found := { progress.found with
      architecture := some binary.architecture, functions := merged.1 }
    sink := merged.2 }

def readObject (surveyor : Surveyor) (object : Path) (progress : Progress) : Progress :=
  match BinarySignatures.read surveyor.files object progress.sink with
  | .ok (binary, sink) =>
    (surveyor.check { progress with sink }).andThen (surveyor.takeBinary binary)
  | .error failure =>
    { progress with found := { progress.found with binaryFailure := some failure } }.note
      .debugInfo failure

def binaryStages (surveyor : Surveyor) (object : Path) (progress : Progress) : Progress :=
  (surveyor.check progress).andThen (surveyor.readObject object)

/-- Surveys a library by its headers and, if one is given, an object. -/
def discover (surveyor : Surveyor) (library : String) (object : Option Path) : Survey :=
  let headers := surveyor.headerStages library (surveyor.start library)
  match object with
  | none => headers.finish
  | some object => (headers.andThen (surveyor.binaryStages object)).finish

/-- Surveys a library by its headers alone. -/
def discoverHeaders (surveyor : Surveyor) (library : String) : Survey :=
  (surveyor.headerStages library (surveyor.start library)).finish

/-- The name of a library that is given by a file. -/
def libraryOf (file : Path) : String :=
  file.fileStem?.getD ""

/-- The directories to search from a header that is given by its path. -/
def pathsAround (surveyor : Surveyor) (header : Path) : List Path :=
  surveyor.config.extraDirs ++ header.parent?.toList ++ surveyor.config.systemDirs

/-- Surveys a header that need not be located. -/
def parseHeader (surveyor : Surveyor) (header : Path) : Survey :=
  let begun := surveyor.start (libraryOf header)
  (surveyor.readHeader header
    { begun with found := { begun.found with
        header := some header, searchPaths := surveyor.pathsAround header } }).finish

/-- Surveys an object alone. -/
def inspectObject (surveyor : Surveyor) (object : Path) : Survey :=
  (surveyor.binaryStages object (surveyor.start (libraryOf object))).finish

end Surveyor
end LibSurvey
