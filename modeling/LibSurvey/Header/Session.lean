import LibSurvey.Cancellation
import LibSurvey.Config
import LibSurvey.FileTree
import LibSurvey.Header.Declarations
import LibSurvey.Header.Findings
import LibSurvey.Header.Line.Scan

/-!
A session over the headers of one library, and the walk along their includes. Each file is read at
most once in a session, wherever it is included from; files too deep, unreadable or missing are
passed over with a diagnostic, and only cancellation ends a walk.
-/

namespace LibSurvey

structure Session where
  findings : Findings
  /-- The names of the files seen so far, last first. -/
  visited : List Path
  searchPaths : List Path
  maxDepth : Nat
  annotations : Annotations
  course : Course

/-- What a session depends on and never changes. -/
structure Surroundings where
  files : FileView
  cancellation : Cancellation

namespace Session

def start (config : Config) (searchPaths : List Path) (course : Course) : Session :=
  ⟨.empty config.diagnostics, [], searchPaths, config.maxIncludeDepth, config.annotations, course⟩

def note (session : Session) (stage : Stage) (message : String) : Session :=
  { session with findings := session.findings.note stage message }

/-- Remembers a file, unless it has been seen under any of its paths. -/
def visit? (session : Session) (files : FileView) (path : Path) : Option Session :=
  let name := files.identity path
  if session.visited.any (·.same name) then none
  else some { session with visited := name :: session.visited }

/-- The file that an include names: one with a directory in its name is searched in the search paths,
any other stands beside the file that includes it. -/
def resolve? (session : Session) (files : FileView) (name : String) (includer : Path) :
    Option Path :=
  if name.toList.any fun c => c = '/' || c = '\\' then
    (session.searchPaths.map (·.join ⟨name⟩)).find? files.isFile
  else
    let beside := (includer.parent?.getD ⟨"."⟩).join ⟨name⟩
    if files.isFile beside then some beside else none

end Session

/-- How a walk reads a header: by its tokens, with its lines as a second choice, or by its lines. -/
inductive Reading where
  | byTokens
  /-- Words of its own count as annotations, or else those of the session. -/
  | byLines (own : Option Annotations := none)
deriving DecidableEq, Repr

namespace Reading

/-- The stage under which a walk reports. -/
def stage : Reading → Stage
  | .byTokens => .include
  | .byLines _ => .fallback

def unresolved (reading : Reading) (name : String) (includer : Path) : String :=
  match reading with
  | .byTokens => (Failure.unresolvableInclude name includer).message
  | .byLines _ => "unresolvable include " ++ name ++ " from " ++ includer.text

/-- What the lines of a file declare. -/
def lineEmissions (annotations : Annotations) (bytes : List UInt8) : List Emission :=
  Line.scan annotations (Text.Utf8.decodeLossy bytes)

/-- What a file declares. A file without tokens is reported and read by its lines. -/
def emissions (reading : Reading) (session : Session) (path : Path) (bytes : List UInt8) :
    List Emission × Session :=
  match reading with
  | .byLines own => (lineEmissions (own.getD session.annotations) bytes, session)
  | .byTokens =>
    match Declarations.ofBytes? session.annotations bytes with
    | .ok emissions => (emissions, session)
    | .error fault =>
      (lineEmissions session.annotations bytes,
        session.note .parse (Failure.unparsable path fault.message).message)

end Reading

/-- A session after a walk, which may have been cut short. -/
structure Walked where
  session : Session
  cancelled : Bool

namespace Session

/-- Walks along the includes of a file in order with a walk for each file they name. -/
def followAll (session : Session) (files : FileView) (reading : Reading)
    (walk : Session → Path → Walked) (includer : Path) : List String → Walked
  | [] => ⟨session, false⟩
  | name :: rest =>
    match session.resolve? files name includer with
    | none =>
      (session.note reading.stage (reading.unresolved name includer)).followAll files reading walk
        includer rest
    | some target =>
      let walked := walk session target
      if walked.cancelled then walked
      else walked.session.followAll files reading walk includer rest

/-- Walks a file and what it includes, so many levels deep. -/
def walkLevels (around : Surroundings) (reading : Reading) : Nat → Session → Path → Walked
  | 0, session, path =>
    ⟨session.note reading.stage ("depth limit reached at " ++ path.text), false⟩
  | levels + 1, session, path =>
    if around.cancellation.isSet session.course then
      ⟨{ session with course := session.course.looked }, true⟩
    else
      let session := { session with course := session.course.looked }
      match session.visit? around.files path with
      | none => ⟨session, false⟩
      | some session =>
        match around.files.read path with
        | .error error =>
          let failure := Failure.io error.message
          ⟨session.note reading.stage (path.text ++ ": " ++ failure.message), false⟩
        | .ok content =>
          let (emissions, session) := reading.emissions session path content.toList
          let session := { session with findings := session.findings.apply emissions }
          session.followAll around.files reading (walkLevels around reading levels) path
            (Emission.includes emissions)

/-- Walks a header and all that it includes within the session's depth. -/
def walk (session : Session) (around : Surroundings) (reading : Reading) (root : Path) : Walked :=
  walkLevels around reading (session.maxDepth + 1) session root

end Session
end LibSurvey
