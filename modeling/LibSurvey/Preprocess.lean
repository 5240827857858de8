import LibSurvey.Header.Declarations
import LibSurvey.Header.Line.Scan
import LibSurvey.Tool

/-!
The functions that a header declares after preprocessing. An external preprocessor expands a header
that is included from its standard input; the result is read like any other header.
-/

namespace LibSurvey.Preprocess

/-- The call that expands a header. -/
def request (program : String) (header : Path) (dirs : List Path) : ToolCall :=
  ⟨program, ["-E", "-dD", "-x", "c"] ++ dirs.map (fun dir => "-I" ++ dir.text) ++ ["-"],
    Text.Utf8.encode ("#include \"" ++ header.text ++ "\"\n").toList⟩

def expand (runner : ToolRunner) (course : Course) (program : String) (header : Path)
    (dirs : List Path) : Except Failure String × Course :=
  runner.run course (request program header dirs)

/-- What an expanded text declares, by its tokens or else by its lines. -/
def emissions (annotations : Annotations) (text : String) : List Emission :=
  match Declarations.ofBytes? annotations (Text.Utf8.encode text.toList) with
  | .ok emissions => emissions
  | .error _ => Line.scan annotations text.toList

/-- Names that belong to the implementation of the language. -/
def isReservedName (name : String) : Bool :=
  ['_', '_'].isPrefixOf name.toList

def functionsOf (emissions : List Emission) : List (String × Signature) :=
  emissions.filterMap fun emission =>
    match emission with
    | .function name signature => if isReservedName name then none else some (name, signature)
    | _ => none

/-- The functions visible after preprocessing, in order. -/
def functions (runner : ToolRunner) (course : Course) (program : String) (header : Path)
    (dirs : List Path) (annotations : Annotations) :
    Except Failure (List (String × Signature)) × Course :=
  match expand runner course program header dirs with
  | (.ok text, course) => (.ok (functionsOf (emissions annotations text)), course)
  | (.error failure, course) => (.error failure, course)

end LibSurvey.Preprocess
