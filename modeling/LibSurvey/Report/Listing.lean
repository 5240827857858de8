import LibSurvey.Survey

/-!
What a survey tells, as lines for readers.
-/

namespace LibSurvey.Listing

/-- A text filled up with blanks to so many characters. -/
def padded (width : Nat) (text : String) : String :=
  text ++ String.ofList (List.replicate (width - text.length) ' ')

/-- A value in hexadecimal, a negative one by its 64 bits. -/
def hexadecimal (value : Int64) : String :=
  "0x" ++ String.ofList (Nat.toDigits 16 value.toUInt64.toNat)

/-- A part of a listing with its number of entries, left out if it has none. -/
def part (title : String) (lines : List String) : List String :=
  if lines.isEmpty then []
  else ["", title ++ " (" ++ toString lines.length ++ "):"] ++ lines.map ("  " ++ ·)

def constantLine (entry : String × Int64) : String :=
  padded 40 entry.1 ++ " = " ++ toString entry.2.toInt ++ " (" ++ hexadecimal entry.2 ++ ")"

/-- What is said of a function that the object does not export. -/
def exportNote (survey : Survey) (function : FoundFunction) : String :=
  if function.exported || survey.architecture.isNone then "" else "  (not exported)"

def functionLine (survey : Survey) (entry : String × FoundFunction) : Option String :=
  entry.2.signature.map fun signature =>
    "[" ++ padded 10 entry.2.provenance.name ++ "] " ++ signature.render entry.1 ++
      exportNote survey entry.2

def titleLines (survey : Survey) : List String :=
  ["library: " ++ survey.library] ++
    (survey.header.map fun path => "header: " ++ path.text).toList ++
    (survey.architecture.map fun architecture => "architecture: " ++ architecture.name).toList ++
    (survey.binaryFailure.map fun failure => "object: " ++ failure.message).toList

/-- The lines of a listing; diagnostics only if they are asked for. -/
def lines (survey : Survey) (verbose : Bool) : List String :=
  titleLines survey ++
    part "constants" (survey.constants.toList.map constantLine) ++
    part "functions" (survey.functions.toList.filterMap (functionLine survey)) ++
    part "symbol-only" survey.functions.symbolOnly ++
    (if verbose then part "diagnostics" (survey.diagnostics.map Diagnostic.render) else []) ++
    (if survey.cancelled then ["", "(cancelled, results are partial)"] else [])

def render (survey : Survey) (verbose : Bool) : String :=
  String.join ((lines survey verbose).map (· ++ "\n"))

end LibSurvey.Listing
