import LibSurvey.Binary
import LibSurvey.Config
import LibSurvey.FoundFunction
import LibSurvey.Text.Blank

/-!
Merging what an object tells into what headers told. A function that both describe keeps the
signature of the side that takes precedence; where the two disagree, that is noted either way.
-/

namespace LibSurvey.Merge

/-- The words of a type that say nothing about its category. -/
def qualifiers : List String :=
  ["const", "volatile", "restrict"]

/-- The words of which integer types are made. -/
def integerWords : List String :=
  ["signed", "unsigned", "int", "long", "short", "char"]

/-- The category of a type by its words, unless it is a name that stands for another type. -/
def categoryOfWords (words : List String) : Option String :=
  if words = ["void"] then some "void"
  else if words = ["..."] then some "..."
  else if words = ["bool"] || words = ["_Bool"] then some "_Bool"
  else if words.contains "double" then some "double"
  else if words.contains "float" then some "float"
  else if !words.isEmpty && words.all integerWords.contains then some "int"
  else none

/-- The category of a type as a header writes it. -/
def category (type : String) : Option String :=
  let cs := type.toList
  if cs.contains '*' || cs.contains '&' || cs.contains '[' then some "pointer"
  else categoryOfWords
    (((Text.words cs).map String.ofList).filter fun word => !qualifiers.contains word)

/-- Whether a header's type and one from debug information cannot be the same. A type whose category
one side does not know never disagrees. -/
def typesDisagree (header debug : String) : Bool :=
  let debug := if debug = "bool" then "_Bool" else debug
  match category header with
  | some category => debug ≠ "unknown" && category ≠ debug
  | none => false

def conflicting (header debug : Signature) : Bool :=
  header.params.length ≠ debug.params.length ||
    typesDisagree header.returnType debug.returnType ||
    (header.params.zip debug.params).any fun pair => typesDisagree pair.1.type pair.2.type

/-- The note on a function whose two signatures conflict. -/
def conflictNote (name : String) (header debug : Signature) : String :=
  name ++ ": header \x60" ++ header.render name ++ "\x60 vs debug info \x60" ++ debug.render name ++
    "\x60"

/-- Notes a conflict between the signature that is known and one from debug information. -/
def noteConflict (sink : Diagnostics) (name : String) (known : FoundFunction) (debug : Signature) :
    Diagnostics :=
  match known.signature with
  | some header =>
    if conflicting header debug then sink.record .merge (conflictNote name header debug) else sink
  | none => sink

/-- A known function after debug information described it too. -/
def preferred (precedence : Precedence) (known : FoundFunction) (debug : Signature) :
    FoundFunction :=
  match precedence with
  | .header => known
  | .debugInfo => { known with signature := some debug, provenance := .debugInfo }

def addDebug (precedence : Precedence) (state : FoundFunctions × Diagnostics)
    (entry : String × Signature) : FoundFunctions × Diagnostics :=
  match state.1[entry.1]? with
  | none => (state.1.insert entry.1 (.typed entry.2 .debugInfo), state.2)
  | some known =>
    (state.1.insert entry.1 (preferred precedence known entry.2),
      noteConflict state.2 entry.1 known entry.2)

def addExport (functions : FoundFunctions) (name : String) : FoundFunctions :=
  match functions[name]? with
  | none => functions.insert name .symbolOnly
  | some known => functions.insert name { known with exported := true }

/-- All functions after an object was read. -/
def functions (precedence : Precedence) (known : FoundFunctions) (binary : BinarySignatures)
    (sink : Diagnostics) : FoundFunctions × Diagnostics :=
  let merged := binary.functions.toList.foldl (addDebug precedence) (known, sink)
  ((binary.exports.map Export.raw).foldl addExport merged.1, merged.2)

end LibSurvey.Merge
