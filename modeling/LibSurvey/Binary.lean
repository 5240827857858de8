import LibSurvey.Dwarf.Signatures
import LibSurvey.Export
import LibSurvey.Object.Open

/-!
What an object file tells: its machine, the signatures in its debug information, and its exports.
Only an object that cannot be opened is a failure.
-/

namespace LibSurvey

structure BinarySignatures where
  architecture : Architecture
  hasDebugInfo : Bool
  functions : FunctionSet
  exports : List Export

namespace BinarySignatures

def isExported (binary : BinarySignatures) (name : String) : Bool :=
  binary.exports.any (·.raw == name)

/-- What an open object tells. That it exports nothing is worth a note. -/
def ofFile (path : Path) (file : Object.File) (sink : Diagnostics) :
    BinarySignatures × Diagnostics :=
  let sections := Dwarf.Sections.ofObject file
  let found := Dwarf.signatures sections sink
  let exports := file.exports
  (⟨file.architecture, !sections.isEmpty, found.1, exports⟩,
    if exports.isEmpty then
      found.2.record .symbols (path.text ++ ": no exported function symbols")
    else found.2)

def read (files : FileView) (path : Path) (sink : Diagnostics) :
    Except Failure (BinarySignatures × Diagnostics) :=
  (Object.open? files path).map fun file => ofFile path file sink

end BinarySignatures
end LibSurvey
