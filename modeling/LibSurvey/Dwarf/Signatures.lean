import LibSurvey.Dwarf.Entry
import LibSurvey.Object.Basic

/-!
The signatures in the debug information of an object: its compilation units first, then its type
units. A unit that cannot be opened is left out, and a header that cannot be read ends its list.
-/

namespace LibSurvey.Dwarf

open DebugInfo (Step ReadFault)

namespace Sections

/-- A section by its name, which some formats write with underscores for the point. -/
def find (file : Object.File) (name : String) : ByteArray :=
  ((file.contents? ("." ++ name)).or (file.contents? ("__" ++ name))).getD .empty

def ofObject (file : Object.File) : Sections where
  endian := file.endian
  info := find file "debug_info"
  types := find file "debug_types"
  abbreviations := find file "debug_abbrev"
  addresses := find file "debug_addr"
  lines := find file "debug_line"
  strings := find file "debug_str"
  lineStrings := find file "debug_line_str"
  stringOffsets := find file "debug_str_offsets"

def isEmpty (sections : Sections) : Bool :=
  sections.info.isEmpty

end Sections

def note (sink : Diagnostics) (step : Step) (fault : Fault) : Diagnostics :=
  sink.record .debugInfo (ReadFault.mk step fault).failure.message

/-- Opens units, and notes which cannot be. -/
def openUnits (sections : Sections) (step : Step) (sink : Diagnostics) :
    List UnitHeader → List CompiledUnit × Diagnostics
  | [] => ([], sink)
  | header :: rest =>
    match CompiledUnit.open? sections header with
    | .ok unit =>
      let more := openUnits sections step sink rest
      (unit :: more.1, more.2)
    | .error fault => openUnits sections step (note sink step fault) rest

/-- The units of one section. -/
def unitsOf (sections : Sections) (inInfo : Bool) (sink : Diagnostics) :
    List CompiledUnit × Diagnostics :=
  let bytes := if inInfo then sections.info else sections.types
  let headers := UnitHeader.readAll inInfo (bytes.size + 1) (sections.reader bytes)
  let units := openUnits sections (if inInfo then .compilationUnit else .typeUnit) sink headers.1
  match headers.2 with
  | some fault =>
    (units.1, note units.2 (if inInfo then .unitHeader else .typeUnitHeader) fault)
  | none => units

def units (sections : Sections) (sink : Diagnostics) : List CompiledUnit × Diagnostics :=
  let compiled := unitsOf sections true sink
  let types := unitsOf sections false compiled.2
  (compiled.1 ++ types.1, types.2)

/-- The signatures that debug information gives, none without a section of compilation units. -/
def signatures (sections : Sections) (sink : Diagnostics) : FunctionSet × Diagnostics :=
  if sections.isEmpty then (∅, sink)
  else
    let found := units sections sink
    DebugInfo.extract (found.1.map (·.typeUnit sections)) (found.1.map (·.unitEntries sections))
      found.2

end LibSurvey.Dwarf
