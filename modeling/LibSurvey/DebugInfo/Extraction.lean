import LibSurvey.DebugInfo.TypeGraph
import LibSurvey.Diagnostics
import LibSurvey.Dwarf.Fault
import LibSurvey.Failure
import LibSurvey.SignatureSet

/-!
Signatures from debug information: every named function that a unit defines, with its parameters,
and its types by their categories. A unit counts whole or not at all: one that cannot be read to its
end contributes nothing. Of several definitions of a name the first counts.
-/

namespace LibSurvey.DebugInfo

/-- What was being read when debug information turned out to be faulty. -/
inductive Step where
  | unitHeader
  | typeUnitHeader
  | compilationUnit
  | typeUnit
  | entries
  | isDeclaration
  | name
  | string
  | returnType
  | parameterType
  | children
deriving DecidableEq, Repr

def Step.text : Step → String
  | .unitHeader => "reading .debug_info unit header"
  | .typeUnitHeader => "reading .debug_types unit header"
  | .compilationUnit => "parsing compilation unit"
  | .typeUnit => "parsing type unit"
  | .entries => "traversing DIE tree"
  | .isDeclaration => "reading DW_AT_declaration"
  | .name => "reading DW_AT_name"
  | .string => "resolving DWARF string"
  | .returnType => "reading return type"
  | .parameterType => "reading parameter type"
  | .children => "iterating subprogram children"

structure ReadFault where
  step : Step
  fault : Dwarf.Fault
deriving DecidableEq, Repr

def ReadFault.failure (fault : ReadFault) : Failure :=
  .debugInfo (fault.step.text ++ ": " ++ fault.fault.message)

/-- The result of reading one thing of an entry. -/
abbrev Reading (α : Type) : Type := Except ReadFault α

/-- An immediate child of a function's entry. -/
inductive Child where
  | parameter (name : Reading (Option String)) (type : Reading (Option TypeReference))
  | variadic
  | other

/-- The entry of a function, wherever it stands in its unit. Its children may end in a fault. -/
structure Subprogram where
  isDeclaration : Reading Bool
  name : Reading (Option String)
  returnType : Reading (Option TypeReference)
  children : List Child
  childFault : Option ReadFault

/-- The functions of a unit in the order of its entries, which may end in a fault. -/
structure UnitEntries where
  subprograms : List Subprogram
  fault : Option ReadFault

/-- The category of a type that need not be there. -/
def resolveType (graph : TypeGraph) (unit : Nat) (known : KnownTypes) (absent : TypeCategory)
    (reference : Option TypeReference) : TypeCategory × KnownTypes :=
  match reference with
  | none => (absent, known)
  | some reference => graph.resolve known unit reference

def readParam (graph : TypeGraph) (unit : Nat) (known : KnownTypes) :
    Child → Reading (Option Param) × KnownTypes
  | .other => (.ok none, known)
  | .variadic => (.ok (some ⟨"...", none⟩), known)
  | .parameter (.error fault) _ => (.error fault, known)
  | .parameter (.ok _) (.error fault) => (.error fault, known)
  | .parameter (.ok name) (.ok type) =>
    let resolved := resolveType graph unit known .unknown type
    (.ok (some ⟨resolved.1.name, name⟩), resolved.2)

/-- The parameters among the children of a function, unless there is a fault among them or at their
end. -/
def readParams (graph : TypeGraph) (unit : Nat) (fault : Option ReadFault) (known : KnownTypes) :
    List Child → Reading (List Param) × KnownTypes
  | [] =>
    match fault with
    | some fault => (.error fault, known)
    | none => (.ok [], known)
  | child :: rest =>
    match readParam graph unit known child with
    | (.error fault, known) => (.error fault, known)
    | (.ok param, known) =>
      match readParams graph unit fault known rest with
      | (.error fault, known) => (.error fault, known)
      | (.ok params, known) => (.ok (param.toList ++ params), known)

/-- The function that an entry defines; a declaration and an entry without a name define none. -/
def readSubprogram (graph : TypeGraph) (unit : Nat) (known : KnownTypes) (entry : Subprogram) :
    Reading (Option (String × Signature)) × KnownTypes :=
  match entry.isDeclaration with
  | .error fault => (.error fault, known)
  | .ok true => (.ok none, known)
  | .ok false =>
    match entry.name with
    | .error fault => (.error fault, known)
    | .ok none => (.ok none, known)
    | .ok (some name) =>
      match entry.returnType with
      | .error fault => (.error fault, known)
      | .ok returnType =>
        let resolved := resolveType graph unit known .void returnType
        match readParams graph unit entry.childFault resolved.2 entry.children with
        | (.error fault, known) => (.error fault, known)
        | (.ok params, known) => (.ok (some (name, ⟨resolved.1.name, params⟩)), known)

/-- The functions that a unit defines, unless there is a fault in it. -/
def readSubprograms (graph : TypeGraph) (unit : Nat) (fault : Option ReadFault)
    (known : KnownTypes) : List Subprogram → Reading (List (String × Signature)) × KnownTypes
  | [] =>
    match fault with
    | some fault => (.error fault, known)
    | none => (.ok [], known)
  | entry :: rest =>
    match readSubprogram graph unit known entry with
    | (.error fault, known) => (.error fault, known)
    | (.ok found, known) =>
      match readSubprograms graph unit fault known rest with
      | (.error fault, known) => (.error fault, known)
      | (.ok more, known) => (.ok (found.toList ++ more), known)

/-- What units have told so far. -/
structure Extraction where
  functions : FunctionSet
  known : KnownTypes
  sink : Diagnostics

/-- Functions that are known already stay as they are. -/
def addFunctions (functions : FunctionSet) (found : List (String × Signature)) : FunctionSet :=
  found.foldl (fun functions entry => functions.insertIfNew entry.1 entry.2) functions

def Extraction.addUnit (graph : TypeGraph) (extraction : Extraction) (index : Nat)
    (entries : UnitEntries) : Extraction :=
  match readSubprograms graph index entries.fault extraction.known entries.subprograms with
  | (.ok found, known) =>
    { extraction with functions := addFunctions extraction.functions found, known }
  | (.error fault, known) =>
    { extraction with
      known
      sink := extraction.sink.record .debugInfo
        ("unit " ++ toString index ++ ": " ++ fault.failure.message) }

def Extraction.addUnits (graph : TypeGraph) (extraction : Extraction) (index : Nat) :
    List UnitEntries → Extraction
  | [] => extraction
  | entries :: rest => addUnits graph (extraction.addUnit graph index entries) (index + 1) rest

/-- The signatures that units give, and the sink with what had to be left out. -/
def extract (graph : TypeGraph) (units : List UnitEntries) (sink : Diagnostics) :
    FunctionSet × Diagnostics :=
  let extraction := Extraction.addUnits graph ⟨∅, ∅, sink⟩ 0 units
  (extraction.functions, extraction.sink)

end LibSurvey.DebugInfo
