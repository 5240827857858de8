import LibSurvey.DebugInfo.Extraction
import LibSurvey.Dwarf.Unit

/-!
The entries of a unit as types and as functions.
-/

namespace LibSurvey.Dwarf

/-- Codes of the standard for attributes. -/
def siblingName : Nat := 0x01
def nameName : Nat := 0x03
def declarationName : Nat := 0x3c
def typeName : Nat := 0x49

/-- Codes of the standard for tags. -/
def parameterTag : Nat := 0x05
def variadicTag : Nat := 0x18
def baseTag : Nat := 0x24
def subprogramTag : Nat := 0x2e
def pointerTags : List Nat := [0x0f, 0x10, 0x42]
def wrapperTags : List Nat := [0x16, 0x26, 0x35, 0x37, 0x47]

open DebugInfo (Child Reading ReadFault Step Subprogram TypeEntry TypeReference TypeUnit
  UnitEntries)

def Value.typeReference : Value → TypeReference
  | .unitRef offset => .inUnit offset
  | .sectionRef offset => .inSection offset
  | .signatureRef signature => .bySignature signature
  | _ => .other

/-- Notes what was being read when a fault was met. -/
def at_ {α : Type} (step : Step) (result : Except Fault α) : Reading α :=
  result.mapError fun fault => ⟨step, fault⟩

namespace CompiledUnit

def readEntry? (unit : CompiledUnit) : Read (Option Entry) :=
  Entry.read? unit.header unit.abbreviations

def attribute? (unit : CompiledUnit) (entry : Entry) (name : Nat) :
    Except Fault (Option Value) :=
  entry.attribute? unit.header.encoding name

def entryName (unit : CompiledUnit) (sections : Sections) (entry : Entry) :
    Reading (Option String) := do
  match ← at_ .name (unit.attribute? entry nameName) with
  | some value => some <$> at_ .string (unit.text sections value)
  | none => pure none

def entryType (unit : CompiledUnit) (step : Step) (entry : Entry) :
    Reading (Option TypeReference) :=
  at_ step ((unit.attribute? entry typeName).map (·.map Value.typeReference))

/-- What the entry at an offset is as a type, if it can be read. -/
def typeEntry? (unit : CompiledUnit) (sections : Sections) (offset : Nat) : Option TypeEntry :=
  match unit.header.entriesFrom? offset >>= unit.readEntry?.run with
  | .ok (some entry, _) =>
    let tag := entry.abbreviation.tag
    if tag = baseTag then
      (unit.entryName sections entry).toOption.map TypeEntry.base
    else if pointerTags.contains tag then some .pointer
    else if wrapperTags.contains tag then
      (unit.attribute? entry typeName).toOption.map fun value =>
        .wrapper (value.map Value.typeReference)
    else some .other
  | _ => none

def typeUnit (unit : CompiledUnit) (sections : Sections) : TypeUnit where
  start := if unit.header.inInfo then some unit.header.start else none
  entriesStart := unit.header.entriesStart
  entriesStop := unit.header.entriesStop
  typeSignature := unit.header.typeSignature
  entry? := unit.typeEntry? sections

/-- The place that an entry gives for its next sibling, if it lies ahead. -/
def sibling? (unit : CompiledUnit) (entry : Entry) : Option Reader :=
  match unit.attribute? entry siblingName with
  | .ok (some (.unitRef offset)) =>
    if entry.offset < offset then (unit.header.entriesFrom? offset).toOption else none
  | _ => none

/-- Where the entry after this one starts, and how many levels further in that is; what lies within
an entry is passed over if the entry says where it ends. -/
def afterSubtree (unit : CompiledUnit) (entry : Entry) : Except Fault (Reader × Nat) :=
  let after := entry.afterAttributes unit.header.encoding
  if entry.abbreviation.hasChildren then
    match unit.sibling? entry with
    | some place => .ok (place, 0)
    | none => after.map fun reader => (reader, 1)
  else after.map fun reader => (reader, 0)

/-- The entries on the level of this place, from here on, where this place is `depth` levels further
in. Each takes a byte at least, so `left` may be the number of bytes. -/
def siblings (unit : CompiledUnit) (left depth : Nat) (place : Reader) :
    List Entry × Option Fault :=
  match left with
  | 0 => ([], none)
  | left + 1 =>
    if place.isEmpty then ([], none)
    else match unit.readEntry?.run place with
      | .error fault => ([], some fault)
      | .ok (none, after) =>
        if depth = 0 then ([], none) else unit.siblings left (depth - 1) after
      | .ok (some entry, _) =>
        let more := match unit.afterSubtree entry with
          | .error fault => ([], some fault)
          | .ok (after, deeper) => unit.siblings left (depth + deeper) after
        if depth = 0 then (entry :: more.1, more.2) else more

/-- The immediate children of an entry, which may end in a fault. -/
def children (unit : CompiledUnit) (entry : Entry) : List Entry × Option Fault :=
  if entry.abbreviation.hasChildren then
    match entry.afterAttributes unit.header.encoding with
    | .error fault => ([], some fault)
    | .ok place => unit.siblings (place.size + 1) 0 place
  else ([], none)

def child (unit : CompiledUnit) (sections : Sections) (entry : Entry) : Child :=
  let tag := entry.abbreviation.tag
  if tag = parameterTag then
    .parameter (unit.entryName sections entry) (unit.entryType .parameterType entry)
  else if tag = variadicTag then .variadic
  else .other

def isDeclaration (unit : CompiledUnit) (entry : Entry) : Reading Bool :=
  at_ .isDeclaration ((unit.attribute? entry declarationName).map (· == some (.flag true)))

def subprogram (unit : CompiledUnit) (sections : Sections) (entry : Entry) : Subprogram :=
  let children := unit.children entry
  { isDeclaration := unit.isDeclaration entry
    name := unit.entryName sections entry
    returnType := unit.entryType .returnType entry
    children := children.1.map (unit.child sections)
    childFault := children.2.map fun fault => ⟨.children, fault⟩ }

/-- All entries from a place on, at any depth. Each takes a byte at least, so `left` may be the
number of bytes. -/
def allFrom (unit : CompiledUnit) (left : Nat) (place : Reader) : List Entry × Option Fault :=
  match left with
  | 0 => ([], none)
  | left + 1 =>
    if place.isEmpty then ([], none)
    else match unit.readEntry?.run place with
      | .error fault => ([], some fault)
      | .ok (none, after) => unit.allFrom left after
      | .ok (some entry, _) =>
        match entry.afterAttributes unit.header.encoding with
        | .error fault => ([entry], some fault)
        | .ok after =>
          let more := unit.allFrom left after
          (entry :: more.1, more.2)

def unitEntries (unit : CompiledUnit) (sections : Sections) : UnitEntries :=
  let found := unit.allFrom (unit.header.entries.size + 1) unit.header.entries
  { subprograms := (found.1.filter (·.abbreviation.tag = subprogramTag)).map
      (unit.subprogram sections)
    fault := found.2.map fun fault => ⟨.entries, fault⟩ }

end CompiledUnit
end LibSurvey.Dwarf
