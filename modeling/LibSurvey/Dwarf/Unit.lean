import LibSurvey.Dwarf.LineTable
import LibSurvey.Dwarf.UnitHeader

/-!
Units that can be read: their abbreviations, and what the entry at their root says about where other
things of the unit are.
-/

namespace LibSurvey.Dwarf

/-- The sections that debug information is spread over. -/
structure Sections where
  endian : Bytes.Endian
  info : ByteArray
  types : ByteArray
  abbreviations : ByteArray
  addresses : ByteArray
  lines : ByteArray
  strings : ByteArray
  lineStrings : ByteArray
  stringOffsets : ByteArray

def Sections.reader (sections : Sections) (bytes : ByteArray) : Reader :=
  .ofBytes bytes sections.endian

/-- An entry at its offset in the unit, with the stretch that its attributes start. -/
structure Entry where
  offset : Nat
  abbreviation : Abbreviation
  attributes : Reader

structure CompiledUnit where
  header : UnitHeader
  abbreviations : Abbreviations
  /-- Where the unit's offsets of strings start. -/
  stringBase : Nat

namespace Entry

/-- The entry that starts here; none where a zero closes a list of children. -/
def read? (header : UnitHeader) (abbreviations : Abbreviations) : Read (Option Entry) := do
  let offset := (← get).next - header.start
  let code ← Read.uleb
  if code = 0 then return none
  match abbreviations[code]? with
  | some abbreviation => pure (some ⟨offset, abbreviation, ← get⟩)
  | none => throw .unknownAbbreviation

/-- Reads values of attributes up to the first one with the given name. -/
def findAttribute (encoding : Encoding) (name : Nat) : List AttributeSpec → Read (Option Value)
  | [] => pure none
  | spec :: rest => do
    let value ← Value.read encoding spec.form
    if spec.name = name then pure (some value) else findAttribute encoding name rest

def attribute? (entry : Entry) (encoding : Encoding) (name : Nat) :
    Except Fault (Option Value) :=
  ((findAttribute encoding name entry.abbreviation.attributes).run entry.attributes).map (·.1)

/-- Reads the values of all attributes. -/
def readAttributes (encoding : Encoding) : List AttributeSpec → Read (List (Nat × Value))
  | [] => pure []
  | spec :: rest => do
    let value ← Value.read encoding spec.form
    pure ((spec.name, value) :: (← readAttributes encoding rest))

/-- What follows the attributes. -/
def afterAttributes (entry : Entry) (encoding : Encoding) : Except Fault Reader :=
  ((readAttributes encoding entry.abbreviation.attributes).run entry.attributes).map (·.2)

end Entry

/-- Codes of the standard. -/
def stmtListName : Nat := 0x10
def lowPcName : Nat := 0x11
def stringBaseName : Nat := 0x72
def addressBaseNames : List Nat := [0x73, 0x2133]

namespace CompiledUnit

/-- The first entry after any closing zeros; each takes a byte, so `left` may be the number of
bytes. -/
def readRoot (header : UnitHeader) (abbreviations : Abbreviations) (left : Nat) : Read Entry :=
  match left with
  | 0 => throw .missingRoot
  | left + 1 => do
    if (← get).isEmpty then throw .missingRoot
    match ← Entry.read? header abbreviations with
    | some entry => pure entry
    | none => readRoot header abbreviations left

/-- The last offset that attributes of these names give. -/
def lastOffset (names : List Nat) (attributes : List (Nat × Value)) : Nat :=
  attributes.foldl (fun base item =>
    match item.2 with
    | .sectionOffset offset => if names.contains item.1 then offset else base
    | _ => base) 0

/-- The last line table that an attribute gives. -/
def lineTable? (encoding : Encoding) (attributes : List (Nat × Value)) : Option Nat :=
  attributes.foldl (fun found item =>
    if item.1 = stmtListName then (item.2.lineTable? encoding).or found
    else found) none

/-- The address that the unit starts at has to be there if the root refers to it by its index. -/
def checkAddress (sections : Sections) (encoding : Encoding) (base index : Nat) :
    Except Fault Unit := do
  let table ← (sections.reader sections.addresses).skip? base
  let place ← table.element? encoding.addressSize index
  let _ ← place.skip? encoding.addressSize

def open? (sections : Sections) (header : UnitHeader) : Except Fault CompiledUnit := do
  let table ← (sections.reader sections.abbreviations).skip? header.abbreviations
  let (abbreviations, _) ← Abbreviations.read.run table
  let (root, _) ←
    (readRoot header abbreviations (header.entries.size + 1)).run header.entries
  let (attributes, _) ←
    (Entry.readAttributes header.encoding root.abbreviation.attributes).run root.attributes
  match lineTable? header.encoding attributes with
  | some offset =>
    LineTable.check (sections.reader sections.lines) offset header.encoding.addressSize
  | none => pure ()
  match attributes.reverse.lookup lowPcName with
  | some (.addressIndex index) =>
    checkAddress sections header.encoding (lastOffset addressBaseNames attributes) index
  | _ => pure ()
  pure ⟨header, abbreviations, lastOffset [stringBaseName] attributes⟩

end CompiledUnit

/-- The bytes of a string at an offset of a section of strings. -/
def stringAt (sections : Sections) (strings : ByteArray) (offset : Nat) :
    Except Fault (List UInt8) := do
  let (bytes, _) ← Read.zeroTerminated.run (← (sections.reader strings).skip? offset)
  pure bytes

/-- The text that a value is. -/
def CompiledUnit.text (unit : CompiledUnit) (sections : Sections) (value : Value) :
    Except Fault String :=
  Bytes.lossyText <$>
    match value with
    | .text bytes => pure bytes
    | .stringAt offset => stringAt sections sections.strings offset
    | .lineStringAt offset => stringAt sections sections.lineStrings offset
    | .stringIndex index => do
      let wide := unit.header.encoding.wide
      let table ← (sections.reader sections.stringOffsets).skip? unit.stringBase
      let place ← table.element? (if wide then 8 else 4) index
      let (offset, _) ← (Read.offset wide).run place
      stringAt sections sections.strings offset
    | _ => throw .expectedString

end LibSurvey.Dwarf
