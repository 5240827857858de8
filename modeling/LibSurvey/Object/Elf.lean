import LibSurvey.Object.Basic
import LibSurvey.Object.Inflate

/-!
ELF files of 32 and 64 bits in either byte order. Opening one checks the headers, the tables of
symbols and the sections of relocations in a fixed order; the first fault found is reported.
-/

namespace LibSurvey.Object.Elf

open Bytes (Endian Strings)

inductive Fault where
  | header
  | unsupported
  | programEntrySize
  | programHeaders
  | programCount
  | sectionEntrySize
  | sectionZero
  | sectionHeaders
  | noNames
  | names
  | namesSize
  | symbols
  | sectionIndex
  | stringsType
  | stringsRange
  | symbolIndices
  | relocationTarget
  | relocatedRelocations
deriving DecidableEq, Repr

def Fault.message : Fault → String
  | .header => "Invalid ELF header size or alignment"
  | .unsupported => "Unsupported ELF header"
  | .programEntrySize => "Invalid ELF program header entry size"
  | .programHeaders => "Invalid ELF program header size or alignment"
  | .programCount => "Missing ELF section headers for e_phnum overflow"
  | .sectionEntrySize => "Invalid ELF section header entry size"
  | .sectionZero => "Invalid ELF section header offset or size"
  | .sectionHeaders => "Invalid ELF section header offset/size/alignment"
  | .noNames => "Missing ELF e_shstrndx"
  | .names => "Invalid ELF e_shstrndx"
  | .namesSize => "Invalid ELF shstrtab size"
  | .symbols => "Invalid ELF symbol table data"
  | .sectionIndex => "Invalid ELF section index"
  | .stringsType => "Invalid ELF string section type"
  | .stringsRange => "Invalid ELF string section offset or size"
  | .symbolIndices => "Invalid ELF symtab_shndx data"
  | .relocationTarget => "Invalid ELF sh_info for relocation section"
  | .relocatedRelocations => "Unsupported ELF sh_info for relocation section"

/-- The kind of an ELF file: its word size and byte order. -/
structure Class where
  wide : Bool
  endian : Endian
deriving DecidableEq, Repr

namespace Class

def headerSize (cls : Class) : Nat := if cls.wide then 64 else 52
def sectionEntrySize (cls : Class) : Nat := if cls.wide then 64 else 40
def programEntrySize (cls : Class) : Nat := if cls.wide then 56 else 32
def symbolSize (cls : Class) : Nat := if cls.wide then 24 else 16
def compressionHeaderSize (cls : Class) : Nat := if cls.wide then 24 else 12

/-- A field given by its place and size in the narrow and the wide form of a record. -/
def field (cls : Class) (bytes : ByteArray) (base : Nat) (narrow wide : Nat × Nat) : Nat :=
  let (offset, size) := if cls.wide then wide else narrow
  Bytes.uint bytes cls.endian (base + offset) size

end Class

structure Section where
  name : Nat
  type : Nat
  flags : Nat
  offset : Nat
  size : Nat
  link : Nat
  info : Nat
deriving DecidableEq, Repr

def readSection (cls : Class) (bytes : ByteArray) (base : Nat) : Section where
  name := cls.field bytes base (0, 4) (0, 4)
  type := cls.field bytes base (4, 4) (4, 4)
  flags := cls.field bytes base (8, 4) (8, 8)
  offset := cls.field bytes base (16, 4) (24, 8)
  size := cls.field bytes base (20, 4) (32, 8)
  link := cls.field bytes base (24, 4) (40, 4)
  info := cls.field bytes base (28, 4) (44, 4)

namespace SectionType

def symbols : Nat := 2
def strings : Nat := 3
def relocationsWithAddends : Nat := 4
def absent : Nat := 8
def relocations : Nat := 9
def dynamicSymbols : Nat := 11
def symbolIndices : Nat := 18
def compactRelocations : Nat := 0x40000014

end SectionType

def Section.holdsRelocations (sec : Section) : Bool :=
  [SectionType.relocations, SectionType.relocationsWithAddends,
    SectionType.compactRelocations].contains sec.type

/-- The bytes of a section as they are stored; a section that takes no room in the file is empty. -/
def Section.stored? (sec : Section) (bytes : ByteArray) : Option ByteArray :=
  if sec.type = SectionType.absent then some ByteArray.empty
  else Bytes.slice? bytes sec.offset sec.size

/-- The bytes of a section, inflated if it is compressed. -/
def Section.contents? (sec : Section) (cls : Class) (bytes : ByteArray) : Option ByteArray :=
  if sec.flags.testBit 11 then
    if sec.type = SectionType.absent || sec.size < cls.compressionHeaderSize then none
    else do
      let type ← Bytes.uint? bytes cls.endian sec.offset 4
      let size ← if cls.wide then Bytes.uint? bytes cls.endian (sec.offset + 8) 8
        else Bytes.uint? bytes cls.endian (sec.offset + 4) 4
      let start := sec.offset + cls.compressionHeaderSize
      let _ ← Bytes.slice? bytes sec.offset cls.compressionHeaderSize
      let data ← Bytes.slice? bytes start (sec.size - cls.compressionHeaderSize)
      if type = 1 then Inflate.zlib? data size else none
  else sec.stored? bytes

/-- The fixed header of a file. -/
structure Header where
  machine : Nat
  programOffset : Nat
  sectionOffset : Nat
  programEntrySize : Nat
  programCount : Nat
  sectionEntrySize : Nat
  sectionCount : Nat
  namesIndex : Nat

def readClass? (bytes : ByteArray) : Option Class :=
  let at? (index : Nat) := Bytes.uint? bytes .little index 1
  let endian? : Option Endian := match at? 5 with
    | some 1 => some .little
    | some 2 => some .big
    | _ => none
  match at? 4, endian?, at? 6 with
  | some 1, some endian, some 1 => some ⟨false, endian⟩
  | some 2, some endian, some 1 => some ⟨true, endian⟩
  | _, _, _ => none

def readHeader (cls : Class) (bytes : ByteArray) : Header where
  machine := cls.field bytes 0 (18, 2) (18, 2)
  programOffset := cls.field bytes 0 (28, 4) (32, 8)
  sectionOffset := cls.field bytes 0 (32, 4) (40, 8)
  programEntrySize := cls.field bytes 0 (42, 2) (54, 2)
  programCount := cls.field bytes 0 (44, 2) (56, 2)
  sectionEntrySize := cls.field bytes 0 (46, 2) (58, 2)
  sectionCount := cls.field bytes 0 (48, 2) (60, 2)
  namesIndex := cls.field bytes 0 (50, 2) (62, 2)

/-- The first section, which holds what does not fit into the header; there is none without
sections. -/
def sectionZero? (cls : Class) (header : Header) (bytes : ByteArray) :
    Except Fault (Option Section) :=
  if header.sectionOffset = 0 then .ok none
  else if header.sectionEntrySize ≠ cls.sectionEntrySize then .error .sectionEntrySize
  else match Bytes.slice? bytes header.sectionOffset cls.sectionEntrySize with
    | some _ => .ok (some (readSection cls bytes header.sectionOffset))
    | none => .error .sectionZero

def checkPrograms (cls : Class) (header : Header) (bytes : ByteArray) : Except Fault Unit := do
  if header.programOffset = 0 then return
  let count ← if header.programCount < 0xffff then pure header.programCount
    else match ← sectionZero? cls header bytes with
      | some first => pure first.info
      | none => throw .programCount
  if count = 0 then return
  if header.programEntrySize ≠ cls.programEntrySize then throw .programEntrySize
  if (Bytes.slice? bytes header.programOffset (count * cls.programEntrySize)).isNone then
    throw .programHeaders

def readSections (cls : Class) (header : Header) (bytes : ByteArray) :
    Except Fault (List Section) := do
  if header.sectionOffset = 0 then return []
  let count ← if 0 < header.sectionCount then pure header.sectionCount
    else match ← sectionZero? cls header bytes with
      | some first => pure first.size
      | none => pure 0
  if count = 0 then return []
  if header.sectionEntrySize ≠ cls.sectionEntrySize then throw .sectionEntrySize
  if bytes.size < header.sectionOffset + count * cls.sectionEntrySize then throw .sectionHeaders
  return (List.range count).map fun index =>
    readSection cls bytes (header.sectionOffset + index * cls.sectionEntrySize)

/-- The end of a stretch, unless it lies beyond what 64 bits can count. -/
def endOf (offset size : Nat) (fault : Fault) : Except Fault Nat :=
  if offset + size < UInt64.size then .ok (offset + size) else .error fault

/-- The table of section names; without a table no section has a name. -/
def readNames (cls : Class) (header : Header) (bytes : ByteArray) (sections : List Section) :
    Except Fault (Option Strings) := do
  if sections.isEmpty then return none
  let index ← if header.namesIndex ≠ 0xffff then pure header.namesIndex
    else match ← sectionZero? cls header bytes with
      | some first => pure first.link
      | none => throw .names
  if index = 0 then throw .noNames
  match sections[index]? with
  | none => throw .names
  | some sec =>
    if sec.type = SectionType.absent then return none
    return some ⟨sec.offset, ← endOf sec.offset sec.size .namesSize⟩

/-- A table of symbols with the index of its section, which is zero if there is no table, and the
number of its entries. The first entry is no symbol. -/
structure SymbolTable where
  index : Nat
  size : Nat
  symbols : List Symbol

def readSymbol (cls : Class) (bytes table : ByteArray) (strings : Strings) (base : Nat) : Symbol :=
  let info := cls.field table base (12, 1) (4, 1)
  let name := cls.field table base (0, 4) (0, 4)
  { name := (strings.get? bytes name).bind Bytes.text?
    isFunction := info % 16 = 2 || info % 16 = 10
    isDefined := cls.field table base (14, 2) (6, 2) ≠ 0
    isLocal := info / 16 = 0 }

/-- The strings that a table of symbols refers to; the index zero stands for none at all. -/
def stringsAt (sections : List Section) (index : Nat) : Except Fault Strings := do
  if index = 0 then return ⟨0, 0⟩
  match sections[index]? with
  | none => throw .sectionIndex
  | some sec =>
    if sec.type ≠ SectionType.strings then throw .stringsType
    return ⟨sec.offset, ← endOf sec.offset sec.size .stringsRange⟩

/-- The stored bytes of a section, if they are entries of so many bytes each. -/
def Section.entries? (sec : Section) (bytes : ByteArray) (size : Nat) : Option ByteArray :=
  (sec.stored? bytes).bind fun stored => if stored.size % size = 0 then some stored else none

/-- The first table of symbols of a type. -/
def readSymbols (cls : Class) (bytes : ByteArray) (sections : List Section) (type : Nat) :
    Except Fault SymbolTable := do
  match sections.findIdx? (·.type = type) with
  | none => return ⟨0, 0, []⟩
  | some index =>
    let sec := (sections[index]?).getD ⟨0, 0, 0, 0, 0, 0, 0⟩
    match sec.entries? bytes cls.symbolSize with
    | none => throw .symbols
    | some table =>
      let strings ← stringsAt sections sec.link
      for indices in sections do
        if indices.type = SectionType.symbolIndices && indices.link = index &&
            (indices.entries? bytes 4).isNone then
          throw .symbolIndices
      let size := table.size / cls.symbolSize
      return ⟨index, size, (List.range' 1 (size - 1)).map fun entry =>
        readSymbol cls bytes table strings (entry * cls.symbolSize)⟩

/-- Relocations for the symbols of a table that name a section have to be meant for one that is
there and holds no relocations itself. -/
def checkRelocation (sections : List Section) (symbols : Nat) (sec : Section) :
    Except Fault Unit :=
  if !sec.holdsRelocations || sec.link ≠ symbols || sec.info = 0 then .ok ()
  else match sections[sec.info]? with
    | none => .error .relocationTarget
    | some target =>
      if target.holdsRelocations then .error .relocatedRelocations else .ok ()

/-- The sections are looked at from the last to the first. -/
def checkRelocations (sections : List Section) (symbols : Nat) : Except Fault Unit :=
  sections.reverse.forM (checkRelocation sections symbols)

def architectureOf (cls : Class) (machine : Nat) : Architecture :=
  if machine = 3 then .x86
  else if !cls.wide then .unknown
  else if machine = 183 then .arm64
  else if machine = 62 then .x86_64
  else if machine = 243 then .riscv64
  else .unknown

def sectionNamed? (cls : Class) (bytes : ByteArray) (names : Option Strings)
    (sections : List Section) (name : String) : Option ByteArray :=
  let wanted := Text.Utf8.encode name.toList
  (sections.find? fun sec =>
    (names.bind fun names => names.get? bytes sec.name) = some wanted).map fun sec =>
      (sec.contents? cls bytes).getD ByteArray.empty

def open? (bytes : ByteArray) (wide : Bool) : Except Fault File := do
  if bytes.size < (if wide then 64 else 52) then throw .header
  match readClass? bytes with
  | none => throw .unsupported
  | some cls =>
    let header := readHeader cls bytes
    checkPrograms cls header bytes
    let sections ← readSections cls header bytes
    let names ← readNames cls header bytes sections
    let symbols ← readSymbols cls bytes sections SectionType.symbols
    let dynamic ← readSymbols cls bytes sections SectionType.dynamicSymbols
    checkRelocations sections symbols.index
    return {
      architecture := architectureOf cls header.machine
      endian := cls.endian
      underscored := false
      dynamic := if dynamic.size = 0 then none else some dynamic.symbols
      symbols := symbols.symbols
      contents? := sectionNamed? cls bytes names sections }

end LibSurvey.Object.Elf
