import LibSurvey.Object.Basic

/-!
Mach-O files of 32 and 64 bits in either byte order. Load commands are read as long as they make
sense; only a segment or a table that contradicts itself makes the file unreadable.
-/

namespace LibSurvey.Object.MachO

open Bytes (Endian Strings)

inductive Fault where
  | header
  | unsupported
  | commandSize
  | sectionCount
  | symbols
  | strings
deriving DecidableEq, Repr

def Fault.message : Fault → String
  | .header => "Invalid Mach-O header size or alignment"
  | .unsupported => "Unsupported Mach-O header"
  | .commandSize => "Invalid Mach-O command size"
  | .sectionCount => "Invalid Mach-O number of sections"
  | .symbols => "Invalid Mach-O symbol table offset or size"
  | .strings => "Invalid Mach-O string table length"

structure Class where
  wide : Bool
  endian : Endian
deriving DecidableEq, Repr

namespace Class

def headerSize (cls : Class) : Nat := if cls.wide then 32 else 28
def segmentSize (cls : Class) : Nat := if cls.wide then 72 else 56
def sectionSize (cls : Class) : Nat := if cls.wide then 80 else 68
def symbolSize (cls : Class) : Nat := if cls.wide then 16 else 12

/-- The load command that holds segments of this word size. -/
def segmentCommand (cls : Class) : Nat := if cls.wide then 0x19 else 1

end Class

structure Section where
  name : List UInt8
  segment : List UInt8
  size : Nat
  offset : Nat
  flags : Nat

/-- Whether a section holds the functions of a program, which its two names tell; its flags do
not count. -/
def Section.isText (sec : Section) : Bool :=
  sec.name = Text.Utf8.encode "__text".toList && sec.segment = Text.Utf8.encode "__TEXT".toList

/-- Sections of zeros take no room in the file. -/
def Section.isZeros (sec : Section) : Bool :=
  [1, 0xc, 0x12].contains (sec.flags % 256)

def Section.contents? (sec : Section) (bytes : ByteArray) : Option ByteArray :=
  if sec.isZeros then some ByteArray.empty else Bytes.slice? bytes sec.offset sec.size

def readSection (cls : Class) (bytes : ByteArray) (base : Nat) : Section where
  name := Bytes.untilZero (bytes.extract base (base + 16)).toList
  segment := Bytes.untilZero (bytes.extract (base + 16) (base + 32)).toList
  size := if cls.wide then Bytes.uint bytes cls.endian (base + 40) 8
    else Bytes.uint bytes cls.endian (base + 36) 4
  offset := if cls.wide then Bytes.uint bytes cls.endian (base + 48) 4
    else Bytes.uint bytes cls.endian (base + 40) 4
  flags := if cls.wide then Bytes.uint bytes cls.endian (base + 64) 4
    else Bytes.uint bytes cls.endian (base + 56) 4

/-- A table of symbols: where it is, how many entries it has, and its strings. -/
structure SymbolTable where
  offset : Nat
  count : Nat
  strings : Strings

/-- What the load commands say. -/
structure Contents where
  sections : List Section
  symbols : SymbolTable

/-- A load command: its kind, and the place and size of it in the file. -/
structure LoadCommand where
  kind : Nat
  offset : Nat
  size : Nat

/-- The next load command before `stop`, if it makes sense. -/
def command? (cls : Class) (bytes : ByteArray) (offset stop : Nat) : Option LoadCommand :=
  if stop < offset + 8 then none
  else
    let size := Bytes.uint bytes cls.endian (offset + 4) 4
    if size < 8 || stop < offset + size then none
    else some ⟨Bytes.uint bytes cls.endian offset 4, offset, size⟩

def segmentSections (cls : Class) (bytes : ByteArray) (command : LoadCommand) :
    Except Fault (List Section) :=
  if command.size < cls.segmentSize then .error .commandSize
  else
    let count := Bytes.uint bytes cls.endian
      (command.offset + (if cls.wide then 64 else 48)) 4
    if command.size < cls.segmentSize + count * cls.sectionSize then .error .sectionCount
    else .ok ((List.range count).map fun index =>
      readSection cls bytes (command.offset + cls.segmentSize + index * cls.sectionSize))

def symbolTable (cls : Class) (bytes : ByteArray) (command : LoadCommand) :
    Except Fault SymbolTable :=
  if command.size < 24 then .error .commandSize
  else
    let at? (index : Nat) := Bytes.uint bytes cls.endian (command.offset + index) 4
    if (Bytes.slice? bytes (at? 8) (at? 12 * cls.symbolSize)).isNone then .error .symbols
    else .ok ⟨at? 8, at? 12, ⟨at? 16, at? 16 + at? 20⟩⟩

/-- Goes through so many load commands. -/
def readCommands (cls : Class) (bytes : ByteArray) (stop : Nat) :
    Nat → Nat → Contents → Except Fault Contents
  | 0, _, contents => .ok contents
  | count + 1, offset, contents =>
    match command? cls bytes offset stop with
    | none => .ok contents
    | some command => do
      let contents ← if command.kind = cls.segmentCommand then
          (segmentSections cls bytes command).map fun sections =>
            { contents with sections := contents.sections ++ sections }
        else if command.kind = 2 then
          (symbolTable cls bytes command).map fun symbols => { contents with symbols }
        else .ok contents
      readCommands cls bytes stop count (offset + command.size) contents

/-- A symbol, unless it is an entry for a debugger. A symbol in a section of functions is one. -/
def readSymbol? (cls : Class) (bytes : ByteArray) (contents : Contents) (index : Nat) :
    Option Symbol :=
  let base := contents.symbols.offset + index * cls.symbolSize
  let type := Bytes.uint bytes cls.endian (base + 4) 1
  if type / 32 ≠ 0 then none
  else
    let place := type % 16 / 2 * 2
    let number := Bytes.uint bytes cls.endian (base + 5) 1
    let inText := place = 0xe && number ≠ 0 &&
      ((contents.sections[number - 1]?).map Section.isText).getD false
    some {
      name := (contents.symbols.strings.get? bytes (Bytes.uint bytes cls.endian base 4)).bind
        Bytes.text?
      isFunction := inText
      isDefined := place ≠ 0
      isLocal := !type.testBit 0 }

def architectureOf (machine : Nat) : Architecture :=
  if machine = 7 then .x86
  else if machine = 0x01000007 then .x86_64
  else if machine = 0x0100000c then .arm64
  else .unknown

/-- Whether a section has a name, written with a dot for its two underscores or as it is. Names are
cut after sixteen bytes. -/
def hasName (wanted : List UInt8) (sec : Section) : Bool :=
  sec.name = wanted ||
    match wanted with
    | 0x2e :: rest => sec.name = [0x5f, 0x5f] ++ rest.take 14
    | _ => false

def open? (bytes : ByteArray) (cls : Class) : Except Fault File := do
  if bytes.size < cls.headerSize then throw .header
  let count := Bytes.uint bytes cls.endian 16 4
  let stop := cls.headerSize + Bytes.uint bytes cls.endian 20 4
  let nothing : Contents := ⟨[], ⟨0, 0, ⟨0, 0⟩⟩⟩
  let contents ← if bytes.size < stop then pure nothing
    else readCommands cls bytes stop (min count stop) cls.headerSize nothing
  return {
    architecture := architectureOf (Bytes.uint bytes cls.endian 4 4)
    endian := cls.endian
    underscored := true
    dynamic := none
    symbols := (List.range contents.symbols.count).filterMap (readSymbol? cls bytes contents)
    contents? := fun name =>
      (contents.sections.find? (hasName (Text.Utf8.encode name.toList))).map fun sec =>
        (sec.contents? bytes).getD ByteArray.empty }

end LibSurvey.Object.MachO
