import LibSurvey.Object.Basic

/-!
COFF files, also with the larger header for many sections, and images that carry COFF headers.
-/

namespace LibSurvey.Object.Coff

open Bytes (Endian Strings)

inductive Fault where
  | header
  | unknownAnonymous
  | largeHeader
  | optionalSize
  | sections
  | symbols
  | noStrings
  | dosHeader
  | imageHeader
  | imageMagic
  | optionalMagic
  | optionalSmall
  | optionalRange
  | directories
deriving DecidableEq, Repr

def Fault.message : Fault → String
  | .header => "Invalid COFF file header size or alignment"
  | .unknownAnonymous => "Unknown anon object file"
  | .largeHeader => "Invalid COFF bigobj file header size or alignment"
  | .optionalSize => "Invalid COFF optional header size"
  | .sections => "Invalid COFF/PE section headers"
  | .symbols => "Invalid COFF symbol table offset or size"
  | .noStrings => "Missing COFF string table"
  | .dosHeader => "Invalid DOS header size or alignment"
  | .imageHeader => "Invalid PE headers offset or size"
  | .imageMagic => "Invalid PE magic"
  | .optionalMagic => "Invalid PE optional header magic"
  | .optionalSmall => "PE optional header size is too small"
  | .optionalRange => "Invalid PE optional header size"
  | .directories => "Invalid PE number of RVA and sizes"

def uint (bytes : ByteArray) (offset size : Nat) : Nat :=
  Bytes.uint bytes .little offset size

/-- What the headers say about the rest of a file. -/
structure Layout where
  machine : Nat
  large : Bool
  image : Bool
  sectionOffset : Nat
  sectionCount : Nat
  symbolOffset : Nat
  symbolCount : Nat

def Layout.symbolSize (layout : Layout) : Nat :=
  if layout.large then 20 else 18

/-- The header at a place, followed by an optional header of the size it gives. -/
def layoutAt (bytes : ByteArray) (offset : Nat) (image : Bool) : Layout where
  machine := uint bytes offset 2
  large := false
  image := image
  sectionOffset := offset + 20 + uint bytes (offset + 16) 2
  sectionCount := uint bytes (offset + 2) 2
  symbolOffset := uint bytes (offset + 8) 4
  symbolCount := uint bytes (offset + 12) 4

/-- The identity that the larger header carries. -/
def largeIdentity : List UInt8 :=
  [0xc7, 0xa1, 0xba, 0xd1, 0xee, 0xba, 0xa9, 0x4b, 0xaf, 0x20, 0xfa, 0xf6, 0x6a, 0xa4, 0xdc, 0xb8]

/-- Of the files whose headers begin without a machine, those with the larger header are known by
their identity. The part of the header that all of them share takes 32 bytes. -/
def isLarge (bytes : ByteArray) : Bool :=
  32 ≤ bytes.size && (bytes.extract 12 28).toList = largeIdentity

def largeLayout? (bytes : ByteArray) : Except Fault Layout :=
  if !isLarge bytes then .error .unknownAnonymous
  else if bytes.size < 56 then .error .largeHeader
  else .ok {
    machine := uint bytes 6 2
    large := true
    image := false
    sectionOffset := 56
    sectionCount := uint bytes 44 4
    symbolOffset := uint bytes 48 4
    symbolCount := uint bytes 52 4 }

/-- The strings behind the table of symbols, whose first four bytes are their size. -/
def readStrings (bytes : ByteArray) (layout : Layout) : Except Fault (Option Strings) :=
  if layout.symbolOffset = 0 then .ok none
  else
    let symbolsSize := layout.symbolCount * layout.symbolSize
    let start := layout.symbolOffset + symbolsSize
    if (Bytes.slice? bytes layout.symbolOffset symbolsSize).isNone then .error .symbols
    else match Bytes.uint? bytes .little start 4 with
      | some size => .ok (some ⟨start, start + size⟩)
      | none => .error .noStrings

def stringAt? (bytes : ByteArray) (strings : Option Strings) (offset : Nat) :
    Option (List UInt8) :=
  strings.bind fun strings => strings.get? bytes offset

/-- A name of up to eight bytes, or the place of a longer one. -/
def symbolName? (bytes : ByteArray) (strings : Option Strings) (base : Nat) :
    Option (List UInt8) :=
  let short := (bytes.extract base (base + 8)).toList
  if short.head? = some 0 then stringAt? bytes strings (uint bytes (base + 4) 4)
  else some (Bytes.untilZero short)

/-- The symbol at an index, with the number of further entries that belong to it. -/
def readSymbol (bytes : ByteArray) (layout : Layout) (strings : Option Strings) (index : Nat) :
    Symbol × Nat :=
  let base := layout.symbolOffset + index * layout.symbolSize
  let shift := if layout.large then 2 else 0
  let storage := uint bytes (base + shift + 16) 1
  let further := uint bytes (base + shift + 17) 1
  let isFunction := uint bytes (base + shift + 14) 2 / 16 % 4 = 2
  let number := uint bytes (base + 12) (2 + shift)
  let isGlobal := storage = 2 || storage = 105
  ({ name := (symbolName? bytes strings base).bind Bytes.text?
     isFunction := isFunction && (isGlobal || (storage = 3 && further = 0))
     isDefined := !(storage = 2 && number = 0 && uint bytes (base + 8) 4 = 0)
     isLocal := !isGlobal }, further)

/-- The symbols from an index on; the fuel is what is left of the table. -/
def readSymbols (bytes : ByteArray) (layout : Layout) (strings : Option Strings) :
    Nat → Nat → List Symbol → List Symbol
  | 0, _, seen => seen.reverse
  | fuel + 1, index, seen =>
    if layout.symbolCount ≤ index then seen.reverse
    else
      let (symbol, further) := readSymbol bytes layout strings index
      readSymbols bytes layout strings fuel (index + 1 + further) (symbol :: seen)

/-- A digit of a numbers name in base 64. -/
def base64? (b : UInt8) : Option Nat :=
  let n := b.toNat
  if 0x41 ≤ n && n ≤ 0x5a then some (n - 0x41)
  else if 0x61 ≤ n && n ≤ 0x7a then some (n - 0x61 + 26)
  else if 0x30 ≤ n && n ≤ 0x39 then some (n - 0x30 + 52)
  else if n = 0x2b then some 62
  else if n = 0x2f then some 63
  else none

def decimal? (b : UInt8) : Option Nat :=
  if 0x30 ≤ b && b ≤ 0x39 then some (b.toNat - 0x30) else none

def digits? (radix : Nat) (digit? : UInt8 → Option Nat) (bytes : List UInt8) : Option Nat :=
  bytes.foldlM (fun value b => (digit? b).map (value * radix + ·)) 0

/-- The name of a section: eight bytes, or a slash and the place of a longer one. -/
def sectionName? (bytes : ByteArray) (strings : Option Strings) (base : Nat) :
    Option (List UInt8) :=
  match (bytes.extract base (base + 8)).toList with
  | 0x2f :: 0x2f :: rest => (digits? 64 base64? rest).bind (stringAt? bytes strings)
  | 0x2f :: rest => (digits? 10 decimal? (Bytes.untilZero rest)).bind (stringAt? bytes strings)
  | short => some (Bytes.untilZero short)

def sectionContents? (bytes : ByteArray) (layout : Layout) (base : Nat) : Option ByteArray :=
  let stored := uint bytes (base + 16) 4
  if layout.image then
    Bytes.slice? bytes (uint bytes (base + 20) 4) (min (uint bytes (base + 8) 4) stored)
  else if (uint bytes (base + 36) 4).testBit 7 then some ByteArray.empty
  else Bytes.slice? bytes (uint bytes (base + 20) 4) stored

def architectureOf (machine : Nat) : Architecture :=
  if machine = 0x14c then .x86
  else if machine = 0x8664 then .x86_64
  else if machine = 0xaa64 || machine = 0xa641 then .arm64
  else .unknown

/-- The byte order of what a file holds; its own tables are always little-endian. -/
def Layout.endian (layout : Layout) : Endian :=
  if layout.machine = 0x1f2 && !layout.image then .big else .little

/-- The file that headers describe; what is wrong with the symbols of an image does not count. -/
def ofLayout? (bytes : ByteArray) (layout : Layout) : Except Fault File := do
  if (Bytes.slice? bytes layout.sectionOffset (layout.sectionCount * 40)).isNone then
    throw .sections
  let (layout, strings) ← match readStrings bytes layout with
    | .ok strings => pure (layout, strings)
    | .error fault =>
      if layout.image then pure ({ layout with symbolOffset := 0 }, none) else throw fault
  let bases := (List.range layout.sectionCount).map fun index => layout.sectionOffset + index * 40
  return {
    architecture := architectureOf layout.machine
    endian := layout.endian
    underscored := false
    dynamic := none
    symbols := if layout.symbolOffset = 0 then []
      else readSymbols bytes layout strings (layout.symbolCount + 1) 0 []
    contents? := fun name =>
      let wanted := Text.Utf8.encode name.toList
      (bases.find? fun base => sectionName? bytes strings base = some wanted).map fun base =>
        (sectionContents? bytes layout base).getD ByteArray.empty }

def open? (bytes : ByteArray) : Except Fault File :=
  if bytes.size < 20 then .error .header
  else ofLayout? bytes (layoutAt bytes 0 false)

def openLarge? (bytes : ByteArray) : Except Fault File := do
  ofLayout? bytes (← largeLayout? bytes)

/-- The word size of an image, if its headers can be found. -/
def imageIsWide? (bytes : ByteArray) : Option Bool :=
  if bytes.size < 64 then none
  else
    let offset := uint bytes 60 4
    if bytes.size < offset + 120 || uint bytes offset 4 ≠ 0x4550 then none
    else if uint bytes (offset + 24) 2 = 0x10b then some false
    else if uint bytes (offset + 24) 2 = 0x20b then some true
    else none

def openImage? (bytes : ByteArray) (wide : Bool) : Except Fault File := do
  let offset := uint bytes 60 4
  let optional := if wide then 112 else 96
  if bytes.size < offset + 24 + optional then throw .imageHeader
  let size := uint bytes (offset + 20) 2
  if size < optional then throw .optionalSmall
  if bytes.size < offset + 24 + size then throw .optionalRange
  let directories := uint bytes (offset + 24 + optional - 4) 4
  if size < optional + directories * 8 then throw .directories
  ofLayout? bytes (layoutAt bytes (offset + 4) true)

end LibSurvey.Object.Coff
