import LibSurvey.Dwarf.Fault
import LibSurvey.Object.Bytes

/-!
Reading numbers and texts one after another from a stretch of a section.
-/

namespace LibSurvey.Dwarf

/-- What is left of a stretch: the bytes from `next` up to `stop`. -/
structure Reader where
  bytes : ByteArray
  endian : Bytes.Endian
  next : Nat
  stop : Nat

abbrev Read (α : Type) : Type := StateT Reader (Except Fault) α

namespace Reader

def ofBytes (bytes : ByteArray) (endian : Bytes.Endian) : Reader :=
  ⟨bytes, endian, 0, bytes.size⟩

def isEmpty (reader : Reader) : Bool :=
  reader.stop ≤ reader.next

/-- The number of bytes left. -/
def size (reader : Reader) : Nat :=
  reader.stop - reader.next

def skip? (reader : Reader) (count : Nat) : Except Fault Reader :=
  if count ≤ reader.size then .ok { reader with next := reader.next + count }
  else .error .endOfInput

/-- The place of an element in a table of elements of one size, which is counted with 64 bits. -/
def element? (reader : Reader) (size index : Nat) : Except Fault Reader :=
  reader.skip? (index * size % UInt64.size)

/-- The next zero byte of so many from a place on. -/
def findZero (bytes : ByteArray) : Nat → Nat → Option Nat
  | 0, _ => none
  | count + 1, place =>
    if bytes[place]?.getD 0 = 0 then some place else findZero bytes count (place + 1)

end Reader

namespace Read

def skip (count : Nat) : Read Unit := do
  set (← (← get).skip? count)

/-- The next bytes as a stretch of their own. -/
def split (count : Nat) : Read Reader := do
  let reader ← get
  set (← reader.skip? count)
  pure { reader with stop := reader.next + count }

def uint (size : Nat) : Read Nat := do
  let reader ← get
  set (← reader.skip? size)
  pure (Bytes.uint reader.bytes reader.endian reader.next size)

/-- A number in groups of seven bits, the lowest first, of which 64 bits may be used. `left` is how
many more bytes there may be. -/
def ulebFrom (left value shift : Nat) : Read Nat :=
  match left with
  | 0 => throw .badUnsigned
  | left + 1 => do
    let byte ← uint 1
    if shift = 63 && 1 < byte then throw .badUnsigned
    let value := value + (byte % 128) <<< shift
    if byte < 128 then pure value else ulebFrom left value (shift + 7)

def uleb : Read Nat :=
  ulebFrom 10 0 0

/-- The same with 16 bits. -/
def uleb16 : Read Nat := do
  let first ← uint 1
  if first < 128 then return first
  let second ← uint 1
  let value := first % 128 + (second % 128) <<< 7
  if second < 128 then return value
  let third ← uint 1
  if 3 < third then throw .badUnsigned
  pure (value + third <<< 14)

/-- Passes a signed number in groups of seven bits. -/
def skipSlebFrom (left shift : Nat) : Read Unit :=
  match left with
  | 0 => throw .badSigned
  | left + 1 => do
    let byte ← uint 1
    if shift = 63 && byte ≠ 0 && byte ≠ 0x7f then throw .badSigned
    if 128 ≤ byte then skipSlebFrom left (shift + 7)

def skipSleb : Read Unit :=
  skipSlebFrom 10 0

/-- The bytes up to the next zero, which is passed. -/
def zeroTerminated : Read (List UInt8) := do
  let reader ← get
  match Reader.findZero reader.bytes reader.size reader.next with
  | some place =>
    set { reader with next := place + 1 }
    pure (reader.bytes.extract reader.next place).toList
  | none => throw .endOfInput

/-- An offset into a section, of four or of eight bytes. -/
def offset (wide : Bool) : Read Nat :=
  uint (if wide then 8 else 4)

/-- The length of what follows, and whether offsets in it have eight bytes. -/
def initialLength : Read (Nat × Bool) := do
  let length ← uint 4
  if length < 0xfffffff0 then pure (length, false)
  else if length = 0xffffffff then pure (← uint 8, true)
  else throw .unknownReservedLength

def addressSize : Read Nat := do
  let size ← uint 1
  if [1, 2, 4, 8].contains size then pure size else throw .unsupportedAddressSize

/-- Passes a block whose length stands before it in so many bytes. -/
def skipBlock (lengthSize : Nat) : Read Unit := do
  skip (← uint lengthSize)

end Read
end LibSurvey.Dwarf
