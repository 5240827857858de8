import LibSurvey.Dwarf.Value

/-!
The header of a line table. Nothing of it is kept; a unit whose line table has a header that cannot
be read is no use.
-/

namespace LibSurvey.Dwarf.LineTable

/-- Passes texts that end in zero up to an empty one, each followed by so many numbers. -/
def skipTexts (numbers left : Nat) : Read Unit :=
  match left with
  | 0 => throw .endOfInput
  | left + 1 => do
    if (← Read.zeroTerminated).isEmpty then pure ()
    else
      for _ in List.range numbers do
        let _ ← Read.uleb
      skipTexts numbers left

def pathContent : Nat := 1

/-- The forms of what an entry consists of; exactly one part is its path. -/
def readFormats : Read (List Nat) := do
  let count ← Read.uint 1
  let mut forms := #[]
  let mut paths := 0
  for _ in List.range count do
    let content ← Read.uleb
    if content = pathContent then paths := paths + 1
    forms := forms.push (← Read.uleb16)
  if paths = 1 then pure forms.toList else throw .missingPathFormat

/-- The forms that parts of an entry may have. -/
def allowedForms : List Nat :=
  [0x03, 0x04, 0x09, 0x0a, 0x0b, 0x05, 0x06, 0x07, 0x1e, 0x0f, 0x0d, 0x0c, 0x17, 0x08, 0x0e, 0x1d,
    0x1f21, 0x1f, 0x1a, 0x1f02, 0x25, 0x26, 0x27, 0x28]

def skipEntry (encoding : Encoding) (forms : List Nat) : Read Unit :=
  forms.forM fun form =>
    if allowedForms.contains form then do
      let _ ← Value.readForm encoding form
    else throw .unknownForm

/-- Passes so many entries; each takes a byte at least, so `left` may be the number of bytes. -/
def skipEntries (encoding : Encoding) (forms : List Nat) (count left : Nat) : Read Unit :=
  match left with
  | 0 => if count = 0 then pure () else throw .endOfInput
  | left + 1 => do
    if 0 < count then
      skipEntry encoding forms
      skipEntries encoding forms (count - 1) left

def skipTable (encoding : Encoding) : Read Unit := do
  let forms ← readFormats
  let count ← Read.uleb
  skipEntries encoding forms count ((← get).size + 1)

/-- The part of the header that has its own length. -/
def readFields (encoding : Encoding) : Read Unit := do
  if (← Read.uint 1) = 0 then throw .zeroInstructionLength
  if 4 ≤ encoding.version then
    if (← Read.uint 1) = 0 then throw .zeroOperations
  Read.skip 2
  if (← Read.uint 1) = 0 then throw .zeroLineRange
  let opcodeBase ← Read.uint 1
  if opcodeBase = 0 then throw .zeroOpcodeBase
  Read.skip (opcodeBase - 1)
  if encoding.version ≤ 4 then
    skipTexts 0 ((← get).size + 1)
    skipTexts 3 ((← get).size + 1)
  else
    skipTable encoding
    skipTable encoding

def readBody (wide : Bool) (unitAddressSize : Nat) : Read Unit := do
  let version ← Read.uint 2
  if version < 2 || 5 < version then throw .unknownVersion
  let mut addressSize := unitAddressSize
  if 5 ≤ version then
    addressSize ← Read.addressSize
    if (← Read.uint 1) ≠ 0 then throw .unsupportedSegmentSize
  let length ← Read.offset wide
  let _ ← (readFields ⟨version, addressSize, wide⟩).run (← Read.split length)

def read (addressSize : Nat) : Read Unit := do
  let (length, wide) ← Read.initialLength
  let _ ← (readBody wide addressSize).run (← Read.split length)

/-- Reads the header at an offset of the section of line tables. -/
def check (lines : Reader) (offset addressSize : Nat) : Except Fault Unit := do
  let _ ← (read addressSize).run (← lines.skip? offset)

end LibSurvey.Dwarf.LineTable
