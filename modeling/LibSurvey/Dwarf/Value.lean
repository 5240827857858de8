import LibSurvey.Dwarf.Abbreviation

/-!
Values of attributes, as far as a survey tells them apart.
-/

namespace LibSurvey.Dwarf

/-- How a unit is written: the version of the format, the size of an address, and whether offsets
have eight bytes. -/
structure Encoding where
  version : Nat
  addressSize : Nat
  wide : Bool
deriving DecidableEq, Repr

inductive Value where
  | flag (isSet : Bool)
  /-- A place in the same unit. -/
  | unitRef (offset : Nat)
  /-- A place in the section of units. -/
  | sectionRef (offset : Nat)
  /-- The type of the type unit with this signature. -/
  | signatureRef (signature : Nat)
  | text (bytes : List UInt8)
  | stringAt (offset : Nat)
  | lineStringAt (offset : Nat)
  | stringIndex (index : Nat)
  | address
  | addressIndex (index : Nat)
  | sectionOffset (offset : Nat)
  /-- A number of four or eight bytes. -/
  | data (value : Nat) (wide : Bool)
  | other
deriving DecidableEq, Repr

namespace Value

/-- Passes what a value consists of and is not needed. -/
def passing (skipped : Read Unit) : Read Value := do
  skipped
  pure .other

/-- A value of a form that is not the indirect one. -/
def readForm (encoding : Encoding) (form : Nat) : Read Value := do
  match form with
  | 0x01 => Read.skip encoding.addressSize; pure .address
  | 0x03 => passing (Read.skipBlock 2)
  | 0x04 => passing (Read.skipBlock 4)
  | 0x05 => passing (Read.skip 2)
  | 0x06 => pure (.data (← Read.uint 4) false)
  | 0x07 => pure (.data (← Read.uint 8) true)
  | 0x08 => pure (.text (← Read.zeroTerminated))
  | 0x09 => Read.skip (← Read.uleb); pure .other
  | 0x0a => passing (Read.skipBlock 1)
  | 0x0b => passing (Read.skip 1)
  | 0x0c => pure (.flag ((← Read.uint 1) ≠ 0))
  | 0x0d => passing Read.skipSleb
  | 0x0e => pure (.stringAt (← Read.offset encoding.wide))
  | 0x0f => let _ ← Read.uleb; pure .other
  | 0x10 =>
    pure (.sectionRef (←
      if encoding.version = 2 then Read.uint encoding.addressSize else Read.offset encoding.wide))
  | 0x11 => pure (.unitRef (← Read.uint 1))
  | 0x12 => pure (.unitRef (← Read.uint 2))
  | 0x13 => pure (.unitRef (← Read.uint 4))
  | 0x14 => pure (.unitRef (← Read.uint 8))
  | 0x15 => pure (.unitRef (← Read.uleb))
  | 0x17 => pure (.sectionOffset (← Read.offset encoding.wide))
  | 0x18 => Read.skip (← Read.uleb); pure .other
  | 0x19 => pure (.flag true)
  | 0x1a => pure (.stringIndex (← Read.uleb))
  | 0x1b => pure (.addressIndex (← Read.uleb))
  | 0x1c => passing (Read.skip 4)
  | 0x1d => let _ ← Read.offset encoding.wide; pure .other
  | 0x1e => passing (Read.skip 16)
  | 0x1f => pure (.lineStringAt (← Read.offset encoding.wide))
  | 0x20 => pure (.signatureRef (← Read.uint 8))
  | 0x21 => pure .other
  | 0x22 => let _ ← Read.uleb; pure .other
  | 0x23 => let _ ← Read.uleb; pure .other
  | 0x24 => passing (Read.skip 8)
  | 0x25 => pure (.stringIndex (← Read.uint 1))
  | 0x26 => pure (.stringIndex (← Read.uint 2))
  | 0x27 => pure (.stringIndex (← Read.uint 3))
  | 0x28 => pure (.stringIndex (← Read.uint 4))
  | 0x29 => pure (.addressIndex (← Read.uint 1))
  | 0x2a => pure (.addressIndex (← Read.uint 2))
  | 0x2b => pure (.addressIndex (← Read.uint 3))
  | 0x2c => pure (.addressIndex (← Read.uint 4))
  | 0x1f01 => pure (.addressIndex (← Read.uleb))
  | 0x1f02 => pure (.stringIndex (← Read.uleb))
  | 0x1f20 => let _ ← Read.offset encoding.wide; pure .other
  | 0x1f21 => let _ ← Read.offset encoding.wide; pure .other
  | _ => throw .unknownForm

/-- A value whose form stands before it, perhaps more than once; `left` may be the number of
bytes. -/
def readIndirect (encoding : Encoding) (left : Nat) : Read Value :=
  match left with
  | 0 => throw .endOfInput
  | left + 1 => do
    let form ← Read.uleb16
    if form = 0x16 then readIndirect encoding left
    else if form = implicitConstForm then throw .indirectConstant
    else readForm encoding form

def read (encoding : Encoding) (form : Nat) : Read Value := do
  if form = 0x16 then readIndirect encoding ((← get).size + 1) else readForm encoding form

/-- The offset into the section of line tables that a value is; a number of the size of an offset
counts as one. -/
def lineTable? (encoding : Encoding) : Value → Option Nat
  | .sectionOffset offset => some offset
  | .data value wide => if wide = encoding.wide then some value else none
  | _ => none

end Value
end LibSurvey.Dwarf
