import LibSurvey.Dwarf.Value

/-!
The headers of units. Units stand one after another in a section, each behind its length; offsets in
a unit count from its length on.
-/

namespace LibSurvey.Dwarf

structure UnitHeader where
  /-- Whether the unit stands in the section of compilation units. -/
  inInfo : Bool
  /-- Where the unit starts in its section. -/
  start : Nat
  encoding : Encoding
  abbreviations : Nat
  /-- The signature of the type that a type unit is for, and the offset of its entry. -/
  typeSignature : Option (Nat × Nat)
  /-- The stretch of the entries. -/
  entries : Reader

namespace UnitHeader

/-- Where the entries start, counted from the start of the unit. -/
def entriesStart (header : UnitHeader) : Nat :=
  header.entries.next - header.start

def entriesStop (header : UnitHeader) : Nat :=
  header.entries.stop - header.start

/-- Whether an offset lies within the entries. -/
def contains (header : UnitHeader) (offset : Nat) : Bool :=
  header.entriesStart ≤ offset && offset < header.entriesStop

/-- The entries from an offset on. -/
def entriesFrom? (header : UnitHeader) (offset : Nat) : Except Fault Reader :=
  if header.contains offset then .ok { header.entries with next := header.start + offset }
  else .error .offsetOutOfBounds

/-- The kind of a unit in version 5, with what its header holds besides. -/
def readKind (wide : Bool) (code : Nat) : Read (Option (Nat × Nat)) := do
  match code with
  | 1 => pure none
  | 3 => pure none
  | 2 => pure (some (← Read.uint 8, ← Read.offset wide))
  | 4 => Read.skip 8; pure none
  | 5 => Read.skip 8; pure none
  | 6 => pure (some (← Read.uint 8, ← Read.offset wide))
  | _ => throw .unsupportedUnitType

/-- The header within the stretch that its length gave. -/
def readBody (inInfo wide : Bool) (start : Nat) : Read UnitHeader := do
  let version ← Read.uint 2
  if 2 ≤ version && version ≤ 4 then
    let abbreviations ← Read.offset wide
    let addressSize ← Read.addressSize
    let typeSignature ← readKind wide (if inInfo then 1 else 2)
    pure ⟨inInfo, start, ⟨version, addressSize, wide⟩, abbreviations, typeSignature, ← get⟩
  else if version = 5 then
    let code ← Read.uint 1
    let addressSize ← Read.addressSize
    let abbreviations ← Read.offset wide
    let typeSignature ← readKind wide code
    pure ⟨inInfo, start, ⟨version, addressSize, wide⟩, abbreviations, typeSignature, ← get⟩
  else throw .unknownVersion

def read (inInfo : Bool) : Read UnitHeader := do
  let start := (← get).next
  let (length, wide) ← Read.initialLength
  let (header, _) ← (readBody inInfo wide start).run (← Read.split length)
  pure header

/-- The headers in a section up to its end or the first that cannot be read; each takes a byte at
least, so `left` may be the number of bytes. -/
def readAll (inInfo : Bool) (left : Nat) (section_ : Reader) : List UnitHeader × Option Fault :=
  match left with
  | 0 => ([], none)
  | left + 1 =>
    if section_.isEmpty then ([], none)
    else match (read inInfo).run section_ with
      | .ok (header, rest) =>
        let (headers, fault) := readAll inInfo left rest
        (header :: headers, fault)
      | .error fault => ([], some fault)

end UnitHeader
end LibSurvey.Dwarf
