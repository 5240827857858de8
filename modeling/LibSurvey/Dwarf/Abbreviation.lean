import LibSurvey.Dwarf.Reader
import Std.Data.TreeMap

/-!
Abbreviations: the tag of an entry, whether it has children, and the attributes that it has in order.
-/

namespace LibSurvey.Dwarf

/-- An attribute's name and the form of its value. -/
structure AttributeSpec where
  name : Nat
  form : Nat
deriving DecidableEq, Repr

structure Abbreviation where
  tag : Nat
  hasChildren : Bool
  attributes : List AttributeSpec
deriving DecidableEq, Repr

abbrev Abbreviations := Std.TreeMap Nat Abbreviation

/-- Codes of the standard. -/
def implicitConstForm : Nat := 0x21

namespace Abbreviation

def readSpec? : Read (Option AttributeSpec) := do
  let name ← Read.uleb16
  let form ← Read.uleb16
  if name = 0 then
    if form = 0 then pure none else throw .expectedZero
  else if form = 0 then throw .zeroForm
  else
    if form = implicitConstForm then Read.skipSleb
    pure (some ⟨name, form⟩)

/-- The attributes up to the closing pair of zeros; each takes two bytes, so `left` may be the number
of bytes. -/
def readSpecs (left : Nat) (found : List AttributeSpec) : Read (List AttributeSpec) :=
  match left with
  | 0 => throw .endOfInput
  | left + 1 => do
    match ← readSpec? with
    | some spec => readSpecs left (spec :: found)
    | none => pure found.reverse

/-- An abbreviation and its code, unless the closing zero or the end of the section is here. -/
def read? : Read (Option (Nat × Abbreviation)) := do
  if (← get).isEmpty then return none
  let code ← Read.uleb
  if code = 0 then return none
  let tag ← Read.uleb16
  if tag = 0 then throw .zeroTag
  let hasChildren ← Read.uint 1
  if 1 < hasChildren then throw .badHasChildren
  let attributes ← readSpecs ((← get).size + 1) []
  pure (some (code, ⟨tag, hasChildren = 1, attributes⟩))

end Abbreviation

namespace Abbreviations

/-- The abbreviations up to the closing zero or the end. -/
def readAll (left : Nat) (found : Abbreviations) : Read Abbreviations :=
  match left with
  | 0 => throw .endOfInput
  | left + 1 => do
    match ← Abbreviation.read? with
    | some (code, abbreviation) =>
      if found.contains code then throw .duplicateAbbreviation
      readAll left (found.insert code abbreviation)
    | none => pure found

def read : Read Abbreviations := do
  readAll ((← get).size + 1) ∅

end Abbreviations
end LibSurvey.Dwarf
