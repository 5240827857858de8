/-!
What can be wrong with debug information in the DWARF format.
-/

namespace LibSurvey.Dwarf

inductive Fault where
  | endOfInput
  | unknownReservedLength
  | unknownVersion
  | unsupportedAddressSize
  | unsupportedUnitType
  | unsupportedSegmentSize
  | badUnsigned
  | badSigned
  | zeroTag
  | zeroForm
  | badHasChildren
  | expectedZero
  | duplicateAbbreviation
  | unknownAbbreviation
  | unknownForm
  | indirectConstant
  | missingRoot
  | unexpectedNull
  | noEntry
  | offsetOutOfBounds
  | expectedString
  | zeroInstructionLength
  | zeroOperations
  | zeroLineRange
  | zeroOpcodeBase
  | missingPathFormat
deriving DecidableEq, Repr

def Fault.message : Fault → String
  | .endOfInput => "Hit the end of input before it was expected"
  | .unknownReservedLength => "Found an unknown reserved length value"
  | .unknownVersion => "Found an unknown DWARF version"
  | .unsupportedAddressSize => "The specified address size is not supported"
  | .unsupportedUnitType => "The \x60DW_UT_*\x60 value for this unit is not supported yet"
  | .unsupportedSegmentSize => "Nonzero segment size not supported yet"
  | .badUnsigned => "An error parsing an unsigned LEB128 value"
  | .badSigned => "An error parsing a signed LEB128 value"
  | .zeroTag =>
    "An abbreviation declared that its tag is zero,\n                 but zero is reserved for null records"
  | .zeroForm =>
    "An attribute specification declared that its form is zero,\n                 but zero is reserved for null records"
  | .badHasChildren =>
    "The abbreviation's has-children byte was not one of\n                 \x60DW_CHILDREN_\x7byes,no\x7d\x60"
  | .expectedZero => "Expected a zero, found something else"
  | .duplicateAbbreviation => "Found an abbreviation code that has already been used"
  | .unknownAbbreviation => "Found a record with an unknown abbreviation code"
  | .unknownForm => "Found an unknown \x60DW_FORM_*\x60 type"
  | .indirectConstant => "DW_FORM_implicit_const used in an invalid context."
  | .missingRoot => "A compilation unit or type unit is missing its top level DIE."
  | .unexpectedNull => "Read a null entry before it was expected."
  | .noEntry => "Did not find an entry at the given offset."
  | .offsetOutOfBounds => "The given offset is out of bounds."
  | .expectedString => "Expected an attribute value to be a string form."
  | .zeroInstructionLength => "The minimum instruction length must not be zero."
  | .zeroOperations => "The maximum operations per instruction must not be zero."
  | .zeroLineRange => "The line range must not be zero."
  | .zeroOpcodeBase => "The opcode base must not be zero."
  | .missingPathFormat => "Missing DW_LNCT_path in file entry format."

end LibSurvey.Dwarf
