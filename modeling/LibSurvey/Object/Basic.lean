import LibSurvey.Object.Bytes

/-!
What a survey needs of an object file, whatever its format: the machine, the byte order, the tables
of symbols and the sections that hold debug information.
-/

namespace LibSurvey

inductive Architecture where
  | arm64
  | x86_64
  | x86
  | riscv64
  | unknown
deriving DecidableEq, Repr

namespace Architecture

def name : Architecture → String
  | .arm64 => "arm64"
  | .x86_64 => "x86_64"
  | .x86 => "x86"
  | .riscv64 => "riscv64"
  | .unknown => "unknown"

/-- The size of a pointer in bytes, as far as the machine is known. -/
def pointerSize : Architecture → Nat
  | .x86 => 4
  | _ => 8

end Architecture

namespace Object

/-- An entry of a table of symbols. A symbol whose name cannot be read has none. -/
structure Symbol where
  name : Option String
  isFunction : Bool
  isDefined : Bool
  isLocal : Bool
deriving DecidableEq, Repr

/-- An object file that could be opened. -/
structure File where
  architecture : Architecture
  endian : Bytes.Endian
  /-- Whether names in the tables carry an underscore that sources do not have. -/
  underscored : Bool
  /-- The table for the dynamic linker, if there is one. -/
  dynamic : Option (List Symbol)
  symbols : List Symbol
  /-- The first section of a name, empty if it cannot be read. -/
  contents? : String → Option ByteArray

end Object
end LibSurvey
