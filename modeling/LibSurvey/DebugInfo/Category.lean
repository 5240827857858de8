import LibSurvey.Text.Distinct

/-!
Categories of types: what a signature from debug information says of a type.
-/

namespace LibSurvey

inductive TypeCategory where
  | int
  | float
  | double
  | pointer
  | void
  /-- A base type of no other category, by its name. -/
  | named (name : String)
  | unknown
deriving DecidableEq, Repr

namespace TypeCategory

def name : TypeCategory → String
  | .int => "int"
  | .float => "float"
  | .double => "double"
  | .pointer => "pointer"
  | .void => "void"
  | .named name => name
  | .unknown => "unknown"

/-- The words of which any makes a base type an integer. -/
def integerParts : List String :=
  ["int", "long", "short", "char"]

/-- The category of a base type, by what its name contains. -/
def ofBaseName (name : String) : TypeCategory :=
  if Text.occursIn "float".toList name.toList then .float
  else if Text.occursIn "double".toList name.toList then .double
  else if integerParts.any fun part => Text.occursIn part.toList name.toList then .int
  else .named name

end TypeCategory
end LibSurvey
